import Backtick.Log.Record
import Backtick.Text.Quoted
import Backtick.Text.Styled

/-!
# Records in styles

Records for a reader at a terminal: fields on one line, or an object with a line
for each field. Keys and values are styled texts, and groups are not taken apart.
-/

namespace Backtick.Log

/-- The fields of a context and of the record's own attributes, with the names of the open
groups before their keys. -/
def prettyFields (own : List Attr) (path : Bytes) : List Context -> List Attr
  | [] => own.map fun a => (path ++ a.1, a.2)
  | .group name :: rest => prettyFields own (path ++ name ++ ".") rest
  | .attrs attached :: rest =>
      (attached.map fun a => (path ++ a.1, a.2)) ++ prettyFields own path rest

/-- The text of a datum and whether it is quoted in an object. -/
def prettyDatum : Datum -> Bool × Bytes
  | .text s => (true, s)
  | .duration n => (true, Duration.text n)
  | .moment m => (true, m.format "2006-01-02T15:04:05Z07:00")
  | .group attrs => (true, Bytes.join " " (Datum.shownAttrs attrs))
  | .value .null => (false, "null")
  | .value v => (true, v.shown)
  | .names items => (true, (Datum.names items).shown)
  | .message s => (true, s)
  | d => (false, d.shown)

/-- The value of a field; the field named for the level is shown as a group's would be. -/
def prettyValue (object : Bool) (a : Attr) : Bytes :=
  let d := a.2.resolve
  let (quoted, text) := if a.1 = ↑"level" then (true, d.shown) else prettyDatum d
  Text.styled (if object && quoted then Text.quote text else text)

def prettyField (a : Attr) : Bytes :=
  Text.styled a.1 ++ "=" ++ prettyValue false a

def prettyMember (a : Attr) : Bytes :=
  "  " ++ Text.styled (Text.quote a.1) ++ ": " ++ prettyValue true a

def Record.pretty (c : Config) (context : List Context) (r : Record) : Bytes :=
  let fields := r.heading c ++ prettyFields r.attrs [] context
  if c.format = .json then
    "\x7b\n" ++ Bytes.join ",\n" (fields.map prettyMember) ++ "\n\x7d\n"
  else
    Bytes.join " " (fields.map prettyField) ++ "\n"

end Backtick.Log
