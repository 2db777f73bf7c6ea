import Backtick.Log.Config
import Backtick.Number.Notation
import Backtick.Value.Text

/-!
# Log records

A record is an event with the moment at which it happened, if that is known.
The logger that writes it has a context: groups that were opened and attributes
that were attached, in the order in which this was done.
-/

namespace Backtick.Log

/-- An event at a moment. -/
structure Record where
  moment : Option Moment
  event : Event

/-- A step of a logger's context. -/
inductive Context
  | group (name : Bytes)
  | attrs (attached : List Attr)

/-- The attributes that every record starts with: when, how severe, what. -/
def Record.heading (c : Config) (r : Record) : List Attr :=
  let time : List Attr :=
    match r.moment with
    | none => []
    | some m => if m.isUnset then [] else (c.replace? ("time", .moment m)).toList
  let level := (Level.name r.event.level).map Bytes.toUpperByte
  let said : List Attr := [("level", .text level), ("msg", .text r.event.message)]
  time ++ said

/-- The attributes of a record itself; groups without attributes are left out. -/
def Record.attrs (r : Record) : List Attr :=
  r.event.attrs.filter fun a => !a.2.isEmptyGroup

namespace Datum

mutual

def shown : Datum -> Bytes
  | .text s => s
  | .int n => Bytes.ofInt n
  | .natural n => Bytes.ofNat n
  | .number x => Notation.general.write .double x
  | .flag b => if b then "true" else "false"
  | .duration n => Duration.text n
  | .moment m => m.format "2006-01-02 15:04:05.999999999 -0700 MST"
  | .group attrs => "[" ++ Bytes.join " " (shownAttrs attrs) ++ "]"
  | .value v => v.shown
  | .names items => "[" ++ Bytes.join " " items ++ "]"
  | .message s => s
  | .failure said _ => said

def shownAttrs : List (Bytes × Datum) -> List Bytes
  | [] => []
  | (key, d) :: rest => (key ++ "=" ++ shown d) :: shownAttrs rest

end

end Datum

end Backtick.Log
