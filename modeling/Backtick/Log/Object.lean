import Backtick.Document.Json
import Backtick.Log.Sheet

/-!
# Records as JSON objects

Each record is an object on one line, and each group an object inside it.
-/

namespace Backtick.Log

/-- A character of a string: control characters without a common name have a code. -/
def objectChar (c : Char) : Bytes :=
  let n := c.toNat
  if n = 0x08 || n = 0x0C then "\\u" ++ Bytes.ofHex 4 n else Json.escapeChar false c

def objectPiece : Utf8.Piece -> Bytes
  | .char c => objectChar c
  | .stray b => Json.escapePiece false (.stray b)

def objectText (text : Bytes) : Bytes :=
  "\"" ++ (Utf8.pieces text).flatMap objectPiece ++ "\""

/-- A document inside a record, or the reason why it cannot be written. -/
def objectDocument (d : Document) : Bytes :=
  match Json.unsupported? d with
  | some x =>
      objectText ("!ERROR:json: unsupported value: " ++ Notation.general.write .double x)
  | none => Json.write ⟨0, false⟩ 0 d

/-- A moment; a year without four digits cannot be written. -/
def objectMoment (m : Moment) : Bytes :=
  let year := m.clock.year
  if year < 0 || 9999 < year then
    objectText "!ERROR:time.Time year outside of range [0,9999]"
  else
    objectText (m.format "2006-01-02T15:04:05.999999999Z07:00")

def objectValue : Datum -> Bytes
  | .text s => objectText s
  | .number x => objectDocument (.number .double x)
  | .duration n => Bytes.ofInt n
  | .moment m => objectMoment m
  | .value v => objectDocument (.ofValue .json v)
  | .names [] => "null"
  | .names items => objectDocument (.list (items.map .string))
  | .message s => objectText s
  | d => d.shown

def Style.object : Style :=
  ⟨",", true, fun _ key => objectText key ++ ":", objectValue⟩

def Record.object (c : Config) (context : List Context) (r : Record) : Bytes :=
  Sheet.record c .object context r

end Backtick.Log
