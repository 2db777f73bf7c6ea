import Backtick.Log.Event
import Backtick.Text.Blank

/-!
# Names of levels and formats

A level without a name of its own is written as the nearest named level below
it and the distance. A text that names no level or format stands for the default.
-/

namespace Backtick.Log

namespace Level

/-- A named level and the distance from it. -/
def offsetName (base : Bytes) (distance : Int) : Bytes :=
  if distance = 0 then base
  else if 0 < distance then base ++ "+" ++ Bytes.ofInt distance
  else base ++ Bytes.ofInt distance

def name (level : Level) : Bytes :=
  if level = trace then "trace"
  else if level < info then offsetName "debug" (level - debug)
  else if level < warn then offsetName "info" (level - info)
  else if level < error then offsetName "warn" (level - warn)
  else offsetName "error" (level - error)

def names : List Bytes :=
  ["trace", "debug", "info", "warn", "error"]

def integer? (text : Bytes) : Option Int :=
  let (negative, digits) : Bool × Bytes :=
    match text with
    | b :: rest =>
        if b = '-'.toUInt8 then (true, rest)
        else if b = '+'.toUInt8 then (false, rest)
        else (false, text)
    | [] => (false, [])
  if digits.isEmpty || !digits.all Bytes.isDigit then
    none
  else
    let n : Int := Bytes.digitsValue digits
    let signed := if negative then -n else n
    if -(Nat.pow 2 63 : Nat) ≤ signed && signed < (Nat.pow 2 63 : Nat) then some signed else none

/-- The named levels that an offset can follow. -/
def base? (word : Bytes) : Option Level :=
  if word = ↑"debug" then some debug
  else if word = ↑"info" then some info
  else if word = ↑"warn" then some warn
  else if word = ↑"error" then some error
  else none

/-- An ASCII letter in lower case; the dotless i is the capital I as well. -/
def lowerPiece : Utf8.Piece -> Bytes
  | .char c => if c.toNat = 0x131 then "i" else String.utf8EncodeChar c.toLower
  | .stray b => [b]

/-- Reads a level: a name in any case, with an optional offset. Levels have 64 bits. -/
def parse? (text : Bytes) : Option Level :=
  let word := (Utf8.pieces (Text.trim text)).flatMap lowerPiece
  if word = ↑"trace" then
    some trace
  else
    let isSign (b : UInt8) : Bool := b = '+'.toUInt8 || b = '-'.toUInt8
    let base := word.takeWhile fun b => !isSign b
    let offset := word.dropWhile fun b => !isSign b
    match base? base with
    | none => none
    | some level =>
        if offset.isEmpty then some level
        else (integer? offset).map fun n => Int.bmod (level + n) (Nat.pow 2 64)

/-- Reads a level; what names none is the default. -/
def parse (text : Bytes) : Level :=
  (parse? text).getD info

end Level

/-- The formats of log output. A code outside the table discards all. -/
inductive Format
  | text
  | json
  | unknown (code : Int)
deriving DecidableEq, Repr

namespace Format

def ofCode (code : Int) : Format :=
  match code with
  | 0 => .text
  | 1 => .json
  | n => .unknown n

def name : Format -> Bytes
  | .text => "text"
  | .json => "json"
  | .unknown code => "Format(" ++ Bytes.ofInt code ++ ")"

def names : List Bytes :=
  ["text", "json"]

/-- Reads a format; what names none is text. -/
def parse (text : Bytes) : Format :=
  if (Text.trim text).map Bytes.toLowerByte = ↑"json" then .json else .text

end Format

end Backtick.Log
