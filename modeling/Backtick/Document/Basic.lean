import Backtick.Number.Binary64
import Backtick.Time.Duration
import Backtick.Value.Basic

/-!
# Documents

What is printed as JSON or YAML: scalars, lists, and mappings whose keys keep
the order in which they are given. Byte strings and durations have a form of their own
in each format.
-/

namespace Backtick

inductive Document
  | null
  | bool (b : Bool)
  | integer (n : Int)
  | number (precision : Precision) (x : Binary64)
  | string (s : Bytes)
  | list (items : List Document)
  | map (fields : List (Bytes × Document))

inductive DocumentFormat
  | json
  | yaml
deriving DecidableEq, Repr

namespace Document

instance : Inhabited Document := ⟨.null⟩

def base64Digit (n : Nat) : UInt8 :=
  if n < 26 then 'A'.toUInt8 + n.toUInt8
  else if n < 52 then 'a'.toUInt8 + (n - 26).toUInt8
  else if n < 62 then '0'.toUInt8 + (n - 52).toUInt8
  else if n = 62 then '+'.toUInt8
  else '/'.toUInt8

/-- Bytes as text, three bytes to four digits. -/
def base64 : Bytes -> Bytes
  | [] => []
  | [a] =>
      let n := a.toNat * 16
      [base64Digit (n / 64), base64Digit (n % 64), '='.toUInt8, '='.toUInt8]
  | [a, b] =>
      let n := (a.toNat * 256 + b.toNat) * 4
      [ base64Digit (n / 4096), base64Digit (n / 64 % 64), base64Digit (n % 64), '='.toUInt8 ]
  | a :: b :: c :: rest =>
      let n := (a.toNat * 256 + b.toNat) * 256 + c.toNat
      base64Digit (n / 262144) :: base64Digit (n / 4096 % 64) :: base64Digit (n / 64 % 64) ::
        base64Digit (n % 64) :: base64 rest

/-- The document of a byte string: a text in base 64, or a list of numbers. -/
def ofBytes (format : DocumentFormat) (b : Bytes) : Document :=
  match format with
  | .json => .string (base64 b)
  | .yaml => .list (b.map fun byte => .integer byte.toNat)

/-- The document of a duration: a count of nanoseconds, or its text. -/
def ofDuration (format : DocumentFormat) (n : Int) : Document :=
  match format with
  | .json => .integer n
  | .yaml => .string (Duration.text n)

mutual

def ofValue (format : DocumentFormat) : Value -> Document
  | .null => .null
  | .bool b => .bool b
  | .string s => .string s
  | .integer _ n => .integer n
  | .double x => .number .double x
  | .single x => .number .single x
  | .list items => .list (ofItems format items)
  | .map fields => .map (ofFields format fields)
  | .strings items => .list (items.map .string)
  | .integers items => .list (items.map .integer)
  | .bytes b => ofBytes format b
  | .array items => .list (ofItems format items)
  | .ref target => ofValue format target
  | .emptyRef _ => .null
  | .duration n => ofDuration format n

def ofItems (format : DocumentFormat) : List Value -> List Document
  | [] => []
  | item :: rest => ofValue format item :: ofItems format rest

def ofFields (format : DocumentFormat) : List (Bytes × Value) -> List (Bytes × Document)
  | [] => []
  | (key, item) :: rest => (key, ofValue format item) :: ofFields format rest

end

end Document

end Backtick
