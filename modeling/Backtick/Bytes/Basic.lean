/-!
# Byte strings

Templates, names and messages are byte strings: every column of the library is
a byte offset, and a byte string need not be valid UTF-8. Literals are written
as strings and coerced.
-/

namespace Backtick

abbrev Bytes := List UInt8

namespace Bytes

def ofString (s : String) : Bytes :=
  s.toUTF8.data.toList

instance : Coe String Bytes := ⟨ofString⟩

def ofNat (n : Nat) : Bytes :=
  (Nat.toDigits 10 n).map Char.toUInt8

/-- An integer in decimal, with a leading minus sign when it is negative. -/
def ofInt : Int -> Bytes
  | .ofNat n => ofNat n
  | .negSucc n => '-'.toUInt8 :: ofNat (n + 1)

/-- Lower-case hexadecimal digits, padded on the left with zeros to `width`. -/
def ofHex (width n : Nat) : Bytes :=
  let digits := (Nat.toDigits 16 n).map Char.toUInt8
  List.replicate (width - digits.length) '0'.toUInt8 ++ digits

def blanks (n : Nat) : Bytes :=
  List.replicate n ' '.toUInt8

def join (sep : Bytes) : List Bytes -> Bytes
  | [] => []
  | [part] => part
  | part :: rest => part ++ sep ++ join sep rest

/-- The pieces between the occurrences of one byte; always at least one piece. -/
def splitOn (sep : UInt8) : Bytes -> List Bytes
  | [] => [[]]
  | b :: rest =>
      if b = sep then
        [] :: splitOn sep rest
      else
        match splitOn sep rest with
        | [] => [[b]]
        | piece :: pieces => (b :: piece) :: pieces

/-- The parts before and after the first occurrence of a byte. -/
def cut? (sep : UInt8) : Bytes -> Option (Bytes × Bytes)
  | [] => none
  | b :: rest =>
      if b = sep then
        some ([], rest)
      else
        (cut? sep rest).map fun (before, after) => (b :: before, after)

/-- The first occurrence of `part` in a byte string. -/
def find? (part : Bytes) : Bytes -> Option Nat
  | [] => if part.isEmpty then some 0 else none
  | b :: rest =>
      if part.isPrefixOf (b :: rest) then
        some 0
      else
        (find? part rest).map (· + 1)

def includes (text part : Bytes) : Bool :=
  (find? part text).isSome

/-- The text without `start` in front, if it begins with it. -/
def dropStart? (start text : Bytes) : Option Bytes :=
  if start.isPrefixOf text then some (text.drop start.length) else none

def dropEnd? (ending text : Bytes) : Option Bytes :=
  if ending.isSuffixOf text then some (text.take (text.length - ending.length)) else none

/-- ASCII letters. -/
def isLetter (b : UInt8) : Bool :=
  ('a'.toUInt8 ≤ b && b ≤ 'z'.toUInt8) || ('A'.toUInt8 ≤ b && b ≤ 'Z'.toUInt8)

/-- ASCII digits. -/
def isDigit (b : UInt8) : Bool :=
  '0'.toUInt8 ≤ b && b ≤ '9'.toUInt8

def hexDigit? (b : UInt8) : Option Nat :=
  if isDigit b then
    some (b.toNat - '0'.toNat)
  else if 'a'.toUInt8 ≤ b && b ≤ 'f'.toUInt8 then
    some (b.toNat - 'a'.toNat + 10)
  else if 'A'.toUInt8 ≤ b && b ≤ 'F'.toUInt8 then
    some (b.toNat - 'A'.toNat + 10)
  else
    none

/-- The lower-case form of an ASCII letter; any other byte is unchanged. -/
def toLowerByte (b : UInt8) : UInt8 :=
  if 'A'.toUInt8 ≤ b && b ≤ 'Z'.toUInt8 then b + 32 else b

def toUpperByte (b : UInt8) : UInt8 :=
  if 'a'.toUInt8 ≤ b && b ≤ 'z'.toUInt8 then b - 32 else b

def digitsValue (digits : Bytes) : Nat :=
  digits.foldl (fun acc b => acc * 10 + (b.toNat - '0'.toNat)) 0

def order : Bytes -> Bytes -> Ordering
  | [], [] => .eq
  | [], _ :: _ => .lt
  | _ :: _, [] => .gt
  | a :: as, b :: bs =>
      if a < b then .lt else if b < a then .gt else order as bs

/-- The byte strings in lexicographic order, equal ones kept. -/
def sort (items : List Bytes) : List Bytes :=
  items.mergeSort fun a b => order a b != .gt

end Bytes

end Backtick
