import Backtick.Number.Decimal

/-!
# Reading numerals

The texts that denote numbers: decimal numerals with an optional exponent,
hexadecimal numerals with a binary exponent, infinity and not-a-number. An
underscore may stand between two digits or after the prefix `0x`.
-/

namespace Backtick

/-- Why a text is not a number of the format. -/
inductive NumeralFault
  | malformed
  | outOfRange (nearest : Binary64)
deriving DecidableEq

namespace Numeral

/-- The digits of a numeral as they are collected from the left. -/
structure Digits where
  /-- The value of all digits, the point ignored. -/
  value : Nat
  /-- Number of digits behind the point. -/
  places : Nat
  seenPoint : Bool
  seenDigit : Bool

def digit? (hex : Bool) (b : UInt8) : Option Nat :=
  if hex then
    Bytes.hexDigit? b
  else if Bytes.isDigit b then
    some (b.toNat - '0'.toNat)
  else
    none

/-- Collects digits, underscores and at most one point; gives the digits and the rest. -/
def digits (hex : Bool) (acc : Digits) : Bytes -> Digits × Bytes
  | [] => (acc, [])
  | b :: rest =>
      if b = '_'.toUInt8 then
        digits hex acc rest
      else if b = '.'.toUInt8 then
        if acc.seenPoint then
          (acc, b :: rest)
        else
          digits hex { acc with seenPoint := true } rest
      else
        match digit? hex b with
        | none => (acc, b :: rest)
        | some d =>
            digits hex
              { acc with
                value := acc.value * (if hex then 16 else 10) + d
                places := if acc.seenPoint then acc.places + 1 else acc.places
                seenDigit := true }
              rest

/-- The value of an exponent's digits; it stops growing once it has reached ten thousand. -/
def exponentDigits (acc : Nat) : Bytes -> Nat × Bytes
  | [] => (acc, [])
  | b :: rest =>
      if b = '_'.toUInt8 then
        exponentDigits acc rest
      else if Bytes.isDigit b then
        exponentDigits (if acc < 10000 then acc * 10 + (b.toNat - '0'.toNat) else acc) rest
      else
        (acc, b :: rest)

/-- An exponent behind its mark: a sign and at least one digit. -/
def exponent? (text : Bytes) : Option (Int × Bytes) :=
  let (negative, body) : Bool × Bytes :=
    match text with
    | b :: rest =>
        if b = '+'.toUInt8 then (false, rest)
        else if b = '-'.toUInt8 then (true, rest)
        else (false, text)
    | [] => (false, [])
  match body with
  | b :: _ =>
      if Bytes.isDigit b then
        let (n, rest) := exponentDigits 0 body
        some (if negative then -(n : Int) else n, rest)
      else
        none
  | [] => none

/-- What stood before a position, as far as underscores are concerned. -/
inductive Before
  | start
  | digit
  | underscore
  | other
deriving DecidableEq

/-- Whether every underscore stands between digits. -/
def underscoresOk (hex : Bool) : Before -> Bytes -> Bool
  | before, [] => before ≠ .underscore
  | before, b :: rest =>
      if (digit? hex b).isSome then
        underscoresOk hex .digit rest
      else if b = '_'.toUInt8 then
        before = .digit && underscoresOk hex .underscore rest
      else
        before ≠ .underscore && underscoresOk hex .other rest

def sign (text : Bytes) : Bool × Bytes :=
  match text with
  | b :: rest =>
      if b = '-'.toUInt8 then (true, rest)
      else if b = '+'.toUInt8 then (false, rest)
      else (false, text)
  | [] => (false, [])

/-- Whether a numeral starts with `0x` and something behind it. -/
def hasHexPrefix (body : Bytes) : Bool :=
  match body with
  | z :: x :: _ :: _ => z = '0'.toUInt8 && Bytes.toLowerByte x = 'x'.toUInt8
  | _ => false

/-- The number of a format with so many units, or a range error when it is too large. -/
def finish (p : Precision) (negative : Bool) (units : Nat) : Except NumeralFault Binary64 :=
  if units < Nat.pow 2 p.limit then
    .ok (Binary64.ofUnits negative units)
  else
    .error (.outOfRange (.infinite negative))

/--
The number nearest to `value * 10^exponent`. Exponents far outside the format
are settled without computing the power.
-/
def ofDecimal (p : Precision) (negative : Bool) (d : Decimal) : Except NumeralFault Binary64 :=
  let top := (d.digits.length : Int) + d.exponent
  if d.significand = 0 || top < -330 then
    finish p negative 0
  else if 310 < top then
    .error (.outOfRange (.infinite negative))
  else
    finish p negative (d.read p)

/-- The number nearest to `value * 2^exponent`. -/
def ofBinary (p : Precision) (negative : Bool) (value : Nat) (exponent : Int) :
    Except NumeralFault Binary64 :=
  let top := (value.log2 : Int) + exponent
  if value = 0 || top < -1100 then
    finish p negative 0
  else if 1024 < top then
    .error (.outOfRange (.infinite negative))
  else
    finish p negative
      (p.round (value * Nat.pow 2 exponent.toNat * Binary64.oneUnits)
        (Nat.pow 2 (-exponent).toNat))

def readDigits (p : Precision) (negative : Bool) (body : Bytes) : Except NumeralFault Binary64 :=
  let hex := hasHexPrefix body
  let figures := if hex then body.drop 2 else body
  let (found, rest) := digits hex ⟨0, 0, false, false⟩ figures
  let mark := if hex then 'p'.toUInt8 else 'e'.toUInt8
  let underscores :=
    underscoresOk hex (if hex then .digit else .start) figures ||
      !body.contains '_'.toUInt8
  if !found.seenDigit then
    .error .malformed
  else
    match rest with
    | [] =>
        if hex || !underscores then
          .error .malformed
        else
          ofDecimal p negative ⟨found.value, -(found.places : Int)⟩
    | b :: more =>
        if Bytes.toLowerByte b = mark then
          match exponent? more with
          | some (e, []) =>
              if !underscores then
                .error .malformed
              else if hex then
                ofBinary p negative found.value (e - 4 * (found.places : Int))
              else
                ofDecimal p negative ⟨found.value, e - (found.places : Int)⟩
          | _ => .error .malformed
        else
          .error .malformed

/-- Whether a text is one of the words, in any case. -/
def isWord (text : Bytes) (words : List Bytes) : Bool :=
  words.contains (text.map Bytes.toLowerByte)

/-- Reads a whole text as a number of a format. -/
def readAs (p : Precision) (text : Bytes) : Except NumeralFault Binary64 :=
  let (negative, body) := sign text
  if isWord body ["inf", "infinity"] then
    .ok (.infinite negative)
  else if isWord text ["nan"] then
    .ok .nan
  else
    readDigits p negative body

/-- The binary64 number a whole text denotes. -/
def read? (text : Bytes) : Option Binary64 :=
  (readAs .double text).toOption

end Numeral

end Backtick
