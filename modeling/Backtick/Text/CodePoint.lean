import Backtick.Bytes.Basic

/-!
# Code points in figures

Characters that a text gives by their code in some base.
-/

namespace Backtick.Text

/-- The value of a digit in a base up to sixteen. -/
def digit? (base : Nat) (c : Char) : Option Nat :=
  let n := c.toNat
  let value : Option Nat :=
    if c.isDigit then some (n - '0'.toNat)
    else if 'a'.toNat ≤ n && n ≤ 'f'.toNat then some (n - 'a'.toNat + 10)
    else if 'A'.toNat ≤ n && n ≤ 'F'.toNat then some (n - 'A'.toNat + 10)
    else none
  value.filter (· < base)

/-- Exactly `count` digits and their value. -/
def digits? (base : Nat) : Nat -> Nat -> List Char -> Option (Nat × List Char)
  | 0, acc, cs => some (acc, cs)
  | _ + 1, _, [] => none
  | count + 1, acc, c :: cs =>
      match digit? base c with
      | none => none
      | some d => digits? base count (acc * base + d) cs

/-- The character with a code; a code that is no character gives the replacement character. -/
def charBytes (code : Nat) : Bytes :=
  String.utf8EncodeChar (if code.isValidChar then Char.ofNat code else Char.ofNat 0xFFFD)

end Backtick.Text
