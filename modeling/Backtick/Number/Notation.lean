import Backtick.Number.Decimal

/-!
# Written numbers

A number is written positionally or with an exponent. A `Notation` says for
which exponents of the first digit the positional form is used and how many
digits a negative and a positive exponent have at least.
-/

namespace Backtick

structure Notation where
  /-- Least exponent of the first digit that is written positionally. -/
  lowest : Option Int
  /-- First exponent that is no longer written positionally. -/
  highest : Option Int
  /-- Least number of digits of a negative exponent. -/
  lowWidth : Nat
  /-- Least number of digits of a non-negative exponent. -/
  highWidth : Nat

namespace Notation

/-- Never an exponent. -/
def positional : Notation := ⟨none, none, 2, 2⟩

/-- An exponent below 10^-4 and from 10^6 on. -/
def general : Notation := ⟨some (-4), some 6, 2, 2⟩

/-- The digits with a point after the place of units; zeros fill the gap to the point. -/
def placed (d : Decimal) : Bytes :=
  let digits := d.digits
  let lead := d.leading
  if lead < 0 then
    "0." ++ List.replicate (-lead - 1).toNat '0'.toUInt8 ++ digits
  else if 0 ≤ d.exponent then
    digits ++ List.replicate d.exponent.toNat '0'.toUInt8
  else
    digits.take (lead.toNat + 1) ++ "." ++ digits.drop (lead.toNat + 1)

/-- One digit, the others after a point, and the exponent with its sign. -/
def scientific (lowWidth highWidth : Nat) (d : Decimal) : Bytes :=
  let digits := d.digits
  let lead := d.leading
  let fraction : Bytes := if digits.length ≤ 1 then [] else "." ++ digits.drop 1
  let size := Bytes.ofNat lead.natAbs
  let width := if lead < 0 then lowWidth else highWidth
  let mark : Bytes := if lead < 0 then "e-" else "e+"
  digits.take 1 ++ fraction ++ mark ++ List.replicate (width - size.length) '0'.toUInt8 ++ size

def layout (n : Notation) (d : Decimal) : Bytes :=
  let lead := d.leading
  if (n.lowest.all fun least => least ≤ lead) && (n.highest.all fun limit => lead < limit) then
    placed d
  else
    scientific n.lowWidth n.highWidth d

/-- A number of the given precision, with the fewest digits that read back. -/
def write (n : Notation) (p : Precision) : Binary64 -> Bytes
  | .nan => "NaN"
  | .infinite negative => if negative then "-Inf" else "+Inf"
  | .finite negative units _ =>
      let sign : Bytes := if negative then "-" else []
      let size : Bytes := if units = 0 then "0" else n.layout (Decimal.shortest p units)
      sign ++ size

end Notation

end Backtick
