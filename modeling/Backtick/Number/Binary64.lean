/-!
# Binary floating-point numbers

Every finite number of the binary64 format is a whole multiple of the smallest
positive one, 2^-1074. A finite number is therefore a sign and a count of these
units, the order of numbers is the order of integers, and rounding is exact
arithmetic on naturals.
-/

namespace Backtick

/--
A binary format: the number of significant bits, the exponent of its smallest
positive number and the exponent of its first number too large, both counted
from the unit 2^-1074.
-/
structure Precision where
  bits : Nat
  least : Nat
  limit : Nat

namespace Precision

/-- The 64-bit format. -/
def double : Precision := ⟨53, 0, 2098⟩

/-- The 32-bit format. -/
def single : Precision := ⟨24, 925, 1202⟩

/-- The exponent of the grid on which numbers of the size of `units` lie. -/
def gridExponent (p : Precision) (units : Nat) : Nat :=
  max p.least (units.log2 + 1 - p.bits)

/-- The quotient rounded to the nearest natural, a tie going to the even one. -/
def roundQuotient (num den : Nat) : Nat :=
  let low := num / den
  let twice := 2 * (num % den)
  if twice < den || (twice == den && low % 2 == 0) then low else low + 1

/--
The units of the number of the format that is nearest to `num / den` units. The
result may reach the format's limit.
-/
def round (p : Precision) (num den : Nat) : Nat :=
  let grid := Nat.pow 2 (p.gridExponent (num / den))
  roundQuotient num (den * grid) * grid

end Precision

/-- Whether a count of units is a finite binary64 number: it fits and lies on its grid. -/
def IsBinary64 (units : Nat) : Prop :=
  units < Nat.pow 2 Precision.double.limit ∧
    units % Nat.pow 2 (Precision.double.gridExponent units) = 0

instance (units : Nat) : Decidable (IsBinary64 units) :=
  inferInstanceAs (Decidable (_ ∧ _))

/-- A binary64 number. Zero has a sign. -/
inductive Binary64
  | nan
  | infinite (negative : Bool)
  | finite (negative : Bool) (units : Nat) (exact : IsBinary64 units)
deriving DecidableEq

namespace Binary64

/-- The finite number of so many units, or infinity when there is none. -/
def ofUnits (negative : Bool) (units : Nat) : Binary64 :=
  if h : IsBinary64 units then .finite negative units h else .infinite negative

/-- The number nearest to `num / den` units. -/
def ofRatio (negative : Bool) (num den : Nat) : Binary64 :=
  ofUnits negative (Precision.double.round num den)

/-- The unit is one half to this power. -/
def unitExponent : Nat := 1074

def oneUnits : Nat := Nat.pow 2 unitExponent

def ofInt (n : Int) : Binary64 :=
  ofRatio (decide (n < 0)) (n.natAbs * oneUnits) 1

def zero : Binary64 := ofUnits false 0

def one : Binary64 := ofUnits false oneUnits

def isNaN : Binary64 -> Bool
  | .nan => true
  | _ => false

def isFinite : Binary64 -> Bool
  | .finite .. => true
  | _ => false

/-- Whether a number is zero of either sign. -/
def isZero : Binary64 -> Bool
  | .finite _ units _ => units == 0
  | _ => false

def neg : Binary64 -> Binary64
  | .nan => .nan
  | .infinite negative => .infinite !negative
  | .finite negative units h => .finite (!negative) units h

/--
The place of a number on the line. The infinities stand outside all finite
numbers, and a non-number has no place.
-/
def place? : Binary64 -> Option Int
  | .nan => none
  | .infinite negative => some (if negative then -(Nat.pow 2 2098 : Int) else Nat.pow 2 2098)
  | .finite negative units _ => some (if negative then -(units : Int) else units)

/-- The order of two numbers; none if one of them is not a number. -/
def order? (x y : Binary64) : Option Ordering := do
  return compare (← x.place?) (← y.place?)

/-- Numeric equality: the zeros are equal, and a non-number equals nothing. -/
def equal (x y : Binary64) : Bool :=
  order? x y == some .eq

def less (x y : Binary64) : Bool :=
  order? x y == some .lt

def signed (negative : Bool) (units : Nat) : Int :=
  if negative then -(units : Int) else units

end Binary64

end Backtick
