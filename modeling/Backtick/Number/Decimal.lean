import Backtick.Bytes.Basic
import Backtick.Number.Binary64

/-!
# Decimal digits of a binary number

The decimal written for a binary number has the fewest digits that read back as
that number, and of those the nearest. `Decimal.shortest` finds it by trying one
digit, two digits and so on; each candidate is read back before it is taken.
-/

namespace Backtick

/-- The number `significand * 10^exponent`. -/
structure Decimal where
  significand : Nat
  exponent : Int
deriving DecidableEq, Repr

namespace Decimal

/-- The decimal as a quotient of two unit counts. -/
def ratio (d : Decimal) : Nat × Nat :=
  (d.significand * Nat.pow 10 d.exponent.toNat * Binary64.oneUnits,
    Nat.pow 10 (-d.exponent).toNat)

/-- The units of the number of a format that is nearest to a decimal. -/
def read (p : Precision) (d : Decimal) : Nat :=
  p.round d.ratio.1 d.ratio.2

/-- The same number without zeros at the end of its significand. -/
def strip (d : Decimal) : Decimal :=
  go d.significand d.significand d.exponent
where
  /-- Drops a zero digit as long as one is left to drop. -/
  go : Nat -> Nat -> Int -> Decimal
    | 0, n, e => ⟨n, e⟩
    | fuel + 1, n, e =>
        if n ≠ 0 ∧ n % 10 = 0 then go fuel (n / 10) (e + 1) else ⟨n, e⟩

/-- The exact decimal value of a unit count. -/
def exact (units : Nat) : Decimal :=
  ⟨units * Nat.pow 5 Binary64.unitExponent, -Binary64.unitExponent⟩

/-- The least `k` such that the units lie below `10^k`, found near its binary logarithm. -/
def scale (units : Nat) : Int :=
  let guess := ((units.log2 : Int) - 1074) * 30103 / 100000
  let below (k : Int) : Bool :=
    let bound := ratio ⟨1, k⟩
    units * bound.2 < bound.1
  ([guess - 1, guess, guess + 1].find? below).getD (guess + 2)

/-- The decimals next to `units` on the grid `10^exponent`, below and above. -/
def neighbours (units : Nat) (exponent : Int) : Decimal × Decimal :=
  let grid := ratio ⟨1, exponent⟩
  let low := units * grid.2 / grid.1
  (⟨low, exponent⟩, ⟨low + 1, exponent⟩)

/-- Whether the lower of two neighbours is the one to take: it is nearer, or as near and even. -/
def prefersLow (units : Nat) (low high : Decimal) : Bool :=
  let twice := 2 * units * low.ratio.2
  let sum := low.ratio.1 + high.ratio.1
  twice < sum || (twice == sum && low.significand % 2 == 0)

/-- The two neighbours on a grid, the one to take first. -/
def candidates (units : Nat) (exponent : Int) : List Decimal :=
  let (low, high) := neighbours units exponent
  if prefersLow units low high then [low, high] else [high, low]

/-- The decimal on one grid that reads back as `units`. -/
def onGrid? (p : Precision) (units : Nat) (exponent : Int) : Option Decimal :=
  (candidates units exponent).find? fun d => d.read p == units

/--
The shortest decimal that reads back as a positive number of the format; the
exact value should none of at most seventeen digits do.
-/
def shortest (p : Precision) (units : Nat) : Decimal :=
  let top := scale units
  let found := (List.range 17).findSome? fun (i : Nat) => onGrid? p units (top - Int.ofNat i - 1)
  (found.getD (exact units)).strip

def digits (d : Decimal) : Bytes :=
  Bytes.ofNat d.significand

/-- The exponent of the first digit. -/
def leading (d : Decimal) : Int :=
  d.exponent + (d.digits.length : Int) - 1

end Decimal

end Backtick
