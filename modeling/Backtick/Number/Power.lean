import Backtick.Number.Arithmetic

/-!
# Powers

The whole part of an exponent is done by repeated squaring of a significand
between one half and one, with the exponent of two kept apart, so that nothing
overflows on the way. What is left of the exponent goes through the natural
logarithm.
-/

namespace Backtick.Binary64

/-- The positive number nearest to `num / den * 2 ^ shift`. -/
def ofScaled (num den : Nat) (shift : Int) : Binary64 :=
  let scaled := shift + 1074
  if 0 ≤ scaled then ofRatio false (num * Nat.pow 2 scaled.toNat) den
  else ofRatio false num (den * Nat.pow 2 (-scaled).toNat)

def sqrt : Binary64 -> Binary64
  | .nan => .nan
  | .infinite negative => if negative then .nan else .infinite false
  | .finite negative units h =>
      if units = 0 then
        .finite negative units h
      else if negative then
        .nan
      else
        let wide := units * Nat.pow 2 1330
        let root := wide.sqrt
        let sticky := if root * root = wide then 0 else 1
        ofRatio false (2 * root + sticky) (Nat.pow 2 129)

/-- Number of fraction bits of the fixed-point numbers below. -/
def fixedBits : Nat := 192

def fixedOne : Nat := Nat.pow 2 fixedBits

/-- The sum of the odd powers of `s` over their exponents, `n` of them from exponent `k` on. -/
def atanhTail (square : Nat) : Nat -> Nat -> Nat -> Nat
  | 0, _, _ => 0
  | n + 1, k, term => term / k + atanhTail square n (k + 2) (term * square / fixedOne)

/-- Twice the inverse hyperbolic tangent of a small ratio, in fixed point. -/
def twiceAtanh (num den : Nat) : Nat :=
  let s := num * fixedOne / den
  2 * atanhTail (s * s / fixedOne) 80 1 s

def logTwo : Nat := twiceAtanh 1 3

/-- The natural logarithm of a positive count of units over one, in fixed point. -/
def fixedLog (units : Nat) : Int :=
  let top := units.log2
  let base := Nat.pow 2 top
  let whole : Int := (top : Int) - 1074
  whole * logTwo + twiceAtanh (units - base) (units + base)

/-- The terms of the exponential series. -/
def expTail (x : Nat) : Nat -> Nat -> Nat -> Nat
  | 0, _, _ => 0
  | n + 1, k, term => term + expTail x n (k + 1) (term * x / fixedOne / k)

def ofFixed (x : Int) : Binary64 :=
  let size := ofScaled x.natAbs fixedOne 0
  if x < 0 then size.neg else size

/-- A finite number in fixed point, rounded down. -/
def toFixed : Binary64 -> Int
  | .finite negative units _ =>
      let size : Int := units * fixedOne / oneUnits
      if negative then -size else size
  | _ => 0

/-- The natural logarithm of a positive finite number. -/
def log : Binary64 -> Binary64
  | .finite false units _ => ofFixed (fixedLog units)
  | _ => .nan

def exp (x : Binary64) : Binary64 :=
  let wide := toFixed x
  let whole := wide.fdiv logTwo
  let rest := (wide - whole * logTwo).toNat
  ofScaled (expTail rest 80 1 fixedOne) fixedOne whole

/-- A positive finite number as a significand from one half up to one and a power of two. -/
def significand (units : Nat) : Binary64 × Int :=
  let size := units.log2 + 1
  (ofScaled units (Nat.pow 2 size) 0, (size : Int) - 1074)

/-- A number times a power of two, rounded once. -/
def scale (x : Binary64) (shift : Int) : Binary64 :=
  match x with
  | .finite negative units _ =>
      let size := ofScaled units oneUnits shift
      if negative then size.neg else size
  | x => x

/-- Multiplies by the powers that the binary digits of an exponent ask for. -/
def squarings (acc : Binary64) (accShift : Int) :
    Nat -> Nat -> Binary64 -> Int -> Binary64 × Int
  | 0, _, _, _ => (acc, accShift)
  | fuel + 1, n, base, shift =>
      if n = 0 then
        (acc, accShift)
      else if shift < -4096 || 4096 < shift then
        (acc, accShift + shift)
      else
        let (acc', accShift') : Binary64 × Int :=
          if n % 2 = 1 then (acc.mul base, accShift + shift) else (acc, accShift)
        let squared := base.mul base
        if squared.less (ofScaled 1 2 0) then
          squarings acc' accShift' fuel (n / 2) (squared.add squared) (2 * shift - 1)
        else
          squarings acc' accShift' fuel (n / 2) squared (2 * shift)

def wholeness (units : Nat) : Bool × Bool :=
  (units % oneUnits = 0, units / oneUnits % 2 = 1)

def powerOfPositive (baseUnits : Nat) (negative : Bool) (exponentUnits : Nat) : Binary64 :=
  let fraction := exponentUnits % oneUnits
  let up : Bool := oneUnits < 2 * fraction
  let whole := exponentUnits / oneUnits + if up then 1 else 0
  let rest := ofRatio false (if up then oneUnits - fraction else fraction) 1
  let rest := if up then rest.neg else rest
  let start :=
    if fraction = 0 then one else exp (rest.mul (log (ofRatio false baseUnits 1)))
  let (base, shift) := significand baseUnits
  let (result, resultShift) := squarings start 0 (whole.log2 + 2) whole base shift
  if negative then scale (one.div result) (-resultShift) else scale result resultShift

def power (x y : Binary64) : Binary64 :=
  if y.isZero || x.equal one then
    one
  else
    match x, y with
    | .nan, _ => .nan
    | _, .nan => .nan
    | .infinite _, .infinite negative =>
        if negative then zero else .infinite false
    | .finite _ units _, .infinite negative =>
        if units = oneUnits then one
        else if decide (units < oneUnits) == negative then .infinite false
        else zero
    | .infinite negativeBase, .finite negative units _ =>
        let odd := (wholeness units).1 && (wholeness units).2
        let sign := negativeBase && odd
        if negative then ofUnits sign 0 else .infinite sign
    | .finite negativeBase base _, .finite negative units _ =>
        let (isWhole, isOdd) := wholeness units
        if base = 0 then
          let sign := negativeBase && isWhole && isOdd
          if negative then .infinite sign else ofUnits sign 0
        else if 2 * units = oneUnits then
          if negative then one.div x.sqrt else x.sqrt
        else if negativeBase then
          if isWhole then
            let size := powerOfPositive base negative units
            if isOdd then size.neg else size
          else
            .nan
        else
          powerOfPositive base negative units

end Backtick.Binary64
