import Backtick.Number.Binary64

/-!
# Arithmetic of binary numbers

Each operation is the exact result rounded once. A zero result is negative only
if both summands are, or if exactly one factor is.
-/

namespace Backtick.Binary64

def add : Binary64 -> Binary64 -> Binary64
  | .nan, _ => .nan
  | _, .nan => .nan
  | .infinite a, .infinite b => if a = b then .infinite a else .nan
  | .infinite a, .finite .. => .infinite a
  | .finite .., .infinite b => .infinite b
  | .finite a m _, .finite b n _ =>
      let sum := signed a m + signed b n
      if sum = 0 then
        ofUnits (a && b) 0
      else
        ofRatio (decide (sum < 0)) sum.natAbs 1

def sub (x y : Binary64) : Binary64 :=
  add x y.neg

def mul : Binary64 -> Binary64 -> Binary64
  | .nan, _ => .nan
  | _, .nan => .nan
  | .infinite a, .infinite b => .infinite (a != b)
  | .infinite a, .finite b n _ => if n = 0 then .nan else .infinite (a != b)
  | .finite a m _, .infinite b => if m = 0 then .nan else .infinite (a != b)
  | .finite a m _, .finite b n _ => ofRatio (a != b) (m * n) oneUnits

/-- The quotient; a finite number over zero is infinite. -/
def div : Binary64 -> Binary64 -> Binary64
  | .nan, _ => .nan
  | _, .nan => .nan
  | .infinite _, .infinite _ => .nan
  | .infinite a, .finite b _ _ => .infinite (a != b)
  | .finite a _ _, .infinite b => ofUnits (a != b) 0
  | .finite a m _, .finite b n _ =>
      if n = 0 then
        if m = 0 then .nan else .infinite (a != b)
      else
        ofRatio (a != b) (m * oneUnits) n

end Backtick.Binary64
