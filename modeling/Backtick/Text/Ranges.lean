/-!
# Ranges of code points

A class of characters is a list of closed ranges of code points.
-/

namespace Backtick.Text

/-- Closed ranges of code points. -/
abbrev Ranges := List (Nat × Nat)

def Ranges.covers (ranges : Ranges) (n : Nat) : Bool :=
  ranges.any fun (first, last) => first ≤ n && n ≤ last

end Backtick.Text
