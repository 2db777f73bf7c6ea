import Backtick.Session.Signature
import Backtick.Text.Fuzzy
import Backtick.Text.Styled

/-!
# The bar of candidates

The candidates on one line, with an ellipsis for those that do not fit.
-/

namespace Backtick.Bar

def separator : Bytes := "  "

/-- What stands for candidates that are left out. -/
def ellipsis : Bytes := "..."

/-- A candidate as it is shown: words that take arguments are followed by parentheses. -/
def shown (name : Bytes) : Bytes :=
  let letters := (Utf8.chars name).flatMap fun c => Text.styled (String.utf8EncodeChar c)
  if (parameters? name).isSome then letters ++ "()" else letters

/-- The number of cells of the widest line. -/
def width (text : Bytes) : Nat :=
  ((Bytes.splitOn '\n'.toUInt8 text).map Text.terminalCells).foldl max 0

/-- The candidates that follow others, which used some cells of the room. -/
def more (room used : Nat) : List Bytes -> Bytes
  | [] => []
  | name :: rest =>
      let entry := shown name
      let used := used + width entry + width separator
      if room < used + width ellipsis && !rest.isEmpty then
        separator ++ ellipsis
      else
        separator ++ entry ++ more room used rest

/-- The bar of candidates in a room of some cells. The first candidate is always shown. -/
def render (room : Int) : List Bytes -> Bytes
  | [] => []
  | name :: rest =>
      if room ≤ 0 then [] else shown name ++ more room.toNat (width (shown name)) rest

end Backtick.Bar
