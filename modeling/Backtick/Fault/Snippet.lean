import Backtick.Fault.Basic

/-!
# Snippets

The line of a template that holds the column of a fault, with a caret below the
byte at that column.
-/

namespace Backtick

namespace Snippet

def isLineFeed (b : UInt8) : Bool :=
  b = '\n'.toUInt8

/-- The part of a text behind its last line feed. -/
def lastLine (text : Bytes) : Bytes :=
  (text.reverse.takeWhile fun b => !isLineFeed b).reverse

/-- The part of a text before its first line feed. -/
def firstLine (text : Bytes) : Bytes :=
  text.takeWhile fun b => !isLineFeed b

/-- The line around an offset and a caret below the offset. -/
def around (template : Bytes) (offset : Nat) : Bytes :=
  let before := lastLine (template.take offset)
  "  | " ++ before ++ firstLine (template.drop offset) ++ "\n  | " ++
    Bytes.blanks before.length ++ "^\n"

end Snippet

/-- The snippet of a fault; empty if it has no column inside the template. -/
def Fault.snippet (template : Bytes) (f : Fault) : Bytes :=
  let column := f.column
  if column ≤ 0 || (template.length : Int) < column then
    []
  else
    Snippet.around template column.toNat

end Backtick
