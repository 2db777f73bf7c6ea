import Backtick.Text.Terminal

/-!
# Styled text

Text set in a style of the terminal: a tab becomes four spaces, a carriage
return before a line feed is dropped, and the lines of a text of several lines
are padded with spaces to the widest of them.
-/

namespace Backtick.Text

/-- The text with four spaces for each tab. -/
def expandTabs (text : Bytes) : Bytes :=
  text.flatMap fun b => if b = '\t'.toUInt8 then Bytes.blanks 4 else [b]

/-- The text without carriage returns before line feeds. -/
def dropReturns : Bytes -> Bytes
  | [] => []
  | a :: rest =>
      if a = '\r'.toUInt8 && rest.head? = some '\n'.toUInt8 then
        dropReturns rest
      else
        a :: dropReturns rest

/-- The lines padded to the widest; a text of one line is unchanged. -/
def padLines (text : Bytes) : Bytes :=
  let lines := Bytes.splitOn '\n'.toUInt8 text
  let widest := (lines.map terminalCells).foldl max 0
  Bytes.join "\n" (lines.map fun line => line ++ Bytes.blanks (widest - terminalCells line))

def styled (text : Bytes) : Bytes :=
  padLines (dropReturns (expandTabs text))

end Backtick.Text
