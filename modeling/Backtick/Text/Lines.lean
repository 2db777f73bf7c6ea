import Backtick.Bytes.Basic

/-!
# Lines of input

Input is read line by line. A line ends at a line feed, which is not part of it,
or at the end of the input; a line beyond the limit stops the reading.
-/

namespace Backtick.Text

/-- A line has fewer bytes than this. -/
def lineLimit : Nat := 65536

/-- The lines of a text; what follows the last line feed counts if it is not empty. -/
def lines (text : Bytes) : List Bytes :=
  let all := Bytes.splitOn '\n'.toUInt8 text
  if all.getLast? = some [] then all.dropLast else all

/-- The lines before the first that is too long. -/
def readableLines (text : Bytes) : List Bytes :=
  (lines text).takeWhile fun line => line.length < lineLimit

def isReadable (text : Bytes) : Bool :=
  (lines text).all fun line => line.length < lineLimit

end Backtick.Text
