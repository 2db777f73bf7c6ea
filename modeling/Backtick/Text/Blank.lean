import Backtick.Bytes.Utf8
import Backtick.Text.Ranges

/-!
# White space

The characters with the Unicode property White_Space, and the removal of them
from both ends of a text.
-/

namespace Backtick.Text

/-- The white-space characters. -/
def blankRanges : Ranges :=
  [ (0x09, 0x0D), (0x20, 0x20), (0x85, 0x85), (0xA0, 0xA0), (0x1680, 0x1680),
    (0x2000, 0x200A), (0x2028, 0x2029), (0x202F, 0x202F), (0x205F, 0x205F),
    (0x3000, 0x3000) ]

def isBlank (c : Char) : Bool :=
  blankRanges.covers c.toNat

/-- Whether a piece of a byte string is a white-space character. -/
def isBlankPiece : Utf8.Piece -> Bool
  | .char c => isBlank c
  | .stray _ => false

def trimLeft (text : Bytes) : Bytes :=
  Utf8.join ((Utf8.pieces text).dropWhile isBlankPiece)

def trimRight (text : Bytes) : Bytes :=
  Utf8.join (((Utf8.pieces text).reverse.dropWhile isBlankPiece).reverse)

def trim (text : Bytes) : Bytes :=
  trimRight (trimLeft text)

/-- The runs of pieces between white space; a run may be empty. -/
def splitBlank : List Utf8.Piece -> List (List Utf8.Piece)
  | [] => [[]]
  | p :: rest =>
      if isBlankPiece p then
        [] :: splitBlank rest
      else
        match splitBlank rest with
        | [] => [[p]]
        | run :: runs => (p :: run) :: runs

/-- The words of a text: its longest parts without white space. -/
def words (text : Bytes) : List Bytes :=
  ((splitBlank (Utf8.pieces text)).filter fun run => !run.isEmpty).map Utf8.join

end Backtick.Text
