import Backtick.Text.Terminal
import Backtick.Value.Text

/-!
# Previews of values

A value on one line: its text, shortened to a number of cells, and its type.
-/

namespace Backtick

namespace Preview

/-- The number of cells for the text of a value. -/
def room : Nat := 40

/-- What is left of the parts of a text behind a cut: control sequences. -/
def behindCut (parts : List Text.Glyph) : Bytes :=
  (parts.filter fun g => g.cells.isNone && !g.isControl).flatMap Text.Glyph.bytes

/-- The longest beginning that fits in a number of cells, an ellipsis, and the control
sequences behind it. -/
def cut (room : Nat) : List Text.Glyph -> Bytes
  | [] => "..."
  | g :: rest =>
      match g.cells with
      | none => g.bytes ++ cut room rest
      | some cells =>
          if room < cells then "..." ++ behindCut rest else g.bytes ++ cut (room - cells) rest

/-- The text itself if it fits, and else a beginning of it with an ellipsis. -/
def shorten (room : Nat) (text : Bytes) : Bytes :=
  let parts := Text.glyphs text
  if Text.glyphCells parts ≤ room then text else cut (room - 3) parts

end Preview

def Value.preview (v : Value) : Bytes :=
  match v with
  | .null => "(nil)"
  | v => Preview.shorten Preview.room v.text ++ " (" ++ v.typeName ++ ")"

end Backtick
