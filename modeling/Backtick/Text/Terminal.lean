import Backtick.Text.Cluster

/-!
# Text on a terminal

A terminal shows the clusters of a text and takes control sequences for itself.
`glyphs` divides a text into parts with the cells that each of them occupies, and
`terminalCells` is the number of cells that the whole text occupies.
-/

namespace Backtick.Text

/-- Where a terminal stands in a control sequence. -/
inductive Phase
  | text
  | escape
  | escapeRest
  | control
  | controlArgs
  | controlRest
  | device
  | deviceArgs
  | deviceRest
  | deviceText
  | command
  | aside
deriving DecidableEq, Repr

inductive Effect
  | print
  | execute
  | consume
deriving DecidableEq, Repr

namespace Phase

/-- Whether what follows is text that the terminal keeps for itself. -/
def isHidden : Phase -> Bool
  | .deviceText | .command | .aside => true
  | _ => false

/-- The step that a byte takes wherever the terminal stands, if it does. -/
def anywhere? (b : UInt8) : Option (Phase × Effect) :=
  if b = 0x18 || b = 0x1A then some (.text, .execute)
  else if b = 0x1B then some (.escape, .consume)
  else if b = 0x90 then some (.device, .consume)
  else if b = 0x98 || b = 0x9E || b = 0x9F then some (.aside, .consume)
  else if b = 0x9B then some (.control, .consume)
  else if b = 0x9D then some (.command, .consume)
  else if 0x80 ≤ b && b ≤ 0x9F then some (.text, .execute)
  else none

def afterEscape (b : UInt8) : Phase × Effect :=
  if b < 0x20 then (.escape, .execute)
  else if b < 0x30 then (.escapeRest, .consume)
  else if b = 'P'.toUInt8 then (.device, .consume)
  else if b = '['.toUInt8 then (.control, .consume)
  else if b = ']'.toUInt8 then (.command, .consume)
  else if b = 'X'.toUInt8 || b = '^'.toUInt8 || b = '_'.toUInt8 then (.aside, .consume)
  else if b = 0x7F then (.escape, .consume)
  else (.text, .consume)

/-- The step inside the marks and numbers of a control sequence. -/
def insideControl (phase : Phase) (b : UInt8) : Phase × Effect :=
  if b < 0x20 then (phase, .execute)
  else if b < 0x30 then (.controlRest, .consume)
  else if b < 0x40 then (if phase = .controlRest then .text else .controlArgs, .consume)
  else if b = 0x7F then (phase, .consume)
  else (.text, .consume)

/-- The step inside the marks and numbers of a device command. -/
def insideDevice (phase : Phase) (b : UInt8) : Phase × Effect :=
  if b < 0x20 then (phase, .consume)
  else if b < 0x30 then (.deviceRest, .consume)
  else if b < 0x40 then (if phase = .deviceRest then .text else .deviceArgs, .consume)
  else if b = 0x7F then (phase, .consume)
  else (.deviceText, .consume)

/-- The step inside a text that the terminal keeps for itself. -/
def insideHidden (phase : Phase) (b : UInt8) : Phase × Effect :=
  if b = 0x1B then (.escape, .consume)
  else if b = 0x9C || b = 0x18 || b = 0x1A then (.text, .consume)
  else if b = 0x07 && phase = .command then (.text, .consume)
  else (phase, .consume)

def step (phase : Phase) (b : UInt8) : Phase × Effect :=
  if phase.isHidden then
    phase.insideHidden b
  else
    match anywhere? b with
    | some taken => taken
    | none =>
        if 0x80 ≤ b then
          (.text, .consume)
        else
          match phase with
          | .escape => afterEscape b
          | .escapeRest =>
              if b < 0x20 then (.escapeRest, .execute)
              else if b < 0x30 || b = 0x7F then (.escapeRest, .consume)
              else (.text, .consume)
          | .control | .controlArgs | .controlRest => phase.insideControl b
          | .device | .deviceArgs | .deviceRest => phase.insideDevice b
          | _ => (.text, if b < 0x20 || b = 0x7F then .execute else .print)

end Phase

/-- A part of a text that a terminal takes as one. -/
structure Glyph where
  bytes : Bytes
  /-- The cells that it occupies, or none if nothing is shown for it. -/
  cells : Option Nat
  /-- It is a control character, and no part of a control sequence. -/
  isControl : Bool

/-- A byte that is no part of a character beyond ASCII. -/
def byteGlyph (b : UInt8) : Effect -> Glyph
  | .print => ⟨[b], some 1, false⟩
  | .execute => ⟨[b], none, true⟩
  | .consume => ⟨[b], none, false⟩

/-- Whether a byte is one that a character of several bytes can begin with. -/
def isLead (b : UInt8) : Bool :=
  0xC2 ≤ b && b ≤ 0xF4

def glyphsFrom (phase : Phase) (pieces : List Utf8.Piece) : List Glyph :=
  match pieces with
  | [] => []
  | .stray b :: rest =>
      if isLead b && !phase.isHidden then
        ⟨[b], some 1, false⟩ :: glyphsFrom .text rest
      else
        let (next, effect) := phase.step b
        byteGlyph b effect :: glyphsFrom next rest
  | .char c :: rest =>
      let own := String.utf8EncodeChar c
      if c.toNat < 0x80 then
        let (next, effect) := phase.step c.toUInt8
        byteGlyph c.toUInt8 effect :: glyphsFrom next rest
      else if phase.isHidden then
        let next := own.foldl (fun p b => (Phase.step p b).1) phase
        ⟨own, none, false⟩ :: glyphsFrom next rest
      else
        let n := attached (Seam.start c) rest
        ⟨own ++ Utf8.join (rest.take n), some (clusterCells c rest), false⟩ ::
          glyphsFrom .text (rest.drop n)
termination_by pieces.length
decreasing_by
  all_goals simp only [List.length_cons, List.length_drop]
  all_goals omega

def glyphs (text : Bytes) : List Glyph :=
  glyphsFrom .text (Utf8.pieces text)

def glyphCells : List Glyph -> Nat
  | [] => 0
  | g :: rest => g.cells.getD 0 + glyphCells rest

def terminalCells (text : Bytes) : Nat :=
  glyphCells (glyphs text)

end Backtick.Text
