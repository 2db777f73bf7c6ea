import Backtick.Bytes.Basic

/-!
# Characters of a byte string

A byte string is read from the left as UTF-8. Where no whole character begins,
one byte is set apart and reading goes on after it, so nothing is lost:
`Utf8.join` puts the pieces together again.
-/

namespace Backtick

namespace Utf8

/-- A whole character, or a byte that begins none. -/
inductive Piece
  | char (c : Char)
  | stray (b : UInt8)
deriving DecidableEq, Repr

namespace Piece

def bytes : Piece -> Bytes
  | .char c => String.utf8EncodeChar c
  | .stray b => [b]

/-- The character a piece shows: a stray byte shows the replacement character. -/
def shown : Piece -> Char
  | .char c => c
  | .stray _ => Char.ofNat 0xFFFD

def width (p : Piece) : Nat :=
  p.bytes.length

end Piece

def isContinuation (b : UInt8) : Bool :=
  0x80 ≤ b && b ≤ 0xBF

def low6 (b : UInt8) : Nat :=
  b.toNat % 64

/--
The character that begins with byte `a`, and how many of the following bytes
belong to it. Overlong forms, surrogates and values beyond U+10FFFF begin none.
-/
def lead? (a : UInt8) (rest : Bytes) : Option (Char × Nat) :=
  if a < 0x80 then
    some (Char.ofNat a.toNat, 0)
  else if 0xC2 ≤ a && a ≤ 0xDF then
    match rest with
    | b :: _ =>
        if isContinuation b then
          some (Char.ofNat (a.toNat % 32 * 64 + low6 b), 1)
        else
          none
    | _ => none
  else if 0xE0 ≤ a && a ≤ 0xEF then
    match rest with
    | b :: c :: _ =>
        let least : UInt8 := if a = 0xE0 then 0xA0 else 0x80
        let most : UInt8 := if a = 0xED then 0x9F else 0xBF
        if least ≤ b && b ≤ most && isContinuation c then
          some (Char.ofNat ((a.toNat % 16 * 64 + low6 b) * 64 + low6 c), 2)
        else
          none
    | _ => none
  else if 0xF0 ≤ a && a ≤ 0xF4 then
    match rest with
    | b :: c :: d :: _ =>
        let least : UInt8 := if a = 0xF0 then 0x90 else 0x80
        let most : UInt8 := if a = 0xF4 then 0x8F else 0xBF
        if least ≤ b && b ≤ most && isContinuation c && isContinuation d then
          some (Char.ofNat (((a.toNat % 8 * 64 + low6 b) * 64 + low6 c) * 64 + low6 d), 3)
        else
          none
    | _ => none
  else
    none

def pieces : Bytes -> List Piece
  | [] => []
  | a :: rest =>
      match lead? a rest with
      | some (c, more) => .char c :: pieces (rest.drop more)
      | none => .stray a :: pieces rest
termination_by text => text.length
decreasing_by all_goals simp_wf; try omega

def join (ps : List Piece) : Bytes :=
  ps.flatMap Piece.bytes

def ofChars (cs : List Char) : Bytes :=
  cs.flatMap String.utf8EncodeChar

/-- The characters of a byte string; a stray byte gives the replacement character. -/
def chars (text : Bytes) : List Char :=
  (pieces text).map Piece.shown

/-- Number of characters, a stray byte counting as one. -/
def count (text : Bytes) : Nat :=
  (pieces text).length

/-- The text padded with spaces to a width in characters. -/
def padTo (width : Nat) (text : Bytes) : Bytes :=
  text ++ Bytes.blanks (width - count text)

def isValid (text : Bytes) : Bool :=
  (pieces text).all fun
    | .char _ => true
    | .stray _ => false

end Utf8

end Backtick
