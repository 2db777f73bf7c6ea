import Backtick.Yaml.TextBlock
import Backtick.Yaml.Token

/-!
# Plain scalars across lines

An unquoted scalar goes on over the lines that begin behind the column of the key or dash it
belongs to. Its line breaks fold into a space, or into line feeds if there are blank lines. A
further line that begins with a dash makes the rest of the scalar a folded text, in which no
character has a meaning of its own.
-/

namespace Backtick.Yaml

/-- What a scalar stands in: the column of the last key or dash, zero if there was none; the
number of open lists and mappings; and whether a colon stands right before it. -/
structure Frame where
  delim : Nat
  lists : Nat
  maps : Nat
  valued : Bool

namespace Frame

/-- Whether there are brackets around. -/
def inFlow (f : Frame) : Bool :=
  0 < f.lists || 0 < f.maps

def ends (f : Frame) (c : Char) : Bool :=
  (c = ',' && f.inFlow) || (c = ']' && 0 < f.lists) || (c = Char.ofNat 0x7D && 0 < f.maps)

/-- Whether a colon ends a key, given what follows it. -/
def isColon (f : Frame) (after : List Char) : Bool :=
  if f.maps = 0 then
    after.head?.all fun c => isSpace c || c = '\n'
  else
    after.head? ≠ some '/' && !f.valued

/-- Whether a tab in the midst of a scalar is left out; it counts as a blank then. -/
def dropsTab (f : Frame) (p : Place) : Bool :=
  f.delim = 0 || f.delim < p.column

/-- Whether a line that begins here is no part of a scalar of the lines before it. -/
def leaves (f : Frame) (p : Place) : Bool :=
  p.fresh && 0 < f.delim && p.column ≤ f.delim

end Frame

/-- An unquoted scalar so far: its text up to the last character that is not blank, the blanks
and line feeds behind it, both reversed, and whether a blank was the last character read. -/
structure PlainText where
  reversed : List Char
  gap : List Char
  spaced : Bool

namespace PlainText

def push (t : PlainText) (c : Char) : PlainText :=
  ⟨c :: (t.gap ++ t.reversed), [], false⟩

/-- A blank that is part of the text if more of it follows. -/
def blank (t : PlainText) (c : Char) : PlainText :=
  { t with gap := c :: t.gap, spaced := true }

def skip (t : PlainText) : PlainText :=
  { t with spaced := true }

/-- The end of a line, which may have been empty. Blanks before it are dropped, and a line of
blanks takes the line feeds of those before it with it. -/
def feed (t : PlainText) (empty : Bool) : PlainText :=
  let gap := if t.spaced then [] else t.gap
  let gap :=
    if empty then
      match gap with
      | ' ' :: rest => '\n' :: rest
      | other => '\n' :: other
    else
      ' ' :: gap
  ⟨t.reversed, gap, false⟩

def chars (t : PlainText) : List Char :=
  t.reversed.reverse

end PlainText

/-- A scalar that was read, the line it ended in, and what is left. -/
structure PlainEnd where
  scalar : Scalar
  lastLine : Nat
  place : Place
  rest : List Char

/-- The rest of a scalar as folded text from a dash on. -/
def dashedText? (t : PlainText) (p : Place) (cs : List Char) : Option PlainEnd :=
  match linesOf cs with
  | [] => none
  | first :: lines =>
      match blockLines? (p.column - 1) lines with
      | none => none
      | some (body, after) =>
          let start := t.gap.reverse ++ first.behind 0
          let text := chomped .strip (foldBlock ((t.chars ++ start) :: body))
          let rest := after.flatMap (·.behind 0)
          let read := cs.take (cs.length - rest.length)
          some
            { scalar := ⟨.quoted, Utf8.ofChars text⟩
              lastLine := p.line + body.length
              place := p.past read
              rest := rest }

/-- The rest of an unquoted scalar; `lastLine` is the line of the last character of its
text. -/
def plainMore? (f : Frame) (t : PlainText) (lastLine : Nat) (p : Place) :
    List Char -> Option PlainEnd
  | [] => some ⟨⟨.plain, Utf8.ofChars t.chars⟩, lastLine, p, []⟩
  | c :: cs =>
      if c = '\n' then
        plainMore? f (t.feed p.fresh) lastLine p.feed cs
      else if c = ' ' then
        plainMore? f (if p.fresh then t.skip else t.blank c) lastLine p.space cs
      else if c = '\t' then
        if f.dropsTab p then plainMore? f t.skip lastLine p.tab cs
        else if f.inFlow || !p.fresh then plainMore? f (t.blank c) lastLine p.space cs
        else none
      else if f.leaves p || f.ends c || (c = ':' && f.isColon cs) ||
          (c = '#' && (p.fresh || t.spaced)) || p.isSeparator '-' (c :: cs) ||
          p.isSeparator '.' (c :: cs) then
        some ⟨⟨.plain, Utf8.ofChars t.chars⟩, lastLine, p, c :: cs⟩
      else if c = '-' && p.fresh && 0 < f.delim then
        dashedText? t p (c :: cs)
      else
        plainMore? f (t.push c) p.line (p.step 1) cs

/-- An unquoted scalar from its first character on. -/
def plain? (f : Frame) (p : Place) (c : Char) (cs : List Char) : Option PlainEnd :=
  plainMore? f ⟨[c], [], false⟩ p.line (p.step 1) cs

end Backtick.Yaml
