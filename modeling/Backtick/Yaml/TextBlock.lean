import Backtick.Yaml.Quoted

/-!
# Text blocks

A text block is introduced by a sign and holds the lines that are indented more
than the key or dash before it. Its lines are kept or folded into paragraphs, and
the line feeds at its end are kept, clipped to one, or dropped.
-/

namespace Backtick.Yaml

/-- A line: the spaces in front, what follows them, and whether a line feed ends it. -/
structure Line where
  indent : Nat
  text : List Char
  broken : Bool

namespace Line

def ofChars (broken : Bool) (cs : List Char) : Line :=
  ⟨(cs.takeWhile (· = ' ')).length, cs.dropWhile (· = ' '), broken⟩

def feed (l : Line) : List Char :=
  if l.broken then ['\n'] else []

/-- The line as it was written, but for some of the spaces in front. -/
def behind (l : Line) (indent : Nat) : List Char :=
  (List.replicate l.indent ' ' ++ l.text).drop indent ++ l.feed

end Line

/-- The lines of a text; behind its last line feed there is none. -/
def linesOf (cs : List Char) : List Line :=
  let parts := cs.splitOn '\n'
  let ended := parts.dropLast.map (Line.ofChars true)
  match parts.getLast? with
  | some (c :: rest) => ended ++ [Line.ofChars false (c :: rest)]
  | _ => ended

def trimEnd (cs : List Char) : List Char :=
  (cs.reverse.dropWhile isSpace).reverse

/-- What becomes of line feeds at the end of a text block. -/
inductive Chomp
  | clip
  | strip
  | keep
deriving DecidableEq, Repr

/-- The head of a text block: whether lines are folded, the end, and a given indentation. -/
structure BlockHead where
  folded : Bool
  chomp : Chomp
  indent : Option Nat

def dropMarks (cs : List Char) : List Char :=
  let isMark (c : Char) : Bool := c = '-' || c = '+'
  let front := if cs.head?.any isMark then cs.drop 1 else cs
  if front.getLast?.any isMark then front.dropLast else front

def isMarked (mark : Char) (cs : List Char) : Bool :=
  cs.head? = some mark || cs.getLast? = some mark

/-- Reads the marks behind the sign of a text block: how it ends and its indentation. -/
def blockMarks? (folded : Bool) (cs : List Char) : Option BlockHead :=
  let chomp : Chomp :=
    if isMarked '-' cs then .strip else if isMarked '+' cs then .keep else .clip
  match dropMarks cs with
  | [] => some ⟨folded, chomp, none⟩
  | [c] => if '1' ≤ c && c ≤ '9' then some ⟨folded, chomp, some (c.toNat - '0'.toNat)⟩ else none
  | _ => none

/-- What stands behind the sign of a text block up to a comment. -/
def blockMarks (cs : List Char) : List Char :=
  match cs with
  | [] => []
  | c :: rest => trimEnd (c :: rest.takeWhile (· ≠ '#'))

/-- Reads what stands behind the sign of a text block. The last character of a text that
ends there does not count. -/
def blockHead? (folded : Bool) (l : Line) : Option BlockHead :=
  let cs := List.replicate l.indent ' ' ++ l.text
  blockMarks? folded (blockMarks (if l.broken then cs else cs.dropLast))

/-- The lines from one of a given indentation on, without that indentation, and the lines
after them. A tab cannot stand in the indentation. -/
def blockLines? (indent : Nat) : List Line -> Option (List (List Char) × List Line)
  | [] => some ([], [])
  | l :: rest =>
      if l.indent < indent && l.text.head? = some '\t' then
        none
      else if l.indent < indent && !l.text.isEmpty then
        some ([], l :: rest)
      else
        (blockLines? indent rest).map fun (body, after) => (l.behind indent :: body, after)

/-- The lines of a text block whose indentation is that of its first line with text, which
has to be behind column `delim`. The line before that line may not be longer, if it has but
blanks; `blanks` is the length of such a line. -/
def openBlock? (delim blanks : Nat) : List Line -> Option (List (List Char) × List Line)
  | [] => some ([], [])
  | l :: rest =>
      let tabs := l.text.takeWhile (· = '\t')
      let body := l.text.drop tabs.length
      let indent := l.indent + tabs.length
      if l.indent = 0 && !tabs.isEmpty then
        none
      else if body.isEmpty then
        (openBlock? delim indent rest).map fun (more, after) => ((tabs ++ l.feed) :: more, after)
      else if indent < delim then
        some ([], l :: rest)
      else if indent + 1 < blanks then
        none
      else
        (blockLines? indent rest).map fun (more, after) => ((l.text ++ l.feed) :: more, after)

def blockBody? (delim : Nat) (head : BlockHead) (lines : List Line) :
    Option (List (List Char) × List Line) :=
  match head.indent with
  | some n => blockLines? (delim + n - 1) lines
  | none => openBlock? delim 0 lines

/-- What a text block has been folded into: the text reversed, whether the line before begins
at the margin, and whether the last line that is not blank does; neither at first. -/
structure Folding where
  reversed : List Char
  before : Option Bool
  last : Option Bool

/-- The folding after a further line. A line at the margin is joined to one before it, and of
the line feeds around blank lines between two such lines one is dropped. -/
def Folding.add (f : Folding) (line : List Char) : Folding :=
  let blank := line.all fun c => c = ' ' || c = '\n'
  let margin := !line.head?.any isSpace
  let reversed :=
    if blank || !margin then f.reversed
    else
      match f.reversed with
      | '\n' :: rest =>
          if f.before = some true then ' ' :: rest
          else if f.before = none && f.last = some true && rest.head? = some '\n' then rest
          else '\n' :: rest
      | other => other
  if blank then ⟨line.reverse ++ reversed, none, f.last⟩
  else ⟨line.reverse ++ reversed, some margin, some margin⟩

/-- Lines folded into paragraphs; lines that begin with a blank stay as they are. -/
def foldBlock (lines : List (List Char)) : List Char :=
  (lines.foldl Folding.add ⟨[], none, none⟩).reversed.reverse

/-- A text with its line feeds at the end treated as asked. -/
def chomped (chomp : Chomp) (text : List Char) : List Char :=
  let body := (text.reverse.dropWhile (· = '\n')).reverse
  let feeds := text.length - body.length
  match chomp with
  | .strip => (body.reverse.dropWhile (· = ' ')).reverse
  | .clip => if body.isEmpty then [] else body ++ List.replicate (min feeds 1) '\n'
  | .keep => if text.isEmpty then ['\n'] else text

/-- The text of a block; blanks at its very end do not count. -/
def blockText (head : BlockHead) (lines : List (List Char)) : List Char :=
  if lines.isEmpty then
    []
  else
    chomped head.chomp (trimEnd (if head.folded then foldBlock lines else lines.flatten))

end Backtick.Yaml
