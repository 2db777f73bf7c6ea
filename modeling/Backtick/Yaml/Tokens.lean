import Backtick.Yaml.Plain

/-!
# The tokens of a text

Marks and scalars are told apart by their first character and what stands before and
behind it. A comment goes on to the end of its line. Anchors, aliases, tags, directives
and keys with a question mark are not understood.
-/

namespace Backtick.Yaml

/-- How far a text has been read: the place, the column of the last key or dash, the number of
open lists and mappings, the blanks since the last token, and the tokens, the last first. -/
structure Scan where
  place : Place
  delim : Nat
  lists : Nat
  maps : Nat
  gap : List Char
  found : List Token

namespace Scan

def start : Scan := ⟨.start, 0, 0, 0, [], []⟩

/-- What the next scalar stands in. -/
def frame (s : Scan) : Frame :=
  ⟨s.delim, s.lists, s.maps, s.found.head?.any (·.isMark .colon)⟩

/-- Whether a tab stands right behind the last token, or with one space between. -/
def isTabbed (s : Scan) : Bool :=
  match s.gap with
  | '\t' :: _ => true
  | ' ' :: '\t' :: _ => true
  | _ => false

def feed (s : Scan) : Scan :=
  { s with place := s.place.feed, gap := ['\n'] }

def blank (s : Scan) (c : Char) : Scan :=
  { s with place := s.place.space, gap := s.gap ++ [c] }

/-- Behind a tab; in front of a line it has to stand right of the last key or dash. -/
def tab? (s : Scan) : Option Scan :=
  if s.delim < s.place.column then
    some { s with place := s.place.tab, gap := s.gap ++ ['\t'] }
  else if s.frame.inFlow || !s.place.fresh then
    some (s.blank '\t')
  else
    none

def add (s : Scan) (mark : Mark) (lastLine : Nat) (place : Place) : Scan :=
  { s with
    place := place
    gap := []
    found := ⟨mark, s.place.line, s.place.column, lastLine⟩ :: s.found }

def addMark (s : Scan) (mark : Mark) (size : Nat) : Scan :=
  s.add mark s.place.line (s.place.step size)

/-- Behind a colon: the column of the key before it counts from now on. -/
def addColon (s : Scan) : Scan :=
  let delim := (s.found.head?.filter (·.scalar?.isSome)).elim s.delim Token.column
  { s.addMark .colon 1 with delim := delim }

end Scan

/-- Whether a text begins with the key that stands for the fields of a mapping: two marks,
followed by a colon and that by a blank. -/
def isMergeKey (cs : List Char) : Bool :=
  (cs.takeWhile (· = '<')).length = 2 &&
    match (cs.drop 2).dropWhile (· = ' ') with
    | ':' :: c :: _ => c = ' ' || c = '\n'
    | _ => false

def scanQuoted? (s : Scan) (cs : List Char) : Option (Scan × List Char) :=
  match quoted? s.delim cs with
  | none => none
  | some (text, rest) =>
      let place := s.place.past (cs.take (cs.length - rest.length))
      some (s.add (.scalar ⟨.quoted, text⟩) place.line place, rest)

/-- A text block behind its sign, and what is left. If there are more lines behind it, one
whose sign begins a line cannot be empty, and one that keeps its line feeds cannot have but
empty lines. -/
def scanBlock? (s : Scan) (folded : Bool) (cs : List Char) : Option (Scan × List Char) :=
  match linesOf cs with
  | [] => some (s.add (.scalar ⟨.block, []⟩) s.place.line s.place.feed, [])
  | first :: lines => do
      let head <- blockHead? folded first
      let delim := if s.place.column = 1 then 1 else s.delim
      let (body, after) <- blockBody? delim head lines
      let text := blockText head body
      let rest := after.flatMap (·.behind 0)
      let bare : Bool :=
        (s.place.column = 1 && text.isEmpty) ||
          (head.chomp = .keep &&
            (lines.take body.length).all fun l => l.indent = 0 && l.text.isEmpty)
      if bare && !after.isEmpty then
        none
      else
        let place := s.place.past (cs.take (cs.length - rest.length))
        some (s.add (.scalar ⟨.block, Utf8.ofChars text⟩) s.place.line place, rest)

/-- An unquoted scalar, and what is left. -/
def scanPlain? (s : Scan) (c : Char) (cs : List Char) : Option (Scan × List Char) :=
  match plain? s.frame s.place c cs with
  | none => none
  | some found =>
      if s.isTabbed && found.rest.head? = some ':' then
        none
      else
        some (s.add (.scalar found.scalar) found.lastLine found.place, found.rest)

/-- A dash, if it begins an element of a list, or an unquoted scalar. -/
def scanDash? (s : Scan) (cs : List Char) : Option (Scan × List Char) :=
  if cs.head?.all fun c => isSpace c || c = '\n' then
    if s.isTabbed then none else some ({ s.addMark .dash 1 with delim := s.place.column }, cs)
  else
    scanPlain? s '-' cs

/-- A colon behind a key, or an unquoted scalar. -/
def scanColon? (s : Scan) (cs : List Char) : Option (Scan × List Char) :=
  if s.frame.isColon cs then
    if s.isTabbed then none else some (s.addColon, cs)
  else
    scanPlain? s ':' cs

/-- The token that begins with a character, which is not blank, and what is left. -/
def scanToken? (s : Scan) (c : Char) (cs : List Char) : Option (Scan × List Char) :=
  if s.place.isSeparator '-' (c :: cs) then
    some ({ s.addMark .documentStart 3 with delim := 0 }, cs.drop 2)
  else if s.place.isSeparator '.' (c :: cs) then
    some (s.addMark .documentEnd 3, cs.drop 2)
  else if c = '-' then
    scanDash? s cs
  else if c = ':' then
    scanColon? s cs
  else if c = ',' && s.frame.inFlow then
    some (s.addMark .comma 1, cs)
  else if c = '[' then
    some ({ s.addMark .listStart 1 with lists := s.lists + 1 }, cs)
  else if c = ']' then
    if s.lists = 0 then none
    else some ({ s.addMark .listEnd 1 with lists := s.lists - 1 }, cs)
  else if c = Char.ofNat 0x7B then
    some ({ s.addMark .mapStart 1 with maps := s.maps + 1 }, cs)
  else if c = Char.ofNat 0x7D && 0 < s.maps then
    some ({ s.addMark .mapEnd 1 with maps := s.maps - 1 }, cs)
  else if c = '\'' || c = '"' then
    scanQuoted? s (c :: cs)
  else if c = '|' || c = '>' then
    scanBlock? s (c = '>') cs
  else if isMergeKey (c :: cs) then
    some ({ s.add (.scalar ⟨.merge, "<<"⟩) s.place.line (s.place.step 2) with
      delim := s.place.column }, cs.drop 1)
  else if "&*!@`".toList.contains c || (c = '%' && s.place.margin = 0) ||
      (c = '?' && cs.head?.any isSpace) then
    none
  else
    scanPlain? s c cs

def scan? : Nat -> Scan -> List Char -> Option (List Token)
  | _, s, [] => some s.found.reverse
  | 0, _, _ => none
  | fuel + 1, s, c :: cs =>
      if c = '\n' then
        scan? fuel s.feed cs
      else if c = ' ' then
        scan? fuel (s.blank c) cs
      else if c = '\t' then
        match s.tab? with
        | none => none
        | some s => scan? fuel s cs
      else if c = '#' then
        scan? fuel { s with place := s.place.feed, gap := [] } ((cs.dropWhile (· ≠ '\n')).drop 1)
      else
        match scanToken? s c cs with
        | none => none
        | some (s, rest) => scan? fuel s rest

def tokens? (cs : List Char) : Option (List Token) :=
  scan? cs.length .start cs

end Backtick.Yaml
