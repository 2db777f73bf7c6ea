import Backtick.Session.Mode
import Backtick.Template.Engine
import Backtick.Text.Blank
import Backtick.Text.Fuzzy

/-!
# Completion

The word at a position of the input, what kind of content the position is in,
and the names that can stand there. Positions are byte offsets.
-/

namespace Backtick

/-- The offsets between which a word lies. -/
structure Word where
  start : Nat
  stop : Nat
deriving DecidableEq, Repr

namespace Word

def boundaries : Bytes :=
  " \t`$\x7b\x7d(),<>='\""

def isBoundary (b : UInt8) : Bool :=
  boundaries.contains b

/-- How many bytes at the front of a text belong to one word. -/
def run (text : Bytes) : Nat :=
  (text.takeWhile fun b => !isBoundary b).length

/-- The word around a position; a position behind the end counts as the end. -/
def around (text : Bytes) (cursor : Nat) : Word :=
  let before := text.take cursor
  ⟨before.length - run before.reverse, before.length + run (text.drop cursor)⟩

def bytes (text : Bytes) (w : Word) : Bytes :=
  (text.take w.stop).drop w.start

end Word

/-- What a position of a template is in: text, a formula, or the name of a variable. -/
inductive Place
  | text
  | formula
  | name
deriving DecidableEq, Repr

namespace Place

def code : Place -> Nat
  | .text => 0
  | .formula => 1
  | .name => 2

/-- What the bytes before a position have opened. -/
inductive Region
  | plain
  /-- Behind a dollar sign that may open a formula. -/
  | dollar
  | formula
  /-- In a string whose quote is at an offset. -/
  | quoted (mark : UInt8) (offset : Nat)
deriving DecidableEq, Repr

def Region.step (r : Region) (offset : Nat) (b : UInt8) : Region :=
  match r with
  | .plain => if b = '$'.toUInt8 then .dollar else .plain
  | .dollar =>
      if b = '{'.toUInt8 then .formula else if b = '$'.toUInt8 then .dollar else .plain
  | .formula =>
      if b = '\''.toUInt8 || b = '"'.toUInt8 then .quoted b offset
      else if b = '}'.toUInt8 then .plain
      else .formula
  | .quoted mark _ => if b = mark then .formula else r

/-- The region at the end of a text that begins at an offset in another region. -/
def Region.behind (r : Region) (offset : Nat) : Bytes -> Region
  | [] => r
  | b :: rest => (r.step offset b).behind (offset + 1) rest

/-- Whether a text ends where the argument of `GET` begins. -/
def endsAtGet (text : Bytes) : Bool :=
  match Bytes.dropEnd? "(" (Text.trimRight text) with
  | none => false
  | some callee => (Bytes.dropEnd? "GET" (Text.trimRight callee)).isSome

def behind (text : Bytes) (position : Nat) : Place :=
  match Region.plain.behind 0 (text.take position) with
  | .plain | .dollar => .text
  | .formula => .formula
  | .quoted _ offset => if endsAtGet (text.take offset) then .name else .text

end Place

namespace Completion

def commands : List Bytes :=
  [ "help", "vars", "set", "unset", "tokens", "ast", "emit", "engine", "edit", "clear", "quit" ]

/-- Names on offer. They may be browsed if they are shown before a word is begun. -/
structure Offer where
  names : List Bytes
  browse : Bool

def templateOffer (text : Bytes) (start : Nat) (names : List Bytes) : Offer :=
  match Place.behind text start with
  | .formula => ⟨TokenKind.keywords, false⟩
  | .name => ⟨names, true⟩
  | .text => ⟨[], false⟩

def offer (mode : Mode) (text : Bytes) (start : Nat) (names : List Bytes) : Offer :=
  match mode with
  | .template => templateOffer text start names
  | .command =>
      match Text.words (text.take start) with
      | [] => ⟨commands, false⟩
      | [verb] =>
          if verb = ↑"engine" then ⟨Engine.words, true⟩
          else if verb = ↑"set" || verb = ↑"unset" then ⟨names, true⟩
          else templateOffer text start names
      | _ => templateOffer text start names

def everything (names : List Bytes) : List Text.Match :=
  names.zipIdx.map fun (name, index) => ⟨name, index, [], 0⟩

/-- The names that complete the word at a position, the best first, and that word. -/
def find (mode : Mode) (text : Bytes) (cursor : Nat) (names : List Bytes) :
    List Text.Match × Word :=
  let word := Word.around text cursor
  let o := offer mode text word.start names
  let typed := word.bytes text
  let found :=
    if typed.isEmpty then
      if o.browse then everything o.names else []
    else
      Text.fuzzyFind typed o.names
  (found, word)

end Completion

end Backtick
