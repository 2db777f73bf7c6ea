import Backtick.Value.Text
import Backtick.Yaml.Scalar

/-!
# Tokens

A text is a sequence of marks and scalars, each at a line and a column. Which mapping
or list a token belongs to follows from these.
-/

namespace Backtick.Yaml

inductive ScalarStyle
  | plain
  | quoted
  | block
  | merge
deriving DecidableEq, Repr

/-- A scalar as it was written; that of style `merge` is the key that stands for the fields
of the mapping behind it. -/
structure Scalar where
  style : ScalarStyle
  text : Bytes
deriving DecidableEq, Repr

namespace Scalar

/-- The value of a scalar; one in quotes or in a block is a string. -/
def value (s : Scalar) : Value :=
  if s.style = .plain then plainValue s.text else .string s.text

/-- The name that a scalar gives to a field: its own text, or that of the value it denotes. -/
def name (s : Scalar) : Bytes :=
  match s.value with
  | .null => "null"
  | .string t => t
  | v => v.shown

end Scalar

/-- The parts of a text. -/
inductive Mark
  | documentStart
  | documentEnd
  | dash
  | colon
  | comma
  | listStart
  | listEnd
  | mapStart
  | mapEnd
  | scalar (s : Scalar)
deriving DecidableEq, Repr

/-- A mark at its line and column, and the line that it ends in. -/
structure Token where
  mark : Mark
  line : Nat
  column : Nat
  lastLine : Nat
deriving DecidableEq, Repr

namespace Token

def scalar? (t : Token) : Option Scalar :=
  match t.mark with
  | .scalar s => some s
  | _ => none

def isMark (t : Token) (m : Mark) : Bool :=
  t.mark = m

end Token

/-- A place in a text: its line and column, the blanks in front of the line, and whether
there have been but blanks in it. -/
structure Place where
  line : Nat
  column : Nat
  margin : Nat
  fresh : Bool
deriving DecidableEq, Repr

namespace Place

def start : Place := ⟨1, 1, 0, true⟩

def feed (p : Place) : Place :=
  ⟨p.line + 1, 1, 0, true⟩

def space (p : Place) : Place :=
  { p with column := p.column + 1, margin := if p.fresh then p.margin + 1 else p.margin }

def tab (p : Place) : Place :=
  { p with margin := p.margin + 1 }

def step (p : Place) (n : Nat) : Place :=
  { p with column := p.column + n, fresh := false }

def past (p : Place) (cs : List Char) : Place :=
  cs.foldl (fun p c => if c = '\n' then p.feed else p.step 1) p

/-- Whether three of a mark that separates documents begin a line here, and no more than
three. -/
def isSeparator (p : Place) (mark : Char) (cs : List Char) : Bool :=
  p.column = 1 && p.margin = 0 && (cs.takeWhile (· = mark)).length = 3

end Place

end Backtick.Yaml
