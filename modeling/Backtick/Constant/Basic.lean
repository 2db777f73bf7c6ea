import Backtick.Bytes.Basic
import Backtick.Number.Binary64

/-!
# Constants

Expressions that are built from literals alone and so denote a value without
looking anything up.
-/

namespace Backtick

inductive UnaryOp
  | negate
  | keep
  | not
deriving DecidableEq, Repr

/-- The operators with two operands. The last four are not written: they stand for equality
and membership where the kinds of the operands are known beforehand. -/
inductive BinaryOp
  | or
  | and
  | equal
  | unequal
  | less
  | lessEqual
  | greater
  | greaterEqual
  | within
  | contains
  | startsWith
  | endsWith
  | range
  | add
  | subtract
  | multiply
  | divide
  | remainder
  | power
  | orElse
  | equalWholes
  | equalTexts
  | amongWholes
  | amongTexts
deriving DecidableEq, Repr

namespace BinaryOp

/-- How tightly an operator binds. -/
def strength : BinaryOp -> Nat
  | .or => 10
  | .and => 15
  | .equal | .unequal | .less | .lessEqual | .greater | .greaterEqual => 20
  | .within | .contains | .startsWith | .endsWith => 20
  | .equalWholes | .equalTexts | .amongWholes | .amongTexts => 20
  | .range => 25
  | .add | .subtract => 30
  | .multiply | .divide | .remainder => 60
  | .power => 100
  | .orElse => 500

/-- How tightly the operator's right operand must be bound. -/
def rightStrength (op : BinaryOp) : Nat :=
  if op = .power then op.strength else op.strength + 1

/-- Whether a chain of the operator means that each neighbouring pair compares. -/
def chains : BinaryOp -> Bool
  | .less | .lessEqual | .greater | .greaterEqual => true
  | _ => false

/-- Whether the operator can be preceded by a negation. -/
def negatable : BinaryOp -> Bool
  | .within | .contains | .startsWith | .endsWith => true
  | _ => false

def ofSymbol? (text : String) : Option BinaryOp :=
  match text with
  | "or" | "||" => some .or
  | "and" | "&&" => some .and
  | "==" => some .equal
  | "!=" => some .unequal
  | "<" => some .less
  | "<=" => some .lessEqual
  | ">" => some .greater
  | ">=" => some .greaterEqual
  | "in" => some .within
  | "contains" => some .contains
  | "startsWith" => some .startsWith
  | "endsWith" => some .endsWith
  | ".." => some .range
  | "+" => some .add
  | "-" => some .subtract
  | "*" => some .multiply
  | "/" => some .divide
  | "%" => some .remainder
  | "**" | "^" => some .power
  | "??" => some .orElse
  | _ => none

end BinaryOp

namespace UnaryOp

/-- How tightly the operand must be bound. -/
def strength : UnaryOp -> Nat
  | .not => 50
  | .negate | .keep => 90

def ofSymbol? (text : String) : Option UnaryOp :=
  match text with
  | "-" => some .negate
  | "+" => some .keep
  | "!" | "not" => some .not
  | _ => none

end UnaryOp

inductive Constant
  | nothing
  | flag (b : Bool)
  | integer (n : Int)
  | number (x : Binary64)
  | string (s : Bytes)
  | list (items : List Constant)
  | map (fields : List (Constant × Constant))
  /-- The mapping of all variables, which is empty. -/
  | environment
  | unary (op : UnaryOp) (operand : Constant)
  | binary (op : BinaryOp) (left right : Constant)
  | choose (condition yes no : Constant)
  | item (base key : Constant)
  /-- An item and further ones below it, unless the base is nothing. -/
  | optional (base key : Constant) (names : List Bytes)
  | slice (base start stop : Constant)
  /-- Both are evaluated, the second is the value. -/
  | after (first second : Constant)

instance : Inhabited Constant := ⟨.nothing⟩

end Backtick
