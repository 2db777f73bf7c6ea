import Backtick.Constant.Basic
import Backtick.Number.Power
import Backtick.Value.Compare

/-!
# Operations on values

What the operators of constants do with evaluated operands. Whole numbers have 64
bits and wrap around; a quotient and a power are always fractional numbers. Taking an
element that is not there, or a remainder of zero, has no value.
-/

namespace Backtick.Constant

def whole (n : Int) : Value :=
  .integer .int (Int.bmod n (Nat.pow 2 64))

def whole? : Value -> Option Int
  | .integer _ n => some n
  | _ => none

def numeric? : Value -> Option Binary64
  | .integer _ n => some (.ofInt n)
  | .double x => some x
  | _ => none

/-- The whole number that a number is cut to, if it has 64 bits. -/
def cut? : Value -> Option Int
  | .integer _ n => some n
  | .double (.finite negative units _) =>
      let size : Int := (units / Binary64.oneUnits : Nat)
      let n := if negative then -size else size
      if Int.bmod n (Nat.pow 2 64) = n then some n else none
  | _ => none

mutual

/-- Equality: numbers by their value, lists element by element. -/
def equal : Value -> Value -> Bool
  | .list as, .list bs => equalItems as bs
  | .list as, .integers bs => equalItems as (bs.map whole)
  | .integers as, .list bs => equalWholes as bs
  | a, b =>
      match numeric? a, numeric? b with
      | some x, some y =>
          match whole? a, whole? b with
          | some m, some n => m == n
          | _, _ => x.equal y
      | _, _ => a.same b

def equalItems : List Value -> List Value -> Bool
  | [], [] => true
  | a :: as, b :: bs => equal a b && equalItems as bs
  | _, _ => false

def equalWholes : List Int -> List Value -> Bool
  | [], [] => true
  | m :: ms, b :: bs =>
      (match b with
        | .integer _ n => m == n
        | .double y => (Binary64.ofInt m).equal y
        | _ => false) && equalWholes ms bs
  | _, _ => false

end

/-- The order of two numbers or of two strings. -/
def order? (a b : Value) : Option (Option Ordering) :=
  match a, b with
  | .string s, .string t => some (some (Bytes.order s t))
  | a, b =>
      match whole? a, whole? b with
      | some m, some n => some (some (compare m n))
      | _, _ =>
          match numeric? a, numeric? b with
          | some x, some y => some (x.order? y)
          | _, _ => none

def ordered? (accepts : Ordering -> Bool) (a b : Value) : Option Value :=
  (order? a b).map fun o => .bool (o.any accepts)

/-- An operation on two numbers: on whole ones if both are. -/
def arithmetic? (wholeOp : Int -> Int -> Int) (op : Binary64 -> Binary64 -> Binary64)
    (a b : Value) : Option Value :=
  match whole? a, whole? b with
  | some m, some n => some (whole (wholeOp m n))
  | _, _ =>
      match numeric? a, numeric? b with
      | some x, some y => some (.double (op x y))
      | _, _ => none

/-- An operation on two numbers that is never whole. -/
def fractional? (op : Binary64 -> Binary64 -> Binary64) (a b : Value) : Option Value :=
  match numeric? a, numeric? b with
  | some x, some y => some (.double (op x y))
  | _, _ => none

/-- A test on two strings; it fails if one of them is missing. -/
def textual? (test : Bytes -> Bytes -> Bool) (a b : Value) : Option Value :=
  match a, b with
  | .null, _ | _, .null => some (.bool false)
  | .string s, .string t => some (.bool (test s t))
  | _, _ => none

/-- The name that a key means in a mapping; a missing key is the empty name. -/
def keyName? : Value -> Option Bytes
  | .string s => some s
  | .null => some []
  | _ => none

/-- Whether a value is in a list, or a name in a mapping. -/
def within? (a b : Value) : Option Value :=
  match b with
  | .list items => some (.bool (items.any fun item => equal item a))
  | .integers items => some (.bool (items.any fun n => equal (whole n) a))
  | .map fields => (keyName? a).map fun s => .bool (fields.any fun f => f.1 = s)
  | .null => some (.bool false)
  | _ => none

/-- Whether a string is one of a list; a missing one is the empty string. -/
def amongTexts? (a b : Value) : Option Value :=
  match b with
  | .list items => (keyName? a).map fun s => .bool (items.any fun item => item.same (.string s))
  | _ => none

/-- Whether a whole number is one of a list; a missing one is zero. -/
def amongWholes? (a b : Value) : Option Value :=
  match a, b with
  | .integer .int n, .list items => some (.bool (items.any fun item => item.same (whole n)))
  | .null, .list items => some (.bool (items.any fun item => item.same (whole 0)))
  | _, _ => none

def equalWholes? (a b : Value) : Option Value :=
  match a, b with
  | .integer .int m, .integer .int n => some (.bool (m = n))
  | _, _ => none

def equalTexts? (a b : Value) : Option Value :=
  match a, b with
  | .string s, .string t => some (.bool (s = t))
  | _, _ => none

/-- The greatest number of elements that a range may have. -/
def rangeLimit : Nat := 1000000

/-- The whole numbers from one to another, both included. -/
def range? (a b : Value) : Option Value :=
  match cut? a, cut? b with
  | some m, some n =>
      let size := (Int.bmod (n - m + 1) (Nat.pow 2 64)).toNat
      if rangeLimit < size then none
      else some (.integers ((List.range size).map fun (i : Nat) => m + i))
  | _, _ => none

def binaryValue? (op : BinaryOp) (a b : Value) : Option Value :=
  match op with
  | .equal => some (.bool (equal a b))
  | .unequal => some (.bool !(equal a b))
  | .less => ordered? (· == .lt) a b
  | .lessEqual => ordered? (· != .gt) a b
  | .greater => ordered? (· == .gt) a b
  | .greaterEqual => ordered? (· != .lt) a b
  | .within => within? a b
  | .contains => textual? (fun s t => Bytes.includes s t) a b
  | .startsWith => textual? (fun s t => t.isPrefixOf s) a b
  | .endsWith => textual? (fun s t => t.isSuffixOf s) a b
  | .range => range? a b
  | .add =>
      match a, b with
      | .string s, .string t => some (.string (s ++ t))
      | a, b => arithmetic? (· + ·) Binary64.add a b
  | .subtract => arithmetic? (· - ·) Binary64.sub a b
  | .multiply => arithmetic? (· * ·) Binary64.mul a b
  | .divide => fractional? Binary64.div a b
  | .power => fractional? Binary64.power a b
  | .remainder =>
      match whole? a, whole? b with
      | some m, some n => if n = 0 then none else some (whole (m.tmod n))
      | _, _ => none
  | .equalWholes => equalWholes? a b
  | .equalTexts => equalTexts? a b
  | .amongWholes => amongWholes? a b
  | .amongTexts => amongTexts? a b
  | .or | .and | .orElse => none

def unaryValue? (op : UnaryOp) (v : Value) : Option Value :=
  match op, v with
  | .keep, v => some v
  | .not, .bool b => some (.bool !b)
  | .negate, .integer .uint8 n => some (.integer .uint8 (-n % 256))
  | .negate, .integer _ n => some (whole (-n))
  | .negate, .double x => some (.double x.neg)
  | _, _ => none

/-- The position that an index means: a negative one counts from the end. -/
def position? (size : Nat) (i : Int) : Option Nat :=
  let n := if i < 0 then i + size else i
  if 0 ≤ n && n < size then some n.toNat else none

def item? (base key : Value) : Option Value :=
  match base with
  | .map fields => (keyName? key).map fun s => (Fields.get? fields s).getD .null
  | .list items => do
      let n <- position? items.length (<- cut? key)
      items[n]?
  | .integers items => do
      let n <- position? items.length (<- cut? key)
      (items[n]?).map whole
  | .string s => do
      let n <- position? s.length (<- cut? key)
      (s[n]?).map fun b => .integer .uint8 b.toNat
  | _ => none

/-- The bound of a slice that a number means: a negative one counts from the end. -/
def bound (size : Nat) (i : Int) : Nat :=
  min size (if i < 0 then i + size else i).toNat

/-- The part of a list or string from one bound to another. -/
def slice? (base start stop : Value) : Option Value := do
  let i <- cut? start
  let j <- cut? stop
  let part {α : Type} (items : List α) : List α :=
    (items.take (bound items.length j)).drop (bound items.length i)
  match base with
  | .list items => some (.list (part items))
  | .integers items => some (.integers (part items))
  | .string s => some (.string (part s))
  | _ => none

end Backtick.Constant
