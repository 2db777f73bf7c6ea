import Backtick.Number.Numeral
import Backtick.Text.Blank
import Backtick.Token.Basic
import Backtick.Value.Basic

/-!
# Comparing values

Strict equality holds for values of the same kind that are equal; a list, a mapping or
a pointer equals itself whatever it holds. The ordering operators compare two strings byte
by byte and all else as numbers; what is no number compares false with everything.
-/

namespace Backtick

namespace Value

/-- The number a string denotes, blanks around it ignored; not-a-number if none. -/
def numberOfText (s : Bytes) : Binary64 :=
  let body := Text.trim s
  if body.isEmpty then Binary64.zero else (Numeral.read? body).getD .nan

def toNumber : Value -> Binary64
  | .null => Binary64.zero
  | .bool b => if b then Binary64.one else Binary64.zero
  | .string s => numberOfText s
  | v => v.number?.getD .nan

mutual

/-- Equality of values of the same type, element by element. -/
def same : Value -> Value -> Bool
  | .null, .null => true
  | .bool a, .bool b => a == b
  | .string a, .string b => a == b
  | .integer k a, .integer l b => k == l && a == b
  | .double a, .double b => a.equal b
  | .single a, .single b => a.equal b
  | .list as, .list bs => sameItems as bs
  | .map as, .map bs => sameFields as bs
  | .strings as, .strings bs => as == bs
  | .integers as, .integers bs => as == bs
  | .bytes a, .bytes b => a == b
  | .array as, .array bs => sameItems as bs
  | .ref a, .ref b => same a b
  | .emptyRef a, .emptyRef b => a == b
  | .duration a, .duration b => a == b
  | _, _ => false

def sameItems : List Value -> List Value -> Bool
  | [], [] => true
  | a :: as, b :: bs => same a b && sameItems as bs
  | _, _ => false

def sameFields : List (Bytes × Value) -> List (Bytes × Value) -> Bool
  | [], [] => true
  | (k, a) :: as, (l, b) :: bs => k == l && same a b && sameFields as bs
  | _, _ => false

end

/-- Strict equality: all numbers are of one kind, any other value equals only its own type. -/
def strictEqual (a b : Value) : Bool :=
  match a.number?, b.number? with
  | some x, some y => x.equal y
  | none, none => same a b
  | _, _ => false

mutual

/-- Whether a value strictly equals the same value: an array does if its elements do, all else
but not-a-number does. -/
def equalsItself : Value -> Bool
  | .double x => x.equal x
  | .single x => x.equal x
  | .array items => itemsEqualThemselves items
  | _ => true

def itemsEqualThemselves : List Value -> Bool
  | [] => true
  | v :: rest => equalsItself v && itemsEqualThemselves rest

end

/-- The order of two values: two strings by bytes, all else by number. -/
def order? : Value -> Value -> Option Ordering
  | .string a, .string b => some (Bytes.order a b)
  | a, b => a.toNumber.order? b.toNumber

def accepts : Comparator -> Ordering -> Bool
  | .less, o => o == .lt
  | .lessEqual, o => o != .gt
  | .strictEqual, o => o == .eq
  | .greater, o => o == .gt
  | .greaterEqual, o => o != .lt
  | .unknown _, _ => false

def compare (a : Value) (op : Comparator) (b : Value) : Bool :=
  if op = .strictEqual then
    strictEqual a b
  else
    (order? a b).any (accepts op)

end Value

/-- A value with the variable that it was read from, if it is one. -/
structure Reading where
  value : Value
  source : Option Bytes

namespace Reading

/-- A value that is of no variable. -/
def made (v : Value) : Reading :=
  ⟨v, none⟩

def ofSameVariable (a b : Reading) : Bool :=
  a.source.isSome && a.source == b.source

/-- Whether `a op b` holds. Readings of one variable have one value. -/
def compare (a : Reading) (op : Comparator) (b : Reading) : Bool :=
  if op = .strictEqual && a.ofSameVariable b then
    a.value.equalsItself
  else
    Value.compare a.value op b.value

end Reading

end Backtick
