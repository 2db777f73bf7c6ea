import Backtick.Constant.Operation

/-!
# Kinds of constants

Before a constant is evaluated its operators are checked against the kinds of their
operands, in branches that are never taken as well. Then operators on literals are
worked out, and a side of `and` or `or` that decides nothing is dropped. An item of a
mapping can be of any kind, and an open kind passes where one of the kinds that an
operator takes would.
-/

namespace Backtick.Constant

inductive Kind
  /-- Nothing is known of the value. -/
  | unknown
  /-- The value is of one kind or another. -/
  | any
  | nothing
  | flag
  | integer
  | number
  | string
  | list (element : Kind)
  | map
deriving DecidableEq, Repr

namespace Kind

/-- Whether a value of the kind can be of several kinds. -/
def isOpen : Kind -> Bool
  | .unknown | .any => true
  | _ => false

def isNumeric : Kind -> Bool
  | .integer | .number => true
  | _ => false

/-- Whether two kinds count as one among the elements of a list: whatever the elements of
lists are, and a value of which nothing is known goes with nothing. -/
def alike : Kind -> Kind -> Bool
  | .list _, .list _ => true
  | .unknown, .nothing | .nothing, .unknown => true
  | a, b => a == b

/-- Whether both operands have a kind that a test accepts, or may have. -/
def both (accepts : Kind -> Bool) (a b : Kind) : Bool :=
  (a.isOpen || accepts a) && (b.isOpen || accepts b)

/-- Whether a value of the first kind can stand where one of the second is wanted. -/
def fits : Kind -> Kind -> Bool
  | .nothing, .any | .nothing, .list _ | .nothing, .map => true
  | .nothing, _ | .unknown, _ | _, .nothing | _, .unknown => false
  | _, .any => true
  | .list _, .list _ => true
  | a, b => a == b

/-- Whether values of two kinds can be equal. -/
def comparable (a b : Kind) : Bool :=
  a.isOpen || b.isOpen || a == .nothing || b == .nothing || (a.isNumeric && b.isNumeric) ||
    fits a b

def known (a b result : Kind) : Kind :=
  if a.isOpen || b.isOpen then .unknown else result

/-- The kind of a whole-number result that a fraction makes fractional. -/
def wider (a b : Kind) : Kind :=
  if a == .number || b == .number then .number else .integer

/-- The common kind of two branches. -/
def join (a b : Kind) : Kind :=
  if a == .nothing then b
  else if b == .nothing then a
  else if !fits a b then .unknown
  else
    match a, b with
    | .list e, .list f => if fits e f && fits f e then a else .list .any
    | _, _ => a

/-- The kind of a value or, if it is nothing, of another. -/
def orElse (a b : Kind) : Kind :=
  if a == .nothing then b
  else if b == .nothing || fits b a then a
  else .unknown

end Kind

/-- The kind of an operator's result, if its operand fits. -/
def unaryKind? (op : UnaryOp) (k : Kind) : Option Kind :=
  match op with
  | .not => if k == .flag || k.isOpen then some .flag else none
  | .negate | .keep =>
      if k.isNumeric then some k
      else if k.isOpen then some .unknown
      else none

def binaryKind? (op : BinaryOp) (a b : Kind) : Option Kind :=
  let given (passes : Bool) (k : Kind) : Option Kind := if passes then some k else none
  let numeric := Kind.both Kind.isNumeric a b
  let wholes := Kind.both (· == .integer) a b
  let strings := Kind.both (· == .string) a b
  match op with
  | .or | .and => given (Kind.both (· == .flag) a b) .flag
  | .equal | .unequal => given (Kind.comparable a b) .flag
  | .less | .lessEqual | .greater | .greaterEqual => given (numeric || strings) .flag
  | .within =>
      match b with
      | .unknown | .any => some .flag
      | .map => given (a.isOpen || a == .string) .flag
      | .list element => given (Kind.comparable a element) .flag
      | .string => given a.isOpen .flag
      | _ => none
  | .contains | .startsWith | .endsWith => given strings .flag
  | .range => given wholes (.list .integer)
  | .add =>
      if numeric then some (Kind.known a b (Kind.wider a b))
      else given strings (Kind.known a b .string)
  | .subtract | .multiply => given numeric (Kind.known a b (Kind.wider a b))
  | .divide | .power => given numeric .number
  | .remainder => given wholes .integer
  | .orElse => some (Kind.orElse a b)
  | .equalWholes | .amongWholes => given wholes .flag
  | .equalTexts | .amongTexts => given strings .flag

def itemKind? (base key : Kind) : Option Kind :=
  match base with
  | .unknown | .any => some .unknown
  | .map => if key.isOpen || key == .string then some .any else none
  | .list element => if key.isOpen || key == .integer then some element else none
  | _ => none

def sliceKind? (base start stop : Kind) : Option Kind :=
  let bounds := (start.isOpen || start == .integer) && (stop.isOpen || stop == .integer)
  match base with
  | .unknown | .any => some .unknown
  | .string | .list _ => if bounds then some base else none
  | _ => none

/-- The kind of a list: that of its elements if they agree. -/
def listKind (kinds : List Kind) : Kind :=
  match kinds.getLast? with
  | none => .list .unknown
  | some last => if kinds.all (Kind.alike last) then .list last else .list .any

def literal? : Constant -> Option Value
  | .integer n => some (.integer .int n)
  | .number x => some (.double x)
  | .string s => some (.string s)
  | _ => none

def ofLiteral? : Value -> Option Constant
  | .integer _ n => some (.integer n)
  | .double x => some (.number x)
  | .string s => some (.string s)
  | _ => none

/-- An operator on one operand, worked out if it is a literal. -/
def foldUnary : UnaryOp -> Constant -> Constant
  | .not, .flag b => .flag !b
  | .negate, .integer n => .integer (Int.bmod (-n) (Nat.pow 2 64))
  | .negate, .number x => .number x.neg
  | .keep, .integer n => .integer n
  | .keep, .number x => .number x
  | op, c => .unary op c

/-- Two operands of which both have to hold, without one that always does. -/
def foldAnd : Constant -> Constant -> Constant
  | .flag true, b => b
  | a, .flag true => a
  | .flag false, _ => .flag false
  | _, .flag false => .flag false
  | a, b => .binary .and a b

/-- Two operands of which one has to hold, without one that never does. -/
def foldOr : Constant -> Constant -> Constant
  | .flag false, b => b
  | a, .flag false => a
  | .flag true, _ => .flag true
  | _, .flag true => .flag true
  | a, b => .binary .or a b

/-- The equality of two operands of the same known kind, if it has an operator. -/
def equality : Kind -> Kind -> BinaryOp
  | .integer, .integer => .equalWholes
  | .string, .string => .equalTexts
  | _, _ => .equal

/-- The equality of operands, worked out if they are literals of one kind. -/
def foldEqual (k l : Kind) : Constant -> Constant -> Constant
  | .integer m, .integer n => .flag (m = n)
  | .string s, .string t => .flag (s = t)
  | .flag b, .flag c => .flag (b = c)
  | a, b => .binary (equality k l) a b

def isWhole : Constant -> Bool
  | .integer _ => true
  | _ => false

def isText : Constant -> Bool
  | .string _ => true
  | _ => false

/-- The operator for membership in a list as it is written. -/
def membership (k : Kind) : Constant -> BinaryOp
  | .list items =>
      if items.isEmpty then .within
      else if k == .integer && items.all isWhole then .amongWholes
      else if items.all isText then .amongTexts
      else .within
  | _ => .within

/-- Membership; a whole number is in a range of literals if it lies between them. -/
def foldWithin (op : BinaryOp) (k : Kind) (a b : Constant) : Constant :=
  match b with
  | .binary .range (.integer m) (.integer n) =>
      if k == .integer then
        .binary .and (.binary .greaterEqual a (.integer m)) (.binary .lessEqual a (.integer n))
      else
        .binary op a b
  | _ => .binary op a b

/-- An operation on numbers or strings, worked out if both are literals; it may have no value. -/
def foldArithmetic? (op : BinaryOp) (a b : Constant) : Option Constant :=
  match literal? a, literal? b with
  | some v, some w => (binaryValue? op v w).bind ofLiteral?
  | _, _ => some (.binary op a b)

structure Checked where
  kind : Kind
  constant : Constant

/-- An operator on checked operands; `written` is the second as it was written. -/
def checkBinary? (op : BinaryOp) (a b : Checked) (written : Constant) : Option Checked := do
  let k <- binaryKind? op a.kind b.kind
  let c <- match op with
    | .and => some (foldAnd a.constant b.constant)
    | .or => some (foldOr a.constant b.constant)
    | .equal => some (foldEqual a.kind b.kind a.constant b.constant)
    | .unequal =>
        some (.unary .not (.binary (equality a.kind b.kind) a.constant b.constant))
    | .within => some (foldWithin (membership a.kind written) a.kind a.constant b.constant)
    | .add | .subtract | .multiply | .divide | .remainder | .power =>
        foldArithmetic? op a.constant b.constant
    | _ => some (.binary op a.constant b.constant)
  return ⟨k, c⟩

/-- Whether an item is a variable by its name, of which there is none. -/
def isVariable : Constant -> Constant -> Bool
  | .environment, .string _ => true
  | _, _ => false

mutual

/-- A constant whose operators all fit their operands, with operators on literals worked out. -/
def check? : Constant -> Option Checked
  | .nothing => some ⟨.nothing, .nothing⟩
  | .flag b => some ⟨.flag, .flag b⟩
  | .integer n => some ⟨.integer, .integer n⟩
  | .number x => some ⟨.number, .number x⟩
  | .string s => some ⟨.string, .string s⟩
  | .environment => some ⟨.unknown, .environment⟩
  | .list items =>
      (checkItems? items).map fun checked =>
        ⟨listKind (checked.map Checked.kind), .list (checked.map Checked.constant)⟩
  | .map fields => (checkFields? fields).map fun checked => ⟨.map, .map checked⟩
  | .unary op c =>
      match check? c with
      | some a => (unaryKind? op a.kind).map fun k => ⟨k, foldUnary op a.constant⟩
      | none => none
  | .binary op a b =>
      match check? a, check? b with
      | some l, some r => checkBinary? op l r b
      | _, _ => none
  | .choose c a b =>
      match check? c, check? a, check? b with
      | some test, some yes, some no =>
          if test.kind == .flag || test.kind.isOpen then
            some ⟨Kind.join yes.kind no.kind,
              .choose test.constant yes.constant no.constant⟩
          else
            none
      | _, _, _ => none
  | .item base key =>
      match check? base, check? key with
      | some b, some k =>
          if isVariable base key then none
          else (itemKind? b.kind k.kind).map fun kind => ⟨kind, .item b.constant k.constant⟩
      | _, _ => none
  | .optional base key names =>
      match check? base, check? key with
      | some b, some k =>
          let first := itemKind? b.kind k.kind
          let last := names.foldl (fun kind _ => kind.bind (itemKind? · .string)) first
          last.map fun kind => ⟨kind, .optional b.constant k.constant names⟩
      | _, _ => none
  | .slice base start stop =>
      match check? base, check? start, check? stop with
      | some b, some i, some j =>
          (sliceKind? b.kind i.kind j.kind).map fun kind =>
            ⟨kind, .slice b.constant i.constant j.constant⟩
      | _, _, _ => none
  | .after a b =>
      match check? a, check? b with
      | some first, some second => some ⟨second.kind, .after first.constant second.constant⟩
      | _, _ => none

def checkItems? : List Constant -> Option (List Checked)
  | [] => some []
  | c :: rest =>
      match check? c, checkItems? rest with
      | some a, some others => some (a :: others)
      | _, _ => none

def checkFields? : List (Constant × Constant) -> Option (List (Constant × Constant))
  | [] => some []
  | (key, c) :: rest =>
      match check? key, check? c, checkFields? rest with
      | some k, some a, some others => some ((k.constant, a.constant) :: others)
      | _, _, _ => none

end

end Backtick.Constant
