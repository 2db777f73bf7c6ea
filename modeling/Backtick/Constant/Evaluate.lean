import Backtick.Constant.Check
import Backtick.Constant.Read

/-!
# Values of constants

A checked constant is evaluated from the left. What decides nothing is not evaluated:
the branch that is not taken, and the second operand of `and`, `or` and `??` behind a
first that settles the matter.
-/

namespace Backtick.Constant

mutual

def value? : Constant -> Option Value
  | .nothing => some .null
  | .flag b => some (.bool b)
  | .integer n => some (.integer .int n)
  | .number x => some (.double x)
  | .string s => some (.string s)
  | .environment => some (.map [])
  | .list items => (values? items).map .list
  | .map fields => (fields? fields).map .map
  | .unary op c => (value? c).bind (unaryValue? op)
  | .binary .and a b =>
      match value? a with
      | some (.bool false) => some (.bool false)
      | some (.bool true) => value? b
      | _ => none
  | .binary .or a b =>
      match value? a with
      | some (.bool true) => some (.bool true)
      | some (.bool false) => value? b
      | _ => none
  | .binary .orElse a b =>
      match value? a with
      | some .null => value? b
      | v => v
  | .binary op a b =>
      match value? a, value? b with
      | some v, some w => binaryValue? op v w
      | _, _ => none
  | .choose c a b =>
      match value? c with
      | some (.bool true) => value? a
      | some (.bool false) => value? b
      | _ => none
  | .item base key =>
      match value? base, value? key with
      | some v, some w => item? v w
      | _, _ => none
  | .optional base key names =>
      match value? base with
      | some .null => some .null
      | some v =>
          match value? key with
          | some w =>
              names.foldl (fun found name => found.bind (item? · (.string name))) (item? v w)
          | none => none
      | none => none
  | .slice base start stop =>
      match value? base, value? start, value? stop with
      | some v, some i, some j => slice? v i j
      | _, _, _ => none
  | .after a b =>
      match value? a with
      | some _ => value? b
      | none => none

def values? : List Constant -> Option (List Value)
  | [] => some []
  | c :: rest =>
      match value? c, values? rest with
      | some v, some vs => some (v :: vs)
      | _, _ => none

/-- The fields of a mapping; of fields with one name the first counts. -/
def fields? : List (Constant × Constant) -> Option (Fields Value)
  | [] => some []
  | (key, c) :: rest =>
      match value? key, value? c, fields? rest with
      | some (.string name), some v, some fs => some (Fields.insert name v fs)
      | _, _, _ => none

end

def ofText? (text : Bytes) : Option Value := do
  let c <- read? text
  let checked <- check? c
  value? checked.constant

end Backtick.Constant
