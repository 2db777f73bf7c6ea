import Backtick.Fields
import Backtick.Number.Binary64

/-!
# Values

The values a variable can hold. Integers keep their width, because equality of
lists and the text of a type depend on it.
-/

namespace Backtick

inductive IntKind
  | int
  | int8
  | int16
  | int32
  | int64
  | uint
  | uint8
  | uint16
  | uint32
  | uint64
deriving DecidableEq, Repr

namespace IntKind

def name : IntKind -> Bytes
  | .int => "int"
  | .int8 => "int8"
  | .int16 => "int16"
  | .int32 => "int32"
  | .int64 => "int64"
  | .uint => "uint"
  | .uint8 => "uint8"
  | .uint16 => "uint16"
  | .uint32 => "uint32"
  | .uint64 => "uint64"

def isUnsigned : IntKind -> Bool
  | .uint | .uint8 | .uint16 | .uint32 | .uint64 => true
  | _ => false

end IntKind

/-- What an empty reference could have referred to. -/
inductive RefKind
  | string
  | int
  | list
deriving DecidableEq, Repr

/-- The value of a variable or of an evaluated expression. -/
inductive Value
  | null
  | bool (b : Bool)
  | string (s : Bytes)
  | integer (kind : IntKind) (n : Int)
  | double (x : Binary64)
  | single (x : Binary64)
  | list (items : List Value)
  | map (fields : List (Bytes × Value))
  | strings (items : List Bytes)
  | integers (items : List Int)
  | bytes (b : Bytes)
  | array (items : List Value)
  | ref (target : Value)
  | emptyRef (kind : RefKind)
  | duration (nanoseconds : Int)

namespace Value

instance : Inhabited Value := ⟨.null⟩

def typeName : Value -> Bytes
  | .null => "<nil>"
  | .bool _ => "bool"
  | .string _ => "string"
  | .integer kind _ => kind.name
  | .double _ => "float64"
  | .single _ => "float32"
  | .list _ => "[]interface \x7b\x7d"
  | .map _ => "map[string]interface \x7b\x7d"
  | .strings _ => "[]string"
  | .integers _ => "[]int"
  | .bytes _ => "[]uint8"
  | .array items => "[" ++ Bytes.ofNat items.length ++ "]interface \x7b\x7d"
  | .ref target => "*" ++ target.typeName
  | .emptyRef .string => "*string"
  | .emptyRef .int => "*int"
  | .emptyRef .list => "*[]interface \x7b\x7d"
  | .duration _ => "time.Duration"

def number? : Value -> Option Binary64
  | .integer _ n => some (Binary64.ofInt n)
  | .double x => some x
  | .single x => some x
  | _ => none

/-- Whether a value counts as true: false, zero, not-a-number, empty text and null do not. -/
def truthy : Value -> Bool
  | .null => false
  | .bool b => b
  | .string s => !s.isEmpty
  | .integer _ n => n != 0
  | .double x => !x.isZero && !x.isNaN
  | .single x => !x.isZero && !x.isNaN
  | _ => true

end Value

end Backtick
