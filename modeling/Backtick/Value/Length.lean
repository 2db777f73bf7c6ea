import Backtick.Bytes.Utf8
import Backtick.Fault.Basic
import Backtick.Value.Basic

/-!
# The length of a value

A string has as many characters as it has, a list or mapping its number of
elements, null none. Other values have no length.
-/

namespace Backtick

def notSized (v : Value) : Fault :=
  (Fault.ofKind .notSized).because v.typeName

/-- The number of elements or characters of a value. -/
def Value.length : Value -> Except Fault Int
  | .null => .ok 0
  | .string s => .ok (Utf8.count s)
  | .list items => .ok items.length
  | .map fields => .ok fields.length
  | .strings items => .ok items.length
  | .integers items => .ok items.length
  | .bytes b => .ok b.length
  | .array items => .ok items.length
  | .ref target => target.length
  | .emptyRef _ => .ok 0
  | v => .error (notSized v)

end Backtick
