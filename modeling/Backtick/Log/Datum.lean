import Backtick.Time.Moment
import Backtick.Value.Basic

/-!
# Attributes of log records

An attribute is a key with a datum. Data may be grouped, and a failure carries
its message and, if it describes itself, the attributes that do so.
-/

namespace Backtick.Log

/-- What an attribute holds. -/
inductive Datum
  | text (s : Bytes)
  | int (n : Int)
  | natural (n : Nat)
  | number (x : Binary64)
  | flag (b : Bool)
  | duration (nanoseconds : Int)
  | moment (t : Moment)
  | group (attrs : List (Bytes × Datum))
  | value (v : Value)
  | names (items : List Bytes)
  | message (s : Bytes)
  | failure (message : Bytes) (detail : List (Bytes × Datum))

instance : Inhabited Datum := ⟨.group []⟩

abbrev Attr := Bytes × Datum

namespace Datum

/-- The datum of a value: scalars are data of their own kind. -/
def ofValue : Value -> Datum
  | .string s => .text s
  | .bool b => .flag b
  | .integer kind n => if kind.isUnsigned then .natural n.toNat else .int n
  | .double x => .number x
  | .single x => .number x
  | .duration n => .duration n
  | v => .value v

/-- The datum of a moment; the one that stands for none is in no zone of its own. -/
def ofMoment (m : Moment) : Datum :=
  .moment (if m.isUnset then .unset else m)

def isEmptyGroup : Datum -> Bool
  | .group [] => true
  | _ => false

/-- A group of attributes; groups without attributes are left out of it. -/
def ofAttrs (attrs : List Attr) : Datum :=
  .group (attrs.filter fun a => !a.2.isEmptyGroup)

/-- A datum that describes itself is replaced by the group that it stands for. -/
def resolve : Datum -> Datum
  | .failure _ detail => .group detail
  | d => d

end Datum

/-- Whether an attribute has neither a key nor a value. -/
def Attr.isBlank : Attr -> Bool
  | ([], .value .null) => true
  | _ => false

end Backtick.Log
