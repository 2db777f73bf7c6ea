import Backtick.Number.Notation
import Backtick.Value.Json
import Backtick.Value.Text
import Backtick.Yaml.Read

/-!
# Configuration files

A configuration gives values to flags by name. Nested mappings are joined to their
key by a hyphen, an underscore counts as a hyphen, and numbers are taken as text.
-/

namespace Backtick

/-- Values by the names of flags. -/
abbrev Configuration := Fields Value

namespace Configuration

mutual

/-- A value as flags take it: numbers become text. -/
def scalar : Value -> Value
  | .integer .int n => .string (Bytes.ofInt n)
  | .integer .int64 n => .string (Bytes.ofInt n)
  | .integer .uint64 n => .string (Bytes.ofInt n)
  | .double x => .string (Notation.positional.write .double x)
  | .list items => .list (scalars items)
  | v => v

def scalars : List Value -> List Value
  | [] => []
  | v :: rest => scalar v :: scalars rest

end

/-- The name of a flag: a hyphen for each underscore. -/
def flagName (key : Bytes) : Bytes :=
  key.map fun b => if b = '_'.toUInt8 then '-'.toUInt8 else b

def below (outer key : Bytes) : Bytes :=
  if outer.isEmpty then flagName key else outer ++ "-" ++ flagName key

mutual

/-- Adds the value of a key, or the fields of the mapping that it holds. -/
def flattenValue (name : Bytes) (c : Configuration) : Value -> Configuration
  | .map fields => flattenFields name c fields
  | v => c.insert name (scalar v)

def flattenFields (outer : Bytes) (c : Configuration) : List (Bytes × Value) -> Configuration
  | [] => c
  | (key, v) :: rest => flattenFields outer (flattenValue (below outer key) c v) rest

end

/-- The configuration that the fields of a mapping below a key make. -/
def flatten (outer : Bytes) (fields : Fields Value) : Configuration :=
  flattenFields outer [] fields

/-- The value for a flag; null is none. -/
def resolve (c : Configuration) (flag : Bytes) : Value :=
  (c.get? flag).getD .null

/-- Reads a configuration; a text that is no mapping gives none. -/
def read? (text : Bytes) : Option Configuration :=
  (Yaml.read? text).map (flatten [])

/-- Reads a JSON configuration; null gives no values, and any other text that does not begin
with a mapping is refused. -/
def readJson? (text : Bytes) : Option (Fields Value) :=
  match Json.read? text with
  | some (.map fields) => some fields
  | some .null => some []
  | _ => none

/-- The other spelling of a flag in a JSON configuration: words run together. -/
def runTogether : Bytes -> Bytes
  | [] => []
  | b :: rest =>
      if b = '-'.toUInt8 then
        match rest with
        | c :: more => Bytes.toUpperByte c :: runTogether more
        | [] => []
      else
        b :: runTogether rest

def resolveJson (values : Fields Value) (flag : Bytes) : Value :=
  let spelled := flag.map fun b => if b = '-'.toUInt8 then '_'.toUInt8 else b
  ((values.get? spelled).or (values.get? (runTogether flag))).getD .null

/-- A value as a configuration file holds it; empty ones are left out. -/
def written? : Value -> Option Value
  | .null => none
  | .string s => if s.isEmpty then none else some (.string s)
  | .strings items => if items.isEmpty then none else some (.strings items)
  | .bool b => some (.bool b)
  | .integer kind n =>
      if [IntKind.int, .int64, .uint, .uint64].contains kind then some (.integer kind n)
      else some (.string (Bytes.ofInt n))
  | .double x => some (.double x)
  | v => some (.string v.shown)

end Configuration

end Backtick
