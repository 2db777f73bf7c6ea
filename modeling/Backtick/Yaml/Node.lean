import Backtick.Fields
import Backtick.Yaml.Token

/-!
# Nodes

What tokens are put together to: scalars, lists and mappings. In a mapping the order of
the fields counts, and a key is a scalar that gives its field a name.
-/

namespace Backtick.Yaml

/-- A scalar, a list or a mapping; `absent` is a value that was not written. -/
inductive Node
  | absent
  | scalar (s : Scalar)
  | list (items : List Node)
  | map (fields : List (Scalar × Node))

namespace Node

/-- The fields that a key adds to those before it: its own, or for a merge key those of the
mapping, or of the list of mappings, behind it. -/
def addField? (fields : Fields Value) (key : Scalar) (v : Value) : Option (Fields Value) :=
  if key.style = .merge then
    match v with
    | .map more => some (fields.insertAll more)
    | .list items =>
        items.foldlM
          (fun fields item =>
            match item with
            | .map more => some (fields.insertAll more)
            | _ => none)
          fields
    | _ => none
  else
    some (fields.insert key.name v)

mutual

def value? : Node -> Option Value
  | .absent => some .null
  | .scalar s => some s.value
  | .list items => (values? items).map .list
  | .map fields => (fieldValues? [] fields).map .map

def values? : List Node -> Option (List Value)
  | [] => some []
  | n :: rest => do
      let v <- n.value?
      let more <- values? rest
      return v :: more

/-- The fields of a mapping, added to those before; of two with one name the later counts. -/
def fieldValues? (before : Fields Value) : List (Scalar × Node) -> Option (Fields Value)
  | [] => some before
  | (key, n) :: rest => do
      let v <- n.value?
      let fields <- addField? before key v
      fieldValues? fields rest

end

/-- The name that a scalar gives to a field of a document: null gives an empty one. -/
def outerName (key : Scalar) : Bytes :=
  match key.value with
  | .null => []
  | _ => key.name

/-- The fields of a document, added to those before; but for those of merge keys, their names
have to differ. -/
def outerFields? (names : List Bytes) (before : Fields Value) :
    List (Scalar × Node) -> Option (Fields Value)
  | [] => some before
  | (key, n) :: rest => do
      let v <- n.value?
      if key.style = .merge then
        let fields <- addField? before key v
        outerFields? names fields rest
      else if names.contains (outerName key) then
        none
      else
        outerFields? (outerName key :: names) (before.insert (outerName key) v) rest

end Node

end Backtick.Yaml
