import Backtick.Log.Event
import Backtick.Template.Evaluate
import Backtick.Text.Fuzzy
import Backtick.Variables.Policy

/-!
# Stores of variables

A store holds values by name. Asked for an unknown name it follows its policy,
reports to the log and, when it refuses, suggests similar names.
-/

namespace Backtick

/-- Values by name, with a policy for the names it does not hold. -/
structure Store where
  values : Fields Value
  policy : Policy

namespace Store

def empty (policy : Policy) : Store :=
  ⟨[], policy⟩

def sampleValues : Fields Value :=
  Fields.ofList
    [ ("NUMBER_5", .integer .int 5), ("STRING_ABC", .string "ABC"),
      ("STRING_PATH", .string "./@param"),
      ("ARR", .list [.integer .int 1, .integer .int 2, .integer .int 3]) ]

def set (s : Store) (name : Bytes) (v : Value) : Store :=
  { s with values := s.values.insert name v }

/-- Sets every value of a mapping. -/
def merge (s : Store) (values : Fields Value) : Store :=
  { s with values := s.values.insertAll values }

/-- Drops all values and holds those of a mapping instead. -/
def replace (s : Store) (values : Fields Value) : Store :=
  { s with values := Fields.ofList values }

def delete (s : Store) (name : Bytes) : Store :=
  { s with values := s.values.erase name }

def lookup (s : Store) (name : Bytes) : Option Value :=
  s.values.get? name

def names (s : Store) : List Bytes :=
  s.values.names

/-- How many names are suggested at most. -/
def maxSuggestions : Nat := 3

/--
Names similar to a given one, the best first. If none matches the name, those
are taken that the name contains.
-/
def suggest (s : Store) (name : Bytes) : List Bytes :=
  let found := (Text.fuzzyFind name s.names).map Text.Match.text
  let similar :=
    if found.isEmpty then
      s.names.filter fun n => !(Text.fuzzyFind n [name]).isEmpty
    else
      found
  similar.take maxSuggestions

def undefinedFault (s : Store) (name : Bytes) : Fault :=
  let similar := s.suggest name
  let hint : Bytes :=
    if similar.isEmpty then [] else " (did you mean " ++ Bytes.join ", " similar ++ "?)"
  ((Fault.ofKind .undefined).because (Text.quote name ++ hint)).withAttrs
    [("name", .text name)]

/-- The answer to a name: its value, or what the policy says. -/
def get (s : Store) (name : Bytes) : Except Fault Value :=
  match s.lookup name with
  | some v => .ok v
  | none =>
      match s.policy with
      | .placeholder => .ok (.string Policy.placeholderText)
      | .empty => .ok .null
      | _ => .error (s.undefinedFault name)

/-- The length of a value; a false, zero or empty one has none. -/
def length (v : Value) : Except Fault Int :=
  if v.truthy then v.length else .ok 0

def bindings (s : Store) : Bindings :=
  ⟨s.get, length⟩

def report (s : Store) (name : Bytes) : List Log.Event :=
  match s.lookup name with
  | some _ => []
  | none =>
      [⟨.debug, "undefined variable", [("name", .text name), ("policy", .text s.policy.name)]⟩]

/-- The reports of all questions that an evaluation put to the store. -/
def reports (s : Store) (calls : List Call) : List Log.Event :=
  calls.flatMap fun
    | .get name => s.report name
    | .length _ => []

end Store

/-- Bindings over plain values: an unknown name is null. -/
def Bindings.ofFields (values : Fields Value) : Bindings :=
  ⟨fun name => .ok ((values.get? name).getD .null), Value.length⟩

end Backtick
