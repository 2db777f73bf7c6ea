import Backtick.Bytes.Basic

/-!
# Named fields

A finite map from names to entries, kept as a list in the byte order of the
names. Every listing of names and every printed mapping follows this order.
-/

namespace Backtick

/-- Entries by name, in the order of the names. -/
abbrev Fields (α : Type) := List (Bytes × α)

namespace Fields

variable {α : Type}

/-- The fields with one entry set; an entry of the same name is replaced. -/
def insert (name : Bytes) (entry : α) : Fields α -> Fields α
  | [] => [(name, entry)]
  | (other, old) :: rest =>
      match Bytes.order name other with
      | .lt => (name, entry) :: (other, old) :: rest
      | .eq => (name, entry) :: rest
      | .gt => (other, old) :: insert name entry rest

def get? (fields : Fields α) (name : Bytes) : Option α :=
  fields.lookup name

def erase (fields : Fields α) (name : Bytes) : Fields α :=
  fields.filter fun field => field.1 != name

def names (fields : Fields α) : List Bytes :=
  fields.map Prod.fst

/-- Sets every entry of a list, from the left. -/
def insertAll (fields : Fields α) (entries : List (Bytes × α)) : Fields α :=
  entries.foldl (fun acc entry => acc.insert entry.1 entry.2) fields

/-- The fields of a list of entries; of two with one name the later counts. -/
def ofList (entries : List (Bytes × α)) : Fields α :=
  insertAll [] entries

end Fields

end Backtick
