import Backtick.Yaml.Layout
import Backtick.Yaml.Tokens

/-!
# Reading YAML

A text holds one document or several. The first that has content must be a mapping, and
without content there is an empty one. The documents behind it are of no account, but they have
to be well formed.
-/

namespace Backtick.Yaml

/-- What stands behind the mark at the start of a document is neither a field nor an element
of a list, if it is on the same line. -/
def startsWell (mark : Token) (ts : List Token) : Bool :=
  match ts with
  | t :: _ => t.line ≠ mark.line || !(startsKey ts || t.isMark .dash)
  | [] => true

/-- The tokens of each document. A document that starts right behind the start of another is
not read, and neither is what follows it. -/
def documents? : List Token -> Option (List (List Token))
  | [] => some []
  | t :: rest =>
      if t.isMark .documentStart then
        if rest.head?.any (·.isMark .documentStart) then
          some [[], []]
        else if startsWell t rest then
          (documents? rest).map ([] :: ·)
        else
          none
      else if t.isMark .documentEnd then
        if rest.head?.any (·.scalar?.isSome) && !startsKey rest then none
        else (documents? rest).map ([] :: ·)
      else
        match documents? rest with
        | some (first :: more) => some ((t :: first) :: more)
        | some [] => some [[t]]
        | none => none

def document? (ts : List Token) : Option (Option Node) :=
  if ts.isEmpty then
    some none
  else
    match node? (4 * ts.length + 4) false ts with
    | some (n, []) => some (some n)
    | _ => none

def firstFields? : List (Option Node) -> Option (Fields Value)
  | [] => some []
  | none :: rest => firstFields? rest
  | some (.map fields) :: _ => Node.outerFields? [] [] fields
  | some _ :: _ => none

def read? (text : Bytes) : Option (Fields Value) := do
  let tokens <- tokens? (feedLines (Utf8.chars text))
  let parts <- documents? tokens
  let nodes <- parts.mapM document?
  if nodes.any fun n => n.any fun n => n.value?.isNone then none else firstFields? nodes

end Backtick.Yaml
