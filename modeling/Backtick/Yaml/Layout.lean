import Backtick.Yaml.Node

/-!
# Nodes by line and column

Tokens are put together to nodes. A mapping goes on as long as keys stand in its own column, a
list as long as dashes do, and what stands further right belongs to their last value. The value
of a key may stand in the column of the key itself if it is no key and no mapping in brackets.
Between brackets commas separate the fields and elements.
-/

namespace Backtick.Yaml

def startsKey : List Token -> Bool
  | key :: next :: _ => key.scalar?.isSome && next.isMark .colon
  | _ => false

/-- The scalar on the line of a key that is its value, if nothing but a scalar stands there. -/
def sameLine? (key : Token) (ts : List Token) : Option Scalar :=
  match ts with
  | t :: _ => if t.line = key.line && !startsKey ts then t.scalar? else none
  | [] => none

/-- The key that a scalar before a colon is. Outside of brackets it stands on one line with
its colon. Inside, the break may stand between the two if the key is a plain string or in
quotes. -/
def keyOf? (flow : Bool) (t colon : Token) : Option Scalar :=
  match t.scalar? with
  | none => none
  | some s =>
      let isWord : Bool :=
        match s.value with
        | .string _ => true
        | _ => false
      if s.style = .block || t.lastLine ≠ t.line then none
      else if colon.line ≠ t.line && !(flow && isWord) then none
      else some s

/-- The fields of a mapping so far, the last first, with the texts that keys cannot have any
more. -/
structure Entries where
  texts : List Bytes
  fields : List (Scalar × Node)

namespace Entries

def empty : Entries := ⟨[], []⟩

/-- Adds a field; a key that was written before has no place. -/
def add? (e : Entries) (key : Scalar) (n : Node) : Option Entries :=
  if e.texts.contains key.text then none
  else some ⟨key.text :: e.texts, (key, n) :: e.fields⟩

def addAlone (e : Entries) (key : Scalar) : Entries :=
  { e with fields := (key, .absent) :: e.fields }

def node (e : Entries) : Node := .map e.fields.reverse

end Entries

def endsField (t : Token) : Bool :=
  t.isMark .comma || t.isMark .mapEnd

/-- Whether a token may stand behind a key and its value on one line. -/
def mayFollow (flow : Bool) (column : Nat) (ts : List Token) : Bool :=
  match ts with
  | [] => true
  | t :: _ => t.column ≤ column || (flow && (t.isMark .comma || t.isMark .listEnd))

mutual

/-- The node at the start of some tokens, and what is left; `flow` says that there are brackets
around. -/
def node? (fuel : Nat) (flow : Bool) (ts : List Token) : Option (Node × List Token) :=
  match fuel, ts with
  | fuel + 1, t :: rest =>
      if startsKey ts then
        blockFields? fuel flow t.column .empty ts
      else
        match t.mark with
        | .mapStart => flowFields? fuel true .empty rest
        | .listStart => (flowItems? fuel true rest).map fun (ns, rest) => (.list ns, rest)
        | .dash => (blockItems? fuel flow t.column ts).map fun (ns, rest) => (.list ns, rest)
        | .scalar s => some (.scalar s, rest)
        | _ => none
  | _, _ => none

/-- The fields of a mapping by the column of its keys, added to those before. -/
def blockFields? (fuel : Nat) (flow : Bool) (column : Nat) (entries : Entries)
    (ts : List Token) : Option (Node × List Token) :=
  match fuel, ts with
  | fuel + 1, t :: colon :: rest => do
      let key <- keyOf? flow t colon
      let (n, rest) <- fieldValue? fuel flow t rest
      let entries <- entries.add? key n
      match rest with
      | [] => return (entries.node, [])
      | next :: more =>
          if next.column ≠ column || (flow && next.isMark .listEnd) then
            return (entries.node, next :: more)
          else if startsKey (next :: more) then
            blockFields? fuel flow column entries (next :: more)
          else
            none
  | _, _ => none

def fieldValue? (fuel : Nat) (flow : Bool) (key : Token) (ts : List Token) :
    Option (Node × List Token) :=
  match fuel with
  | 0 => none
  | fuel + 1 =>
      match sameLine? key ts with
      | some s =>
          if mayFollow flow key.column (ts.drop 1) then some (.scalar s, ts.drop 1) else none
      | none =>
          match ts with
          | [] => some (.absent, [])
          | t :: _ =>
              if t.line = key.line && (startsKey ts || t.isMark .dash) then
                none
              else if t.column < key.column ||
                  (t.column = key.column && (startsKey ts || t.isMark .mapStart)) then
                some (.absent, ts)
              else
                node? fuel flow ts

def blockItems? (fuel : Nat) (flow : Bool) (column : Nat) (ts : List Token) :
    Option (List Node × List Token) :=
  match fuel, ts with
  | fuel + 1, t :: rest =>
      if t.isMark .dash && t.column = column then do
        let (n, rest) <-
          match rest with
          | [] => some (.absent, [])
          | next :: more =>
              if next.column < column || (next.column = column && next.isMark .dash) then
                some (.absent, next :: more)
              else
                node? fuel flow (next :: more)
        let (ns, rest) <- blockItems? fuel flow column rest
        return (n :: ns, rest)
      else
        some ([], ts)
  | _, [] => some ([], [])
  | 0, _ => none

def flowItems? (fuel : Nat) (first : Bool) (ts : List Token) :
    Option (List Node × List Token) :=
  match fuel, ts with
  | fuel + 1, t :: rest =>
      if t.isMark .listEnd then
        some ([], rest)
      else if t.isMark .comma = first then
        none
      else
        match if first then ts else rest with
        | [] => none
        | next :: more =>
            if next.isMark .listEnd then
              some ([], more)
            else do
              let (n, rest) <- node? fuel true (next :: more)
              let (ns, rest) <- flowItems? fuel false rest
              return (n :: ns, rest)
  | _, _ => none

/-- The fields of a mapping up to its bracket, added to those before. A comma may stand before
the first of them. -/
def flowFields? (fuel : Nat) (first : Bool) (entries : Entries) (ts : List Token) :
    Option (Node × List Token) :=
  match fuel, ts with
  | fuel + 1, t :: rest =>
      if t.isMark .mapEnd then
        some (entries.node, rest)
      else if !t.isMark .comma && !first then
        none
      else
        match if t.isMark .comma then rest else ts with
        | [] => none
        | next :: more =>
            if next.isMark .mapEnd then
              some (entries.node, more)
            else do
              let (entries, rest) <- flowField? fuel entries (next :: more)
              flowFields? fuel false entries rest
  | _, _ => none

/-- A field of a mapping in brackets: a key and its value, or a key alone. -/
def flowField? (fuel : Nat) (entries : Entries) (ts : List Token) :
    Option (Entries × List Token) :=
  match fuel, ts with
  | fuel + 1, t :: next :: rest =>
      if startsKey ts then do
        let key <- keyOf? true t next
        let (n, rest) <-
          match sameLine? t rest with
          | some s => some (.scalar s, rest.drop 1)
          | none =>
              if rest.head?.any endsField then some (.absent, rest) else node? fuel true rest
        let entries <- entries.add? key n
        return (entries, rest)
      else if endsField next then
        t.scalar?.map fun key => (entries.addAlone key, next :: rest)
      else
        none
  | _, _ => none

end

end Backtick.Yaml
