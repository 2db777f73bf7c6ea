import Backtick.Bytes.Basic

/-!
# Signatures of calls

The call whose arguments the cursor is in, and the parameters of the reserved
words that take arguments.
-/

namespace Backtick

/-- The parameters of the words that take arguments. -/
def signatures : List (Bytes × List Bytes) :=
  [ ("IF", ["condition", "then", "else"]), ("GET", ["name"]), ("LENGTH", ["value"]) ]

/-- The parameters of a word, if it takes arguments. -/
def parameters? (name : Bytes) : Option (List Bytes) :=
  signatures.lookup name

/-- The signature of a word; empty if it takes no arguments. -/
def signatureHint (name : Bytes) : Bytes :=
  match parameters? name with
  | none => []
  | some params => name ++ "(" ++ Bytes.join ", " params ++ ")"

/-- A call, and the index of the argument that the cursor is in. -/
structure OpenCall where
  name : Bytes
  argument : Nat
deriving DecidableEq, Repr

namespace OpenCall

def isNameByte (b : UInt8) : Bool :=
  b = '_'.toUInt8 || Bytes.isLetter b || Bytes.isDigit b

/--
Walks back over a reversed text to a parenthesis that is not closed, with `depth`
closed ones to pass. The answer is the reversed text before it and the text after it.
-/
def lastOpen? (depth : Nat) (after : Bytes) : Bytes -> Option (Bytes × Bytes)
  | [] => none
  | b :: before =>
      if b = ')'.toUInt8 then
        lastOpen? (depth + 1) (b :: after) before
      else if b = '('.toUInt8 then
        match depth with
        | 0 => some (before, after)
        | depth + 1 => lastOpen? depth (b :: after) before
      else
        lastOpen? depth (b :: after) before

structure Count where
  quote : Option UInt8
  depth : Int
  commas : Nat

/-- Counts the commas that are in no string and in no further parentheses. -/
def Count.step (c : Count) (b : UInt8) : Count :=
  match c.quote with
  | some q => if b = q then { c with quote := none } else c
  | none =>
      if b = '\''.toUInt8 || b = '"'.toUInt8 then { c with quote := some b }
      else if b = '('.toUInt8 then { c with depth := c.depth + 1 }
      else if b = ')'.toUInt8 then { c with depth := c.depth - 1 }
      else if b = ','.toUInt8 && c.depth = 0 then { c with commas := c.commas + 1 }
      else c

def commas (arguments : Bytes) : Nat :=
  (arguments.foldl Count.step ⟨none, 0, 0⟩).commas

/-- The innermost call that is open at a position. -/
def at? (text : Bytes) (cursor : Nat) : Option OpenCall :=
  match lastOpen? 0 [] (text.take cursor).reverse with
  | none => none
  | some (before, arguments) =>
      let name := (before.takeWhile isNameByte).reverse
      if name.isEmpty then none else some ⟨name, commas arguments⟩

end OpenCall

end Backtick
