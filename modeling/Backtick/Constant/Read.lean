import Backtick.Constant.Basic
import Backtick.Constant.Lexeme
import Backtick.Number.Numeral

/-!
# Reading constants

Operators bind by their strength, comparisons can be chained, and a choice binds
weakest. A name is an error, apart from the literals that are words and the names
of functions, which denote nothing unless they are called.
-/

namespace Backtick.Constant

abbrev Reader := List Lexeme -> Option (Constant × List Lexeme)

def functionNames : List String :=
  [ "all", "none", "any", "one", "filter", "map", "find", "findIndex", "findLast",
    "findLastIndex", "count", "sum", "groupBy", "sortBy", "reduce", "len", "type", "abs",
    "ceil", "floor", "round", "int", "float", "string", "trim", "trimPrefix", "trimSuffix",
    "upper", "lower", "split", "splitAfter", "replace", "repeat", "join", "indexOf",
    "lastIndexOf", "hasPrefix", "hasSuffix", "max", "min", "mean", "median", "toJSON",
    "fromJSON", "toBase64", "fromBase64", "now", "duration", "date", "timezone", "first",
    "last", "get", "take", "keys", "values", "toPairs", "fromPairs", "reverse", "uniq",
    "concat", "flatten", "sort", "bitand", "bitor", "bitxor", "bitnand", "bitshl", "bitshr",
    "bitushr", "bitnot" ]

/-- The value of digits in a base; an underscore is no digit. -/
def digitsValue? (base : Nat) (cs : List Char) : Option Nat :=
  if cs.isEmpty then
    none
  else
    cs.foldl (fun acc c => acc.bind fun n => (Text.digit? base c).map (n * base + ·)) (some 0)

/-- An integer that fits into 64 bits with its sign. -/
def integer? (base : Nat) (cs : List Char) : Option Constant :=
  match digitsValue? base cs with
  | some n => if n < Nat.pow 2 63 then some (.integer n) else none
  | none => none

def numberOf? (text : List Char) : Option Constant :=
  let plain := (text.filter (· ≠ '_')).map Char.toLower
  match plain with
  | '0' :: 'x' :: rest => integer? 16 rest
  | _ =>
      if plain.any fun c => c = '.' || c = 'e' then
        (Numeral.read? (Utf8.ofChars plain)).map .number
      else
        match plain with
        | '0' :: 'b' :: rest => integer? 2 rest
        | '0' :: 'o' :: rest => integer? 8 rest
        | _ => integer? 10 plain

def ofName? (text : List Char) : Option Constant :=
  let name := String.ofList text
  if name = "true" then some (.flag true)
  else if name = "false" then some (.flag false)
  else if name = "nil" then some .nothing
  else if name = "$env" then some .environment
  else if functionNames.contains name then some .nothing
  else none

/-- The rest after a symbol that must come next. -/
def expect? (text : String) : List Lexeme -> Option (List Lexeme)
  | .symbol s :: rest => if s = text then some rest else none
  | _ => none

def memberName? : List Lexeme -> Option (Bytes × List Lexeme)
  | .name text :: rest => some (Utf8.ofChars text, rest)
  | .symbol s :: rest => if symbolWords.contains s then some (Bytes.ofString s, rest) else none
  | _ => none

/-- The end of a slice that goes to the end of what it is taken from. -/
def sliceEnd : Int := Nat.pow 2 63 - 1

/-- A member of a base by its name; a member of an optional item is optional with it. -/
def member (base : Constant) (name : Bytes) : Constant :=
  match base with
  | .optional outer key names => .optional outer key (names ++ [name])
  | _ => .item base (.string name)

/-- The operator that a symbol starts, with the rest and whether it is negated. -/
def operator? : List Lexeme -> Option (BinaryOp × Bool × List Lexeme)
  | .symbol "not" :: .symbol s :: rest =>
      match BinaryOp.ofSymbol? s with
      | some op => if op.negatable then some (op, true, rest) else none
      | none => none
  | .symbol s :: rest => (BinaryOp.ofSymbol? s).map fun op => (op, false, rest)
  | _ => none

mutual

/-- A constant whose operators bind at least as tightly as `least`. -/
def readAt (fuel least : Nat) : Reader := fun ls =>
  match fuel with
  | 0 => none
  | fuel + 1 =>
      match readOperand fuel ls with
      | none => none
      | some (left, rest) =>
          match readOperators fuel least none left rest with
          | none => none
          | some (c, rest) => if least = 0 then readChoices fuel c rest else some (c, rest)

def readOperators (fuel least : Nat) (before : Option BinaryOp) (left : Constant) : Reader :=
  fun ls =>
  match fuel with
  | 0 => none
  | fuel + 1 =>
      match operator? ls with
      | none => some (left, ls)
      | some (op, negated, rest) =>
          if op.strength < least then
            some (left, ls)
          else if before = some .orElse && op ≠ .orElse then
            none
          else if op.chains then
            match readComparisons fuel left op none rest with
            | none => none
            | some (c, rest) => readOperators fuel least (some op) c rest
          else
            match readAt fuel op.rightStrength rest with
            | none => none
            | some (right, rest) =>
                let c := Constant.binary op left right
                let c := if negated then .unary .not c else c
                readOperators fuel least (some op) c rest

/-- A chain of comparisons: each pair of neighbours must compare. -/
def readComparisons (fuel : Nat) (left : Constant) (op : BinaryOp) (sofar : Option Constant) :
    Reader := fun ls =>
  match fuel with
  | 0 => none
  | fuel + 1 =>
      match readAt fuel op.rightStrength ls with
      | none => none
      | some (right, rest) =>
          let pair := Constant.binary op left right
          let all := sofar.elim pair fun c => .binary .and c pair
          match operator? rest with
          | some (next, _, more) =>
              if next.chains then readComparisons fuel right next (some all) more
              else some (all, rest)
          | none => some (all, rest)

def readChoices (fuel : Nat) (condition : Constant) : Reader := fun ls =>
  match fuel with
  | 0 => none
  | fuel + 1 =>
      match ls with
      | .symbol "?" :: .symbol ":" :: rest =>
          match readAt fuel 0 rest with
          | none => none
          | some (no, rest) => readChoices fuel (.choose condition condition no) rest
      | .symbol "?" :: rest =>
          match readAt fuel 0 rest with
          | none => none
          | some (yes, rest) =>
              match expect? ":" rest with
              | none => none
              | some rest =>
                  match readAt fuel 0 rest with
                  | none => none
                  | some (no, rest) => readChoices fuel (.choose condition yes no) rest
      | _ => some (condition, ls)

def readOperand (fuel : Nat) : Reader := fun ls =>
  match fuel with
  | 0 => none
  | fuel + 1 =>
      match ls with
      | .number text :: rest =>
          match numberOf? text with
          | none => none
          | some c => readItems fuel c rest
      | .string s :: rest => readItems fuel (.string s) rest
      | .name text :: rest =>
          match ofName? text with
          | none => none
          | some c => readItems fuel c rest
      | .symbol "(" :: rest =>
          match readSequence fuel rest with
          | none => none
          | some (c, rest) =>
              match expect? ")" rest with
              | none => none
              | some rest => readItems fuel c rest
      | .symbol "[" :: rest =>
          match readList fuel true rest with
          | none => none
          | some (items, rest) => readItems fuel (.list items) rest
      | .symbol "\x7b" :: rest =>
          match readMap fuel true rest with
          | none => none
          | some (fields, rest) => readItems fuel (.map fields) rest
      | .symbol s :: rest =>
          match UnaryOp.ofSymbol? s with
          | none => none
          | some op =>
              match readAt fuel op.strength rest with
              | none => none
              | some (c, rest) => readItems fuel (.unary op c) rest
      | [] => none

def readItems (fuel : Nat) (base : Constant) : Reader := fun ls =>
  match fuel with
  | 0 => none
  | fuel + 1 =>
      match ls with
      | .symbol "." :: rest =>
          match memberName? rest with
          | none => none
          | some (name, rest) => readItems fuel (member base name) rest
      | .symbol "?." :: .symbol "[" :: rest => readBracket fuel true base rest
      | .symbol "?." :: rest =>
          match memberName? rest with
          | none => none
          | some (name, rest) => readItems fuel (.optional base (.string name) []) rest
      | .symbol "[" :: rest => readBracket fuel false base rest
      | _ => some (base, ls)

/-- An item or a slice of a base behind its opening bracket, and what is taken of it. -/
def readBracket (fuel : Nat) (optional : Bool) (base : Constant) : Reader := fun ls =>
  match fuel with
  | 0 => none
  | fuel + 1 =>
      match ls with
      | .symbol ":" :: rest =>
          match readBound fuel rest with
          | none => none
          | some (stop, rest) => readItems fuel (.slice base (.integer 0) stop) rest
      | _ =>
          match readAt fuel 0 ls with
          | none => none
          | some (key, .symbol "]" :: rest) =>
              readItems fuel (if optional then .optional base key [] else .item base key) rest
          | some (start, .symbol ":" :: rest) =>
              match readBound fuel rest with
              | none => none
              | some (stop, rest) => readItems fuel (.slice base start stop) rest
          | some _ => none

/-- The end of a slice up to its bracket. -/
def readBound (fuel : Nat) : Reader := fun ls =>
  match fuel with
  | 0 => none
  | fuel + 1 =>
      match ls with
      | .symbol "]" :: rest => some (.integer sliceEnd, rest)
      | _ =>
          match readAt fuel 0 ls with
          | some (stop, .symbol "]" :: rest) => some (stop, rest)
          | _ => none

/-- Constants separated by semicolons; one may stand at the end. -/
def readSequence (fuel : Nat) : Reader := fun ls =>
  match fuel with
  | 0 => none
  | fuel + 1 =>
      match readAt fuel 0 ls with
      | none => none
      | some (c, .symbol ";" :: []) => some (c, [])
      | some (c, .symbol ";" :: rest) =>
          match readSequence fuel rest with
          | none => none
          | some (d, rest) => some (.after c d, rest)
      | some (c, rest) => some (c, rest)

/-- The elements of a list up to its bracket; a comma may stand at the end. -/
def readList (fuel : Nat) (first : Bool) (ls : List Lexeme) :
    Option (List Constant × List Lexeme) :=
  match fuel with
  | 0 => none
  | fuel + 1 =>
      match ls with
      | .symbol "]" :: rest => some ([], rest)
      | _ =>
          match if first then some ls else expect? "," ls with
          | none => none
          | some (.symbol "]" :: rest) => some ([], rest)
          | some rest =>
              match readAt fuel 0 rest with
              | none => none
              | some (c, rest) =>
                  match readList fuel false rest with
                  | none => none
                  | some (items, rest) => some (c :: items, rest)

/-- The fields of a mapping up to its bracket; a comma may stand at the end. -/
def readMap (fuel : Nat) (first : Bool) (ls : List Lexeme) :
    Option (List (Constant × Constant) × List Lexeme) :=
  match fuel with
  | 0 => none
  | fuel + 1 =>
      match ls with
      | .symbol "\x7d" :: rest => some ([], rest)
      | _ =>
          match if first then some ls else expect? "," ls with
          | none => none
          | some (.symbol "\x7d" :: rest) => some ([], rest)
          | some rest =>
              match readKey fuel rest with
              | none => none
              | some (key, rest) =>
                  match expect? ":" rest with
                  | none => none
                  | some rest =>
                      match readAt fuel 0 rest with
                      | none => none
                      | some (c, rest) =>
                          match readMap fuel false rest with
                          | none => none
                          | some (fields, rest) => some ((key, c) :: fields, rest)

/-- The key of a field: a word, a number by its text, a string or a constant in parentheses. -/
def readKey (fuel : Nat) : Reader := fun ls =>
  match fuel with
  | 0 => none
  | fuel + 1 =>
      match ls with
      | .number text :: rest => some (.string (Utf8.ofChars text), rest)
      | .string s :: rest => some (.string s, rest)
      | .name text :: rest => some (.string (Utf8.ofChars text), rest)
      | .symbol "(" :: _ => readAt fuel 0 ls
      | _ => none

end

def read? (text : Bytes) : Option Constant :=
  match scan text with
  | none => none
  | some ls =>
      match readSequence (8 * ls.length + 8) ls with
      | some (c, []) => some c
      | _ => none

end Backtick.Constant
