import Backtick.Number.Numeral
import Backtick.Token.Basic

/-!
# Reading scripts

The terms of the expression language of scripts, and a reader for them. In a
quoted text the escape `\x` with two digits denotes a character, not a byte.
-/

namespace Backtick.Script

inductive Term
  | text (s : Bytes)
  | number (x : Binary64)
  | flag (b : Bool)
  | get (arg : Term)
  | length (arg : Term)
  | isTruthy (arg : Term)
  | toText (arg : Term)
  | compare (op : Comparator) (left right : Term)
  | add (left right : Term)
  | negate (arg : Term)
  | choose (test yes no : Term)
deriving DecidableEq

/-- The functions of one argument. -/
def unary? (name : Bytes) : Option (Term -> Term) :=
  if name = ↑"get" then some .get
  else if name = ↑"length" then some .length
  else if name = ↑"isTruthy" then some .isTruthy
  else if name = ↑"toText" then some .toText
  else none

/-- The functions of two arguments. -/
def comparator? (name : Bytes) : Option Comparator :=
  if name = ↑"lt" then some .less
  else if name = ↑"le" then some .lessEqual
  else if name = ↑"eq" then some .strictEqual
  else if name = ↑"gt" then some .greater
  else if name = ↑"ge" then some .greaterEqual
  else none

def skip (source : Bytes) : Bytes :=
  source.dropWhile (· = ' '.toUInt8)

/-- The rest behind one expected byte, blanks in front of it skipped. -/
def expect? (b : Char) (source : Bytes) : Option Bytes :=
  match skip source with
  | first :: rest => if first = b.toUInt8 then some rest else none
  | [] => none

/-- The value of a fixed number of hexadecimal digits, and the rest. -/
def hex? : Nat -> Nat -> Bytes -> Option (Nat × Bytes)
  | 0, acc, rest => some (acc, rest)
  | _ + 1, _, [] => none
  | n + 1, acc, b :: rest =>
      match Bytes.hexDigit? b with
      | some d => hex? n (acc * 16 + d) rest
      | none => none

def encodeCode (n : Nat) : Bytes :=
  String.utf8EncodeChar (Char.ofNat n)

/-- The meaning of an escape, given behind its backslash, and the rest. -/
def escape? : Bytes -> Option (Bytes × Bytes)
  | [] => none
  | b :: rest =>
      if b = 'a'.toUInt8 then some ([0x07], rest)
      else if b = 'b'.toUInt8 then some ([0x08], rest)
      else if b = 'f'.toUInt8 then some ([0x0C], rest)
      else if b = 'n'.toUInt8 then some ([0x0A], rest)
      else if b = 'r'.toUInt8 then some ([0x0D], rest)
      else if b = 't'.toUInt8 then some ([0x09], rest)
      else if b = 'v'.toUInt8 then some ([0x0B], rest)
      else if b = '\\'.toUInt8 || b = '"'.toUInt8 || b = '\''.toUInt8 then some ([b], rest)
      else if b = 'x'.toUInt8 then (hex? 2 0 rest).map fun (n, rest) => (encodeCode n, rest)
      else if b = 'u'.toUInt8 then (hex? 4 0 rest).map fun (n, rest) => (encodeCode n, rest)
      else if b = 'U'.toUInt8 then (hex? 8 0 rest).map fun (n, rest) => (encodeCode n, rest)
      else none

/-- The text up to the closing mark, given behind the opening one, and the rest. -/
def quoted? : Nat -> Bytes -> Option (Bytes × Bytes)
  | 0, _ => none
  | _ + 1, [] => none
  | fuel + 1, b :: rest =>
      if b = '"'.toUInt8 then
        some ([], rest)
      else if b = '\\'.toUInt8 then do
        let (meaning, rest) <- escape? rest
        let (more, rest) <- quoted? fuel rest
        return (meaning ++ more, rest)
      else do
        let (more, rest) <- quoted? fuel rest
        return (b :: more, rest)

def isFigure (b : UInt8) : Bool :=
  Bytes.isDigit b || b = '.'.toUInt8

mutual

def primary? : Nat -> Bytes -> Option (Term × Bytes)
  | 0, _ => none
  | fuel + 1, source =>
      match skip source with
      | [] => none
      | b :: rest =>
          if b = '"'.toUInt8 then do
            let (s, rest) <- quoted? (rest.length + 1) rest
            return (.text s, rest)
          else if b = '-'.toUInt8 then do
            let (t, rest) <- primary? fuel rest
            return (.negate t, rest)
          else if b = '('.toUInt8 then do
            let (t, rest) <- term? fuel rest
            let rest <- expect? ')' rest
            return (t, rest)
          else if Bytes.isDigit b then do
            let x <- Numeral.read? ((b :: rest).takeWhile isFigure)
            return (.number x, (b :: rest).dropWhile isFigure)
          else
            let name := (b :: rest).takeWhile Bytes.isLetter
            let rest := (b :: rest).dropWhile Bytes.isLetter
            if name = ↑"true" then some (.flag true, rest)
            else if name = ↑"false" then some (.flag false, rest)
            else do
              let rest <- expect? '(' rest
              let (first, rest) <- term? fuel rest
              match unary? name with
              | some f =>
                  let rest <- expect? ')' rest
                  return (f first, rest)
              | none =>
                  let op <- comparator? name
                  let rest <- expect? ',' rest
                  let (second, rest) <- term? fuel rest
                  let rest <- expect? ')' rest
                  return (.compare op first second, rest)

def summands? : Nat -> Term -> Bytes -> Option (Term × Bytes)
  | 0, _, _ => none
  | fuel + 1, left, source =>
      match expect? '+' source with
      | none => some (left, source)
      | some rest => do
          let (right, rest) <- primary? fuel rest
          summands? fuel (.add left right) rest

/-- Reads a whole term: a sum, or a choice between two terms. -/
def term? : Nat -> Bytes -> Option (Term × Bytes)
  | 0, _ => none
  | fuel + 1, source => do
      let (first, rest) <- primary? fuel source
      let (sum, rest) <- summands? fuel first rest
      match expect? '?' rest with
      | none => return (sum, rest)
      | some rest =>
          let (yes, rest) <- term? fuel rest
          let rest <- expect? ':' rest
          let (no, rest) <- term? fuel rest
          return (.choose sum yes no, rest)

end

def read? (source : Bytes) : Option Term := do
  let (t, rest) <- term? (2 * source.length + 2) source
  if (skip rest).isEmpty then some t else none

end Backtick.Script
