import Backtick.Bytes.Utf8
import Backtick.Number.Numeral
import Backtick.Text.CodePoint
import Backtick.Value.Basic

/-!
# Values in JSON

The value at the start of a JSON text; what stands behind it is not looked at. All
numbers are binary64, and of two fields with one name the later counts.
-/

namespace Backtick.Json

/-- A blank between the parts of a JSON text. -/
def isGap (c : Char) : Bool :=
  c = ' ' || c = '\t' || c = '\r' || c = '\n'

/-- The text from its first character that is no blank. -/
def skipGap (cs : List Char) : List Char :=
  cs.dropWhile isGap

/-- A unit of a string: a character, or half of a pair that stands for one. -/
inductive StringUnit
  | char (c : Char)
  | half (code : Nat)

def StringUnit.ofCode (code : Nat) : StringUnit :=
  if code.isValidChar then .char (Char.ofNat code) else .half code

/-- The characters of units; a half without its other half is replaced. -/
def joinUnits : List StringUnit -> List Char
  | [] => []
  | .char c :: rest => c :: joinUnits rest
  | .half a :: .half b :: rest =>
      if a < 0xDC00 && 0xDC00 ≤ b then
        Char.ofNat (0x10000 + (a - 0xD800) * 0x400 + (b - 0xDC00)) :: joinUnits rest
      else
        Char.ofNat 0xFFFD :: joinUnits (.half b :: rest)
  | .half _ :: rest => Char.ofNat 0xFFFD :: joinUnits rest

/-- The character that a letter behind a backslash stands for. -/
def letterEscape? (c : Char) : Option Char :=
  match c with
  | '"' | '\\' | '/' => some c
  | 'b' => some (Char.ofNat 0x08)
  | 'f' => some (Char.ofNat 0x0C)
  | 'n' => some '\n'
  | 'r' => some '\r'
  | 't' => some '\t'
  | _ => none

/-- The units of a string up to its closing quote, and what is left. -/
def stringUnits? : List Char -> Option (List StringUnit × List Char)
  | [] => none
  | '\\' :: 'u' :: a :: b :: c :: d :: rest =>
      match Text.digits? 16 4 0 [a, b, c, d], stringUnits? rest with
      | some (code, _), some (units, left) => some (.ofCode code :: units, left)
      | _, _ => none
  | '\\' :: e :: rest =>
      match letterEscape? e, stringUnits? rest with
      | some c, some (units, left) => some (.char c :: units, left)
      | _, _ => none
  | c :: rest =>
      if c = '"' then
        some ([], rest)
      else if c.toNat < 0x20 || c = '\\' then
        none
      else
        (stringUnits? rest).map fun (units, left) => (.char c :: units, left)

/-- The string behind an opening quote, and what is left. -/
def string? (cs : List Char) : Option (Bytes × List Char) :=
  (stringUnits? cs).map fun (units, left) => (Utf8.ofChars (joinUnits units), left)

def digits? (cs : List Char) : Option (List Char × List Char) :=
  let (digits, rest) := cs.span Char.isDigit
  if digits.isEmpty then none else some (digits, rest)

/-- The whole part of a number: a zero alone, or digits that begin with another. -/
def whole? : List Char -> Option (List Char × List Char)
  | '0' :: rest => some (['0'], rest)
  | cs => digits? cs

/-- The part of a number behind its point, with the point; it may be missing. -/
def fraction? : List Char -> Option (List Char × List Char)
  | '.' :: rest => (digits? rest).map fun (digits, left) => ('.' :: digits, left)
  | cs => some ([], cs)

/-- The exponent of a number, with its mark; it may be missing. -/
def exponent? : List Char -> Option (List Char × List Char)
  | c :: rest =>
      if c = 'e' || c = 'E' then
        let (sign, figures) := rest.span fun s => s = '+' || s = '-'
        if 1 < sign.length then none
        else (digits? figures).map fun (digits, left) => (c :: sign ++ digits, left)
      else
        some ([], c :: rest)
  | [] => some ([], [])

def number? (cs : List Char) : Option (Value × List Char) := do
  let (sign, body) := match cs with
    | '-' :: rest => (['-'], rest)
    | _ => ([], cs)
  let (whole, rest) <- whole? body
  let (fraction, rest) <- fraction? rest
  let (exponent, rest) <- exponent? rest
  let x <- Numeral.read? (Utf8.ofChars (sign ++ whole ++ fraction ++ exponent))
  return (.double x, rest)

def simple? (cs : List Char) : Option (Value × List Char) :=
  match cs with
  | '"' :: rest => (string? rest).map fun (s, left) => (.string s, left)
  | 'n' :: 'u' :: 'l' :: 'l' :: rest => some (.null, rest)
  | 't' :: 'r' :: 'u' :: 'e' :: rest => some (.bool true, rest)
  | 'f' :: 'a' :: 'l' :: 's' :: 'e' :: rest => some (.bool false, rest)
  | _ => number? cs

mutual

def value? (fuel : Nat) (cs : List Char) : Option (Value × List Char) :=
  match fuel with
  | 0 => none
  | fuel + 1 =>
      match skipGap cs with
      | '[' :: rest =>
          match skipGap rest with
          | ']' :: left => some (.list [], left)
          | _ => (items? fuel rest).map fun (items, left) => (.list items, left)
      | c :: rest =>
          if c = Char.ofNat 0x7B then
            match skipGap rest with
            | d :: left =>
                if d = Char.ofNat 0x7D then some (.map [], left)
                else (fields? fuel [] rest).map fun (fields, left) => (.map fields, left)
            | [] => none
          else
            simple? (c :: rest)
      | [] => none

/-- The elements of a list up to its bracket; there is at least one. -/
def items? (fuel : Nat) (cs : List Char) : Option (List Value × List Char) :=
  match fuel with
  | 0 => none
  | fuel + 1 =>
      match value? fuel cs with
      | none => none
      | some (v, rest) =>
          match skipGap rest with
          | ',' :: more => (items? fuel more).map fun (items, left) => (v :: items, left)
          | ']' :: left => some ([v], left)
          | _ => none

/-- The fields of a mapping up to its brace, behind those before; there is at least one. -/
def fields? (fuel : Nat) (fields : Fields Value) (cs : List Char) :
    Option (Fields Value × List Char) :=
  match fuel with
  | 0 => none
  | fuel + 1 =>
      match field? fuel cs with
      | none => none
      | some (name, v, rest) =>
          let fields := fields.insert name v
          match skipGap rest with
          | c :: more =>
              if c = ',' then fields? fuel fields more
              else if c = Char.ofNat 0x7D then some (fields, more)
              else none
          | [] => none

def field? (fuel : Nat) (cs : List Char) : Option (Bytes × Value × List Char) :=
  match fuel with
  | 0 => none
  | fuel + 1 =>
      match skipGap cs with
      | '"' :: rest =>
          match string? rest with
          | none => none
          | some (name, rest) =>
              match skipGap rest with
              | ':' :: more => (value? fuel more).map fun (v, left) => (name, v, left)
              | _ => none
      | _ => none

end

def read? (text : Bytes) : Option Value :=
  let cs := Utf8.chars text
  (value? (3 * cs.length + 3) cs).map Prod.fst

end Backtick.Json
