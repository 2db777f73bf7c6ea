import Backtick.Bytes.Utf8
import Backtick.Text.Blank
import Backtick.Text.CodePoint
import Backtick.Text.Word

/-!
# Lexemes of constants

A constant is written in a small expression language without variables. Its
lexemes are numbers, strings, names and symbols; blanks and comments separate them.
-/

namespace Backtick.Constant

/-- The lexemes. A number keeps its text, a string has its escapes resolved. -/
inductive Lexeme
  | number (text : List Char)
  | string (value : Bytes)
  | name (text : List Char)
  | symbol (text : String)
deriving DecidableEq, Repr

def symbolWords : List String :=
  [ "not", "in", "or", "and", "matches", "contains", "startsWith", "endsWith", "let", "if",
    "else" ]

/-- A code of one to six digits up to a closing brace, and what is left. -/
def bracedCode? (cs : List Char) : Option (Nat × List Char) :=
  let (figures, rest) := cs.span fun c => (Text.digit? 16 c).isSome
  if figures.isEmpty || 6 < figures.length then
    none
  else
    match rest with
    | c :: more =>
        if c = Char.ofNat 0x7D then
          (Text.digits? 16 figures.length 0 figures).map fun (n, _) => (n, more)
        else
          none
    | [] => none

/-- The code of a character behind its mark: four digits, or others in braces. -/
def unicodeCode? (cs : List Char) : Option (Nat × List Char) :=
  match cs with
  | c :: rest => if c = Char.ofNat 0x7B then bracedCode? rest else Text.digits? 16 4 0 cs
  | [] => none

/-- A character by its code; codes end with those of Unicode. -/
def coded? (found : Option (Nat × List Char)) : Option (Bytes × List Char) :=
  match found with
  | some (n, rest) => if n ≤ 0x10FFFF then some (Text.charBytes n, rest) else none
  | none => none

/-- What stands behind a backslash in a string with the given quote mark. -/
def escape? (mark : Char) : List Char -> Option (Bytes × List Char)
  | [] => none
  | c :: cs =>
      if c = 'a' then some ([0x07], cs)
      else if c = 'b' then some ([0x08], cs)
      else if c = 'f' then some ([0x0C], cs)
      else if c = 'n' then some ([0x0A], cs)
      else if c = 'r' then some ([0x0D], cs)
      else if c = 't' then some ([0x09], cs)
      else if c = 'v' then some ([0x0B], cs)
      else if c = '\\' || c = mark then some ([c.toUInt8], cs)
      else if c = 'x' then coded? (Text.digits? 16 2 0 cs)
      else if c = 'u' then coded? (unicodeCode? cs)
      else if c = 'U' then coded? (Text.digits? 16 8 0 cs)
      else if '0' ≤ c && c ≤ '3' then coded? (Text.digits? 8 2 (c.toNat - '0'.toNat) cs)
      else none

def stringBody (mark : Char) : Nat -> List Char -> Option (Bytes × List Char)
  | 0, _ => none
  | _ + 1, [] => none
  | fuel + 1, c :: cs =>
      if c = mark then
        some ([], cs)
      else if c = '\n' then
        none
      else if c = '\\' then
        match escape? mark cs with
        | none => none
        | some (b, rest) => (stringBody mark fuel rest).map fun (bs, r) => (b ++ bs, r)
      else
        let own := if c = '\r' then '\n' else c
        (stringBody mark fuel cs).map fun (bs, r) => (String.utf8EncodeChar own ++ bs, r)

/-- The body of a raw string; two closing marks stand for one. -/
def rawBody (mark : Char) : List Char -> Option (List Char × List Char)
  | [] => none
  | c :: cs =>
      if c = mark then
        match cs with
        | d :: rest =>
            if d = mark then (rawBody mark rest).map fun (body, r) => (c :: body, r)
            else some ([], cs)
        | [] => some ([], [])
      else
        (rawBody mark cs).map fun (body, r) => (c :: body, r)

/-- The longest part in front of which all characters are allowed. -/
def run (allowed : String) (cs : List Char) : List Char × List Char :=
  cs.span fun c => allowed.toList.contains c

/-- The base mark in front of a number and the digits that may follow it. -/
def baseMark (cs : List Char) : List Char × String × List Char :=
  match cs with
  | '0' :: c :: rest =>
      if c = 'x' || c = 'X' then (['0', c], "0123456789abcdefABCDEF_", rest)
      else if c = 'o' || c = 'O' then (['0', c], "01234567_", rest)
      else if c = 'b' || c = 'B' then (['0', c], "01_", rest)
      else ([], "0123456789_", cs)
  | _ => ([], "0123456789_", cs)

def exponentPart (figures : String) (cs : List Char) : List Char × List Char :=
  match cs with
  | e :: rest =>
      if e = 'e' || e = 'E' then
        match rest with
        | s :: more =>
            if s = '+' || s = '-' then
              let (ds, tail) := run figures more
              (e :: s :: ds, tail)
            else
              let (ds, tail) := run figures rest
              (e :: ds, tail)
        | [] => ([e], [])
      else
        ([], cs)
  | [] => ([], [])

/-- A number, unless a character of a word follows at once. -/
def number? (cs : List Char) : Option (List Char × List Char) :=
  let (mark, figures, afterMark) := baseMark cs
  let (whole, afterWhole) := run figures afterMark
  let (body, rest) : List Char × List Char :=
    match afterWhole with
    | '.' :: '.' :: _ => (mark ++ whole, afterWhole)
    | '.' :: more =>
        let (fraction, afterFraction) := run figures more
        let (exponent, tail) := exponentPart figures afterFraction
        (mark ++ whole ++ '.' :: fraction ++ exponent, tail)
    | _ =>
        let (exponent, tail) := exponentPart figures afterWhole
        (mark ++ whole ++ exponent, tail)
  if rest.head?.any Text.isWordChar then none else some (body, rest)

/-- What is left after a comment that ends with its line. -/
def skipLine (cs : List Char) : List Char :=
  (cs.dropWhile (· ≠ '\n')).drop 1

/-- What is left after a comment that ends with a star and a slash. -/
def skipBlock? : List Char -> Option (List Char)
  | '*' :: '/' :: rest => some rest
  | _ :: rest => skipBlock? rest
  | [] => none

def symbol? (c : Char) (cs : List Char) : Option (Lexeme × List Char) :=
  let one : Option (Lexeme × List Char) := some (.symbol c.toString, cs)
  let two (allowed : String) : Option (Lexeme × List Char) :=
    match cs with
    | d :: rest =>
        if allowed.toList.contains d then some (.symbol (String.ofList [c, d]), rest) else one
    | [] => one
  if c = '?' then two ".?"
  else if c = '|' then two "|"
  else if c = ':' then two ":"
  else if c = '.' then two "."
  else if "&!=*<>".toList.contains c then two "&=*"
  else if "([\x7b)]\x7d,;%+-^/".toList.contains c then one
  else none

/-- A word: a symbol if it is one of the symbol words, else a name. -/
def word (cs : List Char) : Lexeme × List Char :=
  let (text, rest) := cs.span Text.isWordChar
  let w := String.ofList text
  (if symbolWords.contains w then .symbol w else .name text, rest)

/-- The lexeme that a text starts with; no lexeme stands for a blank or a comment. -/
def lexeme? (c : Char) (cs : List Char) : Option (Option Lexeme × List Char) :=
  if Text.isBlank c then
    some (none, cs)
  else if c = '\'' || c = '"' then
    (stringBody c (cs.length + 1) cs).map fun (body, rest) => (some (.string body), rest)
  else if c.toNat = 0x60 then
    (rawBody c cs).map fun (body, rest) => (some (.string (Utf8.ofChars body)), rest)
  else if c.isDigit then
    (number? (c :: cs)).map fun (text, rest) => (some (.number text), rest)
  else if c = '/' && cs.head? = some '/' then
    some (none, skipLine cs)
  else if c = '/' && cs.head? = some '*' then
    (skipBlock? (cs.drop 1)).map fun rest => (none, rest)
  else if c = '.' && cs.head?.any Char.isDigit then
    (number? cs).map fun (text, rest) => (some (.number ('.' :: text)), rest)
  else if Text.isWordChar c then
    let (l, rest) := word (c :: cs)
    some (some l, rest)
  else
    (symbol? c cs).map fun (l, rest) => (some l, rest)

/-- The lexemes of a text, at most as many as `fuel`. -/
def lexemes : Nat -> List Char -> Option (List Lexeme)
  | _, [] => some []
  | 0, _ => none
  | fuel + 1, c :: cs =>
      match lexeme? c cs with
      | none => none
      | some (l, rest) => (lexemes fuel rest).map fun ls => l.toList ++ ls

def scan (text : Bytes) : Option (List Lexeme) :=
  let cs := Utf8.chars text
  lexemes cs.length cs

end Backtick.Constant
