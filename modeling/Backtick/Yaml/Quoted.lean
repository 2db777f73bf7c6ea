import Backtick.Bytes.Utf8
import Backtick.Text.CodePoint

/-!
# Quoted scalars

In single quotes a doubled quote stands for one. In double quotes a backslash
begins an escape. A line break inside either folds into a space, or into as many
line feeds as there are blank lines. `delim` is the column of the key or dash that a
scalar belongs to, or zero.
-/

namespace Backtick.Yaml

def isSpace (c : Char) : Bool :=
  c = ' ' || c = '\t'

/-- A text in which each line break, of one character or two, is a line feed. -/
def feedLines : List Char -> List Char
  | [] => []
  | '\r' :: '\n' :: cs => '\n' :: feedLines cs
  | c :: cs => (if c = '\r' then '\n' else c) :: feedLines cs

/-- Whether a text begins with three of a mark that separates documents, alone on its line
or before a blank. -/
def startsSeparator (cs : List Char) : Bool :=
  let isMark (mark : Char) : Bool := cs.take 3 = List.replicate 3 mark
  (isMark '-' || isMark '.') && (cs.drop 3).head?.all fun c => isSpace c || c = '\n'

/-- How many further line breaks follow a break, and what comes after them, given the column
reached. Documents cannot be separated there, and tabs stand to the right of `delim` only. -/
def breaks? (delim column : Nat) (cs : List Char) : Option (Nat × List Char) :=
  match cs with
  | [] => some (0, [])
  | c :: rest =>
      if column = 1 && startsSeparator cs then
        none
      else if c = ' ' then
        breaks? delim (column + 1) rest
      else if c = '\t' then
        if column ≤ delim then none else breaks? delim (column + 1) rest
      else if c = '\n' then
        (breaks? delim 1 rest).map fun (n, rest) => (n + 1, rest)
      else
        some (0, cs)

/-- What a line break and `n` further ones fold into. -/
def foldedBreak (n : Nat) : List Char :=
  if n = 0 then [' '] else List.replicate n '\n'

/-- What a character counts as a digit in base sixteen; one that is none counts by its code,
from that of zero on. -/
def codeDigit (c : Char) : Int :=
  match Text.digit? 16 c with
  | some d => d
  | none => (c.toNat : Int) - '0'.toNat

/-- The value of characters as digits in base sixteen. -/
def codeOf (cs : List Char) : Int :=
  cs.foldl (fun n c => n * 16 + codeDigit c) 0

/-- The character with a code; a code that is no character gives the replacement character. -/
def charOfCode (code : Int) : Char :=
  if 0 ≤ code && code.toNat.isValidChar then Char.ofNat code.toNat else Char.ofNat 0xFFFD

/-- A character by its code, with the code of the second half of a pair if it is the first. -/
def unicodeEscape? (digits : Nat) (cs : List Char) : Option (List Char × List Char) :=
  if cs.length < digits then
    none
  else
    let n := codeOf (cs.take digits)
    let rest := cs.drop digits
    if 0xD800 ≤ n && n < 0xDC00 && digits = 4 then
      match rest with
      | '\\' :: 'u' :: more =>
          let m := codeOf (more.take 4)
          if 4 ≤ more.length && 0xDC00 ≤ m && m < 0xE000 then
            some ([charOfCode (0x10000 + (n - 0xD800) * 0x400 + (m - 0xDC00))], more.drop 4)
          else
            none
      | _ => none
    else
      some ([charOfCode n], rest)

def letterEscape? (c : Char) : Option Char :=
  match c with
  | '0' => some (Char.ofNat 0x00)
  | 'a' => some (Char.ofNat 0x07)
  | 'b' => some (Char.ofNat 0x08)
  | 't' => some '\t'
  | '\t' => some '\t'
  | 'n' => some '\n'
  | 'v' => some (Char.ofNat 0x0B)
  | 'f' => some (Char.ofNat 0x0C)
  | 'r' => some '\r'
  | 'e' => some (Char.ofNat 0x1B)
  | ' ' => some ' '
  | '"' => some '"'
  | '/' => some '/'
  | '\\' => some '\\'
  | 'N' => some (Char.ofNat 0x85)
  | '_' => some (Char.ofNat 0xA0)
  | 'L' => some (Char.ofNat 0x2028)
  | 'P' => some (Char.ofNat 0x2029)
  | _ => none

/-- What stands behind a backslash on the same line. -/
def escape? : List Char -> Option (List Char × List Char)
  | [] => none
  | c :: cs =>
      if c = 'x' then unicodeEscape? 2 cs
      else if c = 'u' then unicodeEscape? 4 cs
      else if c = 'U' then unicodeEscape? 8 cs
      else (letterEscape? c).map fun d => ([d], cs)

/-- The text so far without spaces at its end, which is its front as it is kept reversed. -/
def dropSpaces (reversed : List Char) : List Char :=
  reversed.dropWhile (· = ' ')

/-- The body of a scalar up to its closing mark. The text so far is kept reversed. -/
def quotedBody (delim : Nat) (mark : Char) :
    Nat -> List Char -> List Char -> Option (List Char × List Char)
  | 0, _, _ => none
  | _ + 1, _, [] => none
  | fuel + 1, reversed, c :: cs =>
      if c = mark then
        match cs with
        | d :: rest =>
            if mark = '\'' && d = '\'' then quotedBody delim mark fuel ('\'' :: reversed) rest
            else some (reversed.reverse, cs)
        | [] => some (reversed.reverse, [])
      else if c = '\n' then
        match breaks? delim 1 cs with
        | none => none
        | some (n, rest) =>
            quotedBody delim mark fuel (foldedBreak n ++ dropSpaces reversed) rest
      else if mark = '"' && c = '\\' then
        match cs with
        | '\n' :: rest =>
            match breaks? delim 1 rest with
            | none => none
            | some (0, rest) => quotedBody delim mark fuel reversed rest
            | some (n + 1, rest) =>
                quotedBody delim mark fuel
                  (List.replicate (n + 1) '\n' ++ dropSpaces reversed) rest
        | _ =>
            match escape? cs with
            | none => none
            | some (ds, rest) => quotedBody delim mark fuel (ds.reverse ++ reversed) rest
      else if mark = '"' && c = '\t' && (cs.dropWhile isSpace).head? = some '\n' then
        quotedBody delim mark fuel reversed (cs.dropWhile isSpace)
      else
        quotedBody delim mark fuel (c :: reversed) cs

/-- A quoted scalar at the start of a text, and what is left. -/
def quoted? (delim : Nat) : List Char -> Option (Bytes × List Char)
  | [] => none
  | c :: cs =>
      if c = '\'' || c = '"' then
        (quotedBody delim c (cs.length + 1) [] cs).map fun (body, rest) =>
          (Utf8.ofChars body, rest)
      else
        none

end Backtick.Yaml
