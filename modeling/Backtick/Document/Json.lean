import Backtick.Bytes.Utf8
import Backtick.Document.Basic
import Backtick.Number.Notation

/-!
# JSON text

Documents as JSON, on one line or with an indented line for each element.
Numbers have an exponent only below 10^-6 and from 10^21 on. A byte that is no
part of a character becomes the replacement character.
-/

namespace Backtick

namespace Json

def numberNotation : Notation := ⟨some (-6), some 21, 1, 2⟩

/-- A character inside a JSON string; `markup` asks to escape what has a meaning in markup. -/
def escapeChar (markup : Bool) (c : Char) : Bytes :=
  let n := c.toNat
  if c = '"' then "\\\""
  else if c = '\\' then "\\\\"
  else if n = 0x08 then "\\b"
  else if n = 0x0C then "\\f"
  else if n = 0x0A then "\\n"
  else if n = 0x0D then "\\r"
  else if n = 0x09 then "\\t"
  else if n < 0x20 || n = 0x2028 || n = 0x2029 then "\\u" ++ Bytes.ofHex 4 n
  else if markup && (c = '<' || c = '>' || c = '&') then "\\u" ++ Bytes.ofHex 4 n
  else String.utf8EncodeChar c

def escapePiece (markup : Bool) : Utf8.Piece -> Bytes
  | .char c => escapeChar markup c
  | .stray b => String.utf8EncodeChar (Utf8.Piece.stray b).shown

def quote (markup : Bool) (text : Bytes) : Bytes :=
  "\"" ++ (Utf8.pieces text).flatMap (escapePiece markup) ++ "\""

/-- How the elements of lists and mappings are set apart. -/
structure Layout where
  /-- Number of spaces per level; none puts all on one line. -/
  indent : Nat
  markup : Bool

def Layout.lineBreak (l : Layout) (level : Nat) : Bytes :=
  if l.indent = 0 then [] else "\n" ++ Bytes.blanks (l.indent * level)

/-- What stands between a key and its value. -/
def Layout.colon (l : Layout) : Bytes :=
  if l.indent = 0 then ":" else ": "

/-- Elements between brackets, separated by commas. -/
def Layout.enclose (l : Layout) (level : Nat) (opening close : Bytes) (items : List Bytes) :
    Bytes :=
  if items.isEmpty then
    opening ++ close
  else
    opening ++ l.lineBreak (level + 1) ++ Bytes.join ("," ++ l.lineBreak (level + 1)) items ++
      l.lineBreak level ++ close

mutual

def write (l : Layout) (level : Nat) : Document -> Bytes
  | .null => "null"
  | .bool b => if b then "true" else "false"
  | .integer n => Bytes.ofInt n
  | .number p x => numberNotation.write p x
  | .string s => quote l.markup s
  | .list items => l.enclose level "[" "]" (writeItems l (level + 1) items)
  | .map fields => l.enclose level "\x7b" "\x7d" (writeFields l (level + 1) fields)

def writeItems (l : Layout) (level : Nat) : List Document -> List Bytes
  | [] => []
  | item :: rest => write l level item :: writeItems l level rest

def writeFields (l : Layout) (level : Nat) : List (Bytes × Document) -> List Bytes
  | [] => []
  | (key, item) :: rest =>
      (quote l.markup key ++ l.colon ++ write l level item) :: writeFields l level rest

end

mutual

/-- The first number in a document that JSON cannot write. -/
def unsupported? : Document -> Option Binary64
  | .number _ x => if x.isFinite then none else some x
  | .list items => unsupportedItems? items
  | .map fields => unsupportedFields? fields
  | _ => none

def unsupportedItems? : List Document -> Option Binary64
  | [] => none
  | item :: rest => (unsupported? item).or (unsupportedItems? rest)

def unsupportedFields? : List (Bytes × Document) -> Option Binary64
  | [] => none
  | (_, item) :: rest => (unsupported? item).or (unsupportedFields? rest)

end

end Json

/-- A document as JSON, escaped for markup, without a line feed at its end. -/
def Document.json (indent : Int) (d : Document) : Bytes :=
  Json.write ⟨indent.toNat, true⟩ 0 d

end Backtick
