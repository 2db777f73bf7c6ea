import Backtick.Bytes.Utf8
import Backtick.Text.Printable

/-!
# Quoted text

A text between two quote marks. The mark itself and the backslash are escaped,
control characters have short names or a code, and a byte that is no part of a
character is written by its value.
-/

namespace Backtick.Text

def escapeLetter? (c : Char) : Option Char :=
  match c.toNat with
  | 0x07 => some 'a'
  | 0x08 => some 'b'
  | 0x0C => some 'f'
  | 0x0A => some 'n'
  | 0x0D => some 'r'
  | 0x09 => some 't'
  | 0x0B => some 'v'
  | _ => none

def escapeChar (mark c : Char) : Bytes :=
  if c = mark || c = '\\' then
    [ '\\'.toUInt8, c.toUInt8 ]
  else if isPrintable c then
    String.utf8EncodeChar c
  else
    match escapeLetter? c with
    | some letter => [ '\\'.toUInt8, letter.toUInt8 ]
    | none =>
        let n := c.toNat
        if n < 0x20 || n = 0x7F then
          "\\x" ++ Bytes.ofHex 2 n
        else if n < 0x10000 then
          "\\u" ++ Bytes.ofHex 4 n
        else
          "\\U" ++ Bytes.ofHex 8 n

def escapePiece (mark : Char) : Utf8.Piece -> Bytes
  | .char c => escapeChar mark c
  | .stray b => "\\x" ++ Bytes.ofHex 2 b.toNat

def quote (text : Bytes) : Bytes :=
  "\"" ++ (Utf8.pieces text).flatMap (escapePiece '"') ++ "\""

def quoteChar (c : Char) : Bytes :=
  "'" ++ escapeChar '\'' c ++ "'"

end Backtick.Text
