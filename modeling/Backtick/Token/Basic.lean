import Backtick.Text.Quoted

/-!
# Tokens

A token is a lexeme of a template with its class and its place. Columns are
byte offsets into the template, the opening backtick included.
-/

namespace Backtick

/-- The operators of a comparison. A code outside the table names no operator. -/
inductive Comparator
  | less
  | lessEqual
  | strictEqual
  | greater
  | greaterEqual
  | unknown (code : Int)
deriving DecidableEq, Repr

namespace Comparator

/-- The operators in the order of their codes. -/
def all : List Comparator :=
  [.less, .lessEqual, .strictEqual, .greater, .greaterEqual]

def ofCode (code : Int) : Comparator :=
  match code with
  | 0 => .less
  | 1 => .lessEqual
  | 2 => .strictEqual
  | 3 => .greater
  | 4 => .greaterEqual
  | n => .unknown n

/-- The operator as written in a template. -/
def text : Comparator -> Bytes
  | .less => "<"
  | .lessEqual => "<="
  | .strictEqual => "==="
  | .greater => ">"
  | .greaterEqual => ">="
  | .unknown code => "Comparator(" ++ Bytes.ofInt code ++ ")"

end Comparator

/-- The lexical classes. A code outside the table names no class. -/
inductive TokenKind
  | eof
  | whitespace
  | string
  | number
  | openFormula
  | closeBrace
  | openParen
  | closeParen
  | comma
  | less
  | lessEqual
  | strictEqual
  | greater
  | greaterEqual
  | identifier
  | ifWord
  | getWord
  | lengthWord
  | trueWord
  | falseWord
  | unknown (code : Int)
deriving DecidableEq, Repr

namespace TokenKind

def ofCode (code : Int) : TokenKind :=
  match code with
  | 0 => .eof
  | 1 => .whitespace
  | 2 => .string
  | 3 => .number
  | 4 => .openFormula
  | 5 => .closeBrace
  | 6 => .openParen
  | 7 => .closeParen
  | 8 => .comma
  | 9 => .less
  | 10 => .lessEqual
  | 11 => .strictEqual
  | 12 => .greater
  | 13 => .greaterEqual
  | 14 => .identifier
  | 15 => .ifWord
  | 16 => .getWord
  | 17 => .lengthWord
  | 18 => .trueWord
  | 19 => .falseWord
  | n => .unknown n

def name : TokenKind -> Bytes
  | .eof => "EOF"
  | .whitespace => "Whitespace"
  | .string => "StringLiteral"
  | .number => "NumericLiteral"
  | .openFormula => "DollarBrace"
  | .closeBrace => "CloseBrace"
  | .openParen => "OpenParen"
  | .closeParen => "CloseParen"
  | .comma => "Comma"
  | .less => "LessThan"
  | .lessEqual => "LessThanEquals"
  | .strictEqual => "StrictEquals"
  | .greater => "GreaterThan"
  | .greaterEqual => "GreaterThanEquals"
  | .identifier => "Identifier"
  | .ifWord => "IF"
  | .getWord => "GET"
  | .lengthWord => "LENGTH"
  | .trueWord => "TRUE"
  | .falseWord => "FALSE"
  | .unknown code => "TokenKind(" ++ Bytes.ofInt code ++ ")"

def comparator? : TokenKind -> Option Comparator
  | .less => some .less
  | .lessEqual => some .lessEqual
  | .strictEqual => some .strictEqual
  | .greater => some .greater
  | .greaterEqual => some .greaterEqual
  | _ => none

def isComparator (kind : TokenKind) : Bool :=
  kind.comparator?.isSome

def isKeyword : TokenKind -> Bool
  | .ifWord | .getWord | .lengthWord | .trueWord | .falseWord => true
  | _ => false

/-- The reserved words, in byte order. -/
def keywords : List Bytes :=
  ["FALSE", "GET", "IF", "LENGTH", "TRUE"]

/-- The class of a run of letters. -/
def ofWord (word : Bytes) : TokenKind :=
  if word = ↑"IF" then .ifWord
  else if word = ↑"GET" then .getWord
  else if word = ↑"LENGTH" then .lengthWord
  else if word = ↑"TRUE" then .trueWord
  else if word = ↑"FALSE" then .falseWord
  else .identifier

end TokenKind

/-- A lexeme with its class and the columns where it starts and where it stops. -/
structure Token where
  lexeme : Bytes
  kind : TokenKind
  start : Int
  stop : Int
deriving DecidableEq, Repr

namespace Token

/-- The class, the quoted lexeme and the column of a token. -/
def describe (t : Token) : Bytes :=
  t.kind.name ++ "(" ++ Text.quote t.lexeme ++ ")@" ++ Bytes.ofInt t.start

end Token

end Backtick
