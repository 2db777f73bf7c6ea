import Backtick.Token.Basic

/-!
# Splitting a template into tokens

A template is enclosed in backticks. Outside a formula all bytes up to the next
opening of a formula make one text run, which may be empty; inside a formula
the longest token of its class is taken. What is not enclosed in backticks has
no tokens.
-/

namespace Backtick

/-- Why no token begins at a place inside a formula. -/
inductive LexicalCause
  | equality (run : Bytes)
  | character (c : Char)
  | byte (b : UInt8)
deriving DecidableEq, Repr

def LexicalCause.message : LexicalCause -> Bytes
  | .equality run =>
      "invalid equality operator " ++ Text.quote run ++ ", expected \"===\""
  | .character c => "invalid character " ++ Text.quoteChar c
  | .byte b => "invalid byte " ++ Text.quote [b]

/-- A cause with the column where the scan stopped. -/
structure LexicalError where
  cause : LexicalCause
  column : Nat
deriving DecidableEq, Repr

namespace Scan

/-- Where the scanner stands: in literal text, or inside a formula. -/
inductive Mode
  | text
  | formula
deriving DecidableEq, Repr

/-- Length of the text run at the head: up to the next opening of a formula. -/
def textRun : Bytes -> Nat
  | [] => 0
  | a :: rest =>
      if a = '$'.toUInt8 && rest.head? = some '{'.toUInt8 then
        0
      else
        textRun rest + 1

/-- Number of bytes at the head that satisfy a test. -/
def runLength (p : UInt8 -> Bool) (bytes : Bytes) : Nat :=
  (bytes.takeWhile p).length

/-- Number of bytes behind an opening quote up to and including the closing one. -/
def quotedRest (mark : UInt8) : Bytes -> Nat
  | [] => 0
  | b :: rest => if b = mark then 1 else quotedRest mark rest + 1

/-- Number of bytes of a numeral behind its first digit. -/
def numeralRest (rest : Bytes) : Nat :=
  let whole := runLength Bytes.isDigit rest
  match rest.drop whole with
  | point :: fraction =>
      if point = '.'.toUInt8 then whole + 1 + runLength Bytes.isDigit fraction else whole
  | [] => whole

/-- The cause reported for a byte that begins no token of a formula. -/
def rejected (first : UInt8) (rest : Bytes) : LexicalCause :=
  match Utf8.lead? first rest with
  | some (c, _) => if c.toNat = 0xFFFD then .byte first else .character c
  | none => .byte first

/-- The token of a formula that begins with `first`: its class and how many further bytes it has. -/
def formulaToken (first : UInt8) (rest : Bytes) : Except LexicalCause (TokenKind × Nat) :=
  if first = ' '.toUInt8 then
    .ok (.whitespace, runLength (· = ' '.toUInt8) rest)
  else if first = '"'.toUInt8 || first = '\''.toUInt8 then
    .ok (.string, quotedRest first rest)
  else if first = '$'.toUInt8 && rest.head? = some '{'.toUInt8 then
    .ok (.openFormula, 1)
  else if first = '}'.toUInt8 then
    .ok (.closeBrace, 0)
  else if first = '('.toUInt8 then
    .ok (.openParen, 0)
  else if first = ')'.toUInt8 then
    .ok (.closeParen, 0)
  else if first = ','.toUInt8 then
    .ok (.comma, 0)
  else if first = '<'.toUInt8 then
    if rest.head? = some '='.toUInt8 then
      .ok (.lessEqual, 1)
    else
      .ok (.less, 0)
  else if first = '>'.toUInt8 then
    if rest.head? = some '='.toUInt8 then
      .ok (.greaterEqual, 1)
    else
      .ok (.greater, 0)
  else if first = '='.toUInt8 then
    let more := runLength (· = '='.toUInt8) rest
    if more = 2 then
      .ok (.strictEqual, 2)
    else
      .error (.equality (first :: rest.take more))
  else if '1'.toUInt8 ≤ first && first ≤ '9'.toUInt8 then
    .ok (.number, numeralRest rest)
  else if Bytes.isLetter first then
    let more := runLength Bytes.isLetter rest
    .ok (.ofWord (first :: rest.take more), more)
  else
    .error (rejected first rest)

def tokenAt (column : Nat) (kind : TokenKind) (lexeme : Bytes) : Token :=
  ⟨lexeme, kind, column, (column + lexeme.length : Nat)⟩

def Mode.after (kind : TokenKind) : Mode :=
  if kind = .closeBrace then .text else .formula

/-- The tokens of the rest of a template body that begins at a column. -/
def tokens : Mode -> Nat -> Bytes -> Except LexicalError (List Token)
  | _, column, [] => .ok [tokenAt column .eof []]
  | .text, column, first :: rest => do
      let run := textRun (first :: rest)
      let more <- tokens .formula (column + run) ((first :: rest).drop run)
      return tokenAt column .string ((first :: rest).take run) :: more
  | .formula, column, first :: rest =>
      match formulaToken first rest with
      | .error cause => .error ⟨cause, column⟩
      | .ok (kind, extra) => do
          let lexeme := first :: rest.take extra
          let more <- tokens (.after kind) (column + lexeme.length) (rest.drop extra)
          return tokenAt column kind lexeme :: more
termination_by mode _ bytes => (bytes.length, if mode = .text then 1 else 0)
decreasing_by
  · simp only [List.length_drop, if_true, if_false]
    by_cases h : textRun (first :: rest) = 0
    · rw [h]
      exact Prod.Lex.right _ (by decide)
    · exact Prod.Lex.left _ _ (by simp only [List.length_cons]; omega)
  · exact Prod.Lex.left _ _ (by simp only [List.length_drop, List.length_cons]; omega)

/-- The text between the backticks, if a template is enclosed in them. -/
def body? : Bytes -> Option Bytes
  | [] => none
  | first :: rest =>
      if first = '`'.toUInt8 && rest.getLast? = some '`'.toUInt8 then
        some rest.dropLast
      else
        none

end Scan

/-- The tokens of a template; none if it is not enclosed in backticks. -/
def tokenize (template : Bytes) : Except LexicalError (List Token) :=
  match Scan.body? template with
  | none => .ok []
  | some body => Scan.tokens .text 1 body

end Backtick
