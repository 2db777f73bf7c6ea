import Backtick.Number.Binary64
import Backtick.Token.Basic

/-!
# Syntax trees

The tree of a template. A tree may be built by hand, so children can be absent:
an absent name or argument is `none`, an absent expression or segment is
`missing`. Trees made from tokens have no absent children.
-/

namespace Backtick

/-- The part of a template that a node covers, with the columns of its ends. -/
structure Span where
  start : Int
  stop : Int
  source : Bytes
deriving DecidableEq, Repr

/-- A text run between formulas (no mark) or a quoted text inside one. -/
structure StringLiteral where
  span : Span
  value : Bytes
  mark : Option UInt8
deriving DecidableEq, Repr

structure GetCall where
  span : Span
  name : Option StringLiteral
deriving DecidableEq, Repr

inductive Expr
  | string (literal : StringLiteral)
  | number (span : Span) (value : Binary64)
  | boolean (span : Span) (value : Bool)
  | get (call : GetCall)
  | length (span : Span) (arg : Option GetCall)
  | choose (span : Span) (test yes no : Expr)
  | compare (span : Span) (left : Expr) (op : Comparator) (right : Expr)
  | missing
deriving DecidableEq

instance : Inhabited Expr := ⟨.missing⟩

/-- A part of a template: a text run or a formula, which may be empty. -/
inductive Segment
  | text (literal : StringLiteral)
  | formula (span : Span) (value : Option Expr)
  | missing
deriving DecidableEq

structure TemplateBody where
  span : Span
  segments : List Segment
deriving DecidableEq

/-- A whole template; an empty one has no body. -/
structure SourceFile where
  span : Span
  body : Option TemplateBody
  eof : Option Span
deriving DecidableEq

inductive NodeKind
  | sourceFile
  | templateString
  | formula
  | stringLiteral
  | numericLiteral
  | booleanLiteral
  | getCall
  | lengthCall
  | ifExpression
  | binaryComparison
  | endOfFile
  | unknown (code : Int)
deriving DecidableEq, Repr

namespace NodeKind

def ofCode (code : Int) : NodeKind :=
  match code with
  | 0 => .sourceFile
  | 1 => .templateString
  | 2 => .formula
  | 3 => .stringLiteral
  | 4 => .numericLiteral
  | 5 => .booleanLiteral
  | 6 => .getCall
  | 7 => .lengthCall
  | 8 => .ifExpression
  | 9 => .binaryComparison
  | 10 => .endOfFile
  | n => .unknown n

def name : NodeKind -> Bytes
  | .sourceFile => "SourceFile"
  | .templateString => "TemplateString"
  | .formula => "Formula"
  | .stringLiteral => "StringLiteral"
  | .numericLiteral => "NumericLiteral"
  | .booleanLiteral => "BooleanLiteral"
  | .getCall => "GetCall"
  | .lengthCall => "LengthCall"
  | .ifExpression => "IfExpression"
  | .binaryComparison => "BinaryComparison"
  | .endOfFile => "EndOfFile"
  | .unknown code => "NodeKind(" ++ Bytes.ofInt code ++ ")"

end NodeKind

/-- The span of an expression; an absent one has none. -/
def Expr.span? : Expr -> Option Span
  | .string literal => some literal.span
  | .number span _ => some span
  | .boolean span _ => some span
  | .get call => some call.span
  | .length span _ => some span
  | .choose span _ _ _ => some span
  | .compare span _ _ _ => some span
  | .missing => none

def SourceFile.segments (file : SourceFile) : List Segment :=
  file.body.elim [] TemplateBody.segments

end Backtick
