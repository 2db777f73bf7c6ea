import Backtick.Tree.Basic

/-!
# Canonical form

A template written without insignificant blanks: one space behind each comma of
`IF` and around comparators, strings in double quotes unless they hold one.
Numbers keep the text they were written with.
-/

namespace Backtick

/-- A text run as it is, a quoted text between marks. -/
def StringLiteral.canonical (literal : StringLiteral) : Bytes :=
  match literal.mark with
  | none => literal.value
  | some _ =>
      let mark : UInt8 :=
        if literal.value.contains '"'.toUInt8 then '\''.toUInt8 else '"'.toUInt8
      mark :: literal.value ++ [mark]

def GetCall.canonical (call : GetCall) : Bytes :=
  "GET(" ++ call.name.elim [] StringLiteral.canonical ++ ")"

def Expr.canonical : Expr -> Bytes
  | .string literal => literal.canonical
  | .number span _ => span.source
  | .boolean _ b => if b then "TRUE" else "FALSE"
  | .get call => call.canonical
  | .length _ arg => "LENGTH(" ++ arg.elim [] GetCall.canonical ++ ")"
  | .choose _ test yes no =>
      "IF(" ++ test.canonical ++ ", " ++ yes.canonical ++ ", " ++ no.canonical ++ ")"
  | .compare _ left op right => left.canonical ++ " " ++ op.text ++ " " ++ right.canonical
  | .missing => []

def Segment.canonical : Segment -> Bytes
  | .text literal => literal.canonical
  | .formula _ value => "$\x7b" ++ value.elim [] Expr.canonical ++ "\x7d"
  | .missing => []

/-- The canonical form of a template, in backticks. -/
def SourceFile.canonical (file : SourceFile) : Bytes :=
  "`" ++ file.segments.flatMap Segment.canonical ++ "`"

end Backtick
