import Backtick.Tree.Basic
import Backtick.Value.Basic

/-!
# Outlines

A tree as nested mappings, for printing. Every node has its kind, its columns
and its text; the other keys depend on the kind.
-/

namespace Backtick

/-- The mapping of a node: the keys all nodes have, and its own. -/
def outlineNode (kind : NodeKind) (span : Span) (own : List (Bytes × Value)) : Value :=
  let common : List (Bytes × Value) :=
    [ ("kind", .string kind.name), ("from", .integer .int span.start),
      ("to", .integer .int span.stop), ("text", .string span.source) ]
  .map (Fields.ofList (common ++ own))

def StringLiteral.outline (literal : StringLiteral) : Value :=
  let mark : List (Bytes × Value) :=
    match literal.mark with
    | none => []
    | some mark => [("quote", .string (String.utf8EncodeChar (Char.ofNat mark.toNat)))]
  outlineNode .stringLiteral literal.span (("value", .string literal.value) :: mark)

def GetCall.outline (call : GetCall) : Value :=
  outlineNode .getCall call.span
    [("name", .string (call.name.elim [] StringLiteral.value))]

def Expr.outline : Expr -> Value
  | .string literal => literal.outline
  | .number span x => outlineNode .numericLiteral span [("value", .double x)]
  | .boolean span b => outlineNode .booleanLiteral span [("value", .bool b)]
  | .get call => call.outline
  | .length span arg => outlineNode .lengthCall span [("arg", arg.elim .null GetCall.outline)]
  | .choose span test yes no =>
      outlineNode .ifExpression span
        [("cond", test.outline), ("then", yes.outline), ("else", no.outline)]
  | .compare span left op right =>
      outlineNode .binaryComparison span
        [("left", left.outline), ("op", .string op.text), ("right", right.outline)]
  | .missing => .null

def Segment.outline : Segment -> Value
  | .text literal => literal.outline
  | .formula span value =>
      outlineNode .formula span (value.elim [] fun e => [("value", e.outline)])
  | .missing => .null

def TemplateBody.outline (body : TemplateBody) : Value :=
  outlineNode .templateString body.span
    [("segments", .list (body.segments.map Segment.outline))]

def SourceFile.outline (file : SourceFile) : Value :=
  outlineNode .sourceFile file.span
    (file.body.elim [] fun body => [("template", body.outline)])

end Backtick
