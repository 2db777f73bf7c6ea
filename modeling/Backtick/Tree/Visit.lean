import Backtick.Tree.Basic

/-!
# Walking a tree

The nodes of a tree in depth-first order, parents before children and children
in source order. Below a node whose kind `descend` refuses, nothing is visited.
-/

namespace Backtick

abbrev Visited := NodeKind × Span

/-- A node followed by what lies below it, unless the walk stops at its kind. -/
def visitNode (descend : NodeKind -> Bool) (kind : NodeKind) (span : Span)
    (below : List Visited) : List Visited :=
  (kind, span) :: if descend kind then below else []

def StringLiteral.visit (descend : NodeKind -> Bool) (literal : StringLiteral) : List Visited :=
  visitNode descend .stringLiteral literal.span []

def GetCall.visit (descend : NodeKind -> Bool) (call : GetCall) : List Visited :=
  visitNode descend .getCall call.span (call.name.elim [] (StringLiteral.visit descend))

def Expr.visit (descend : NodeKind -> Bool) : Expr -> List Visited
  | .string literal => literal.visit descend
  | .number span _ => visitNode descend .numericLiteral span []
  | .boolean span _ => visitNode descend .booleanLiteral span []
  | .get call => call.visit descend
  | .length span arg =>
      visitNode descend .lengthCall span (arg.elim [] (GetCall.visit descend))
  | .choose span test yes no =>
      visitNode descend .ifExpression span
        (test.visit descend ++ yes.visit descend ++ no.visit descend)
  | .compare span left _ right =>
      visitNode descend .binaryComparison span (left.visit descend ++ right.visit descend)
  | .missing => []

def Segment.visit (descend : NodeKind -> Bool) : Segment -> List Visited
  | .text literal => literal.visit descend
  | .formula span value =>
      visitNode descend .formula span (value.elim [] (Expr.visit descend))
  | .missing => []

def TemplateBody.visit (descend : NodeKind -> Bool) (body : TemplateBody) : List Visited :=
  visitNode descend .templateString body.span (body.segments.flatMap (Segment.visit descend))

def SourceFile.visit (descend : NodeKind -> Bool) (file : SourceFile) : List Visited :=
  visitNode descend .sourceFile file.span
    (file.body.elim [] (TemplateBody.visit descend) ++
      file.eof.elim [] fun span => visitNode descend .endOfFile span [])

def SourceFile.nodes (file : SourceFile) : List Visited :=
  file.visit fun _ => true

end Backtick
