import Backtick.Fault.Basic
import Backtick.Number.Notation
import Backtick.Text.Quoted
import Backtick.Tree.Basic

/-!
# Scripts of a template

A template can also be written as one expression over the functions `get`,
`length`, `isTruthy`, `toText` and the comparators `lt`, `le`, `eq`, `gt`, `ge`.
Writing it checks the tree: an absent child or an unknown comparator is an
internal fault.
-/

namespace Backtick

def Comparator.function? : Comparator -> Option Bytes
  | .less => some "lt"
  | .lessEqual => some "le"
  | .strictEqual => some "eq"
  | .greater => some "gt"
  | .greaterEqual => some "ge"
  | .unknown _ => none

namespace Script

def unknownNode : Fault :=
  (Fault.ofKind .internal).because "unknown node <nil>"

/-- A number, always with a point. -/
def number (x : Binary64) : Bytes :=
  let figures := Notation.positional.write .double x
  if figures.contains '.'.toUInt8 then figures else figures ++ ".0"

end Script

def GetCall.emit (call : GetCall) : Except Fault Bytes :=
  match call.name with
  | none =>
      .error (((Fault.ofKind .internal).because "GET without argument").withColumn call.span.start)
  | some name => .ok ("get(" ++ Text.quote name.value ++ ")")

def Expr.emit : Expr -> Except Fault Bytes
  | .string literal => .ok (Text.quote literal.value)
  | .number _ x => .ok (Script.number x)
  | .boolean _ b => .ok (if b then "true" else "false")
  | .get call => call.emit
  | .length span arg =>
      match arg with
      | none =>
          .error
            (((Fault.ofKind .internal).because "LENGTH without argument").withColumn span.start)
      | some call => do
          let arg <- call.emit
          return "length(" ++ arg ++ ")"
  | .choose _ test yes no => do
      let test <- test.emit
      let yes <- yes.emit
      let no <- no.emit
      return "(isTruthy(" ++ test ++ ") ? " ++ yes ++ " : " ++ no ++ ")"
  | .compare span left op right => do
      let left <- left.emit
      let right <- right.emit
      match op.function? with
      | none =>
          .error (((Fault.ofKind .internal).because
            ("unknown comparator " ++ op.text)).withColumn span.start)
      | some f => return f ++ "(" ++ left ++ ", " ++ right ++ ")"
  | .missing => .error Script.unknownNode

def Segment.emit : Segment -> Except Fault Bytes
  | .text literal => .ok (Text.quote literal.value)
  | .formula _ none => .ok "\"\""
  | .formula _ (some e) => e.emit
  | .missing => .error Script.unknownNode

def emitSegments : List Segment -> Except Fault (List Bytes)
  | [] => .ok []
  | segment :: rest => do
      let source <- segment.emit
      let more <- emitSegments rest
      return ("toText(" ++ source ++ ")") :: more

/-- The script of a template; that of one without segments is the empty text. -/
def SourceFile.emit (file : SourceFile) : Except Fault Bytes :=
  if file.segments.isEmpty then
    .ok "\"\""
  else do
    let parts <- emitSegments file.segments
    return Bytes.join " + " parts

def GetCall.names (call : GetCall) : List Bytes :=
  call.name.elim [] fun name => [name.value]

/-- The names asked for by an expression, in source order. -/
def Expr.names : Expr -> List Bytes
  | .get call => call.names
  | .length _ arg => arg.elim [] GetCall.names
  | .choose _ test yes no => test.names ++ yes.names ++ no.names
  | .compare _ left _ right => left.names ++ right.names
  | _ => []

def Segment.names : Segment -> List Bytes
  | .formula _ (some e) => e.names
  | _ => []

/-- The names asked for by a template, in source order and with repetitions. -/
def SourceFile.names (file : SourceFile) : List Bytes :=
  file.segments.flatMap Segment.names

end Backtick
