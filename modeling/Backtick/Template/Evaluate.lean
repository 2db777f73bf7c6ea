import Backtick.Tree.Basic
import Backtick.Value.Compare
import Backtick.Value.Length
import Backtick.Value.Text

/-!
# Rendering a tree

A tree is rendered segment by segment. `GET` and `LENGTH` are answered by the
bindings that the caller supplies; every question put to them is recorded in
order, together with the outcome.
-/

namespace Backtick

/-- The answers to `GET` and `LENGTH`: what is asked again is answered alike. -/
structure Bindings where
  get : Bytes -> Except Fault Value
  length : Value -> Except Fault Int

/-- A question put to the bindings. -/
inductive Call
  | get (name : Bytes)
  | length (v : Value)

/-- An outcome with the calls made on the way to it. -/
structure Traced (α : Type) where
  calls : List Call
  outcome : Except Fault α

namespace Traced

variable {α β : Type}

def done (outcome : Except Fault α) : Traced α :=
  ⟨[], outcome⟩

instance : Monad Traced where
  pure a := done (.ok a)
  bind x f :=
    match x.outcome with
    | .error fault => ⟨x.calls, .error fault⟩
    | .ok a => let y := f a; ⟨x.calls ++ y.calls, y.outcome⟩

/-- The same calls with the fault of a failed outcome changed. -/
def mapFault (f : Fault -> Fault) (x : Traced α) : Traced α :=
  ⟨x.calls, x.outcome.mapError f⟩

end Traced

namespace Bindings

def askGet (fn : Bindings) (name : Bytes) : Traced Reading :=
  ⟨[.get name], (fn.get name).map fun v => ⟨v, some name⟩⟩

def askLength (fn : Bindings) (v : Value) : Traced Reading :=
  ⟨[.length v], (fn.length v).map fun n => .made (.double (Binary64.ofInt n))⟩

end Bindings

/-- The fault of an evaluation that a call at a column brought down. -/
def evaluationFault (variable_ : Bytes) (column : Int) (cause : Fault) : Fault :=
  (((Fault.ofKind .evaluation).wrap (some cause)).withAttrs
    [("variable", .text variable_)]).withColumn column

/-- The fault of a node that cannot be evaluated. -/
def cannotEvaluate : Fault :=
  (Fault.ofKind .internal).because "cannot evaluate <nil>"

def GetCall.evaluate (fn : Bindings) (call : GetCall) : Traced Reading :=
  match call.name with
  | none => .done (.error cannotEvaluate)
  | some name => (fn.askGet name.value).mapFault (evaluationFault name.value call.span.start)

/-- The name asked for by a call of `GET`; an absent name is empty. -/
def GetCall.nameValue (call : GetCall) : Bytes :=
  call.name.elim [] StringLiteral.value

def Expr.evaluate (fn : Bindings) : Expr -> Traced Reading
  | .string literal => pure (.made (.string literal.value))
  | .number _ x => pure (.made (.double x))
  | .boolean _ b => pure (.made (.bool b))
  | .get call => call.evaluate fn
  | .length span arg =>
      match arg with
      | none => .done (.error cannotEvaluate)
      | some call => do
          let v <- call.evaluate fn
          (fn.askLength v.value).mapFault (evaluationFault call.nameValue span.start)
  | .choose _ test yes no => do
      let c <- test.evaluate fn
      if c.value.truthy then yes.evaluate fn else no.evaluate fn
  | .compare _ left op right => do
      let l <- left.evaluate fn
      let r <- right.evaluate fn
      return .made (.bool (l.compare op r))
  | .missing => .done (.error cannotEvaluate)

/-- The value of a segment; an empty formula is empty text. -/
def Segment.evaluate (fn : Bindings) : Segment -> Traced Value
  | .text literal => pure (.string literal.value)
  | .formula _ none => pure (.string [])
  | .formula _ (some e) => do
      let r <- e.evaluate fn
      return r.value
  | .missing => .done (.error cannotEvaluate)

def renderSegments (fn : Bindings) : List Segment -> Traced Bytes
  | [] => pure []
  | segment :: rest => do
      let v <- segment.evaluate fn
      let more <- renderSegments fn rest
      return v.text ++ more

def SourceFile.render (fn : Bindings) (file : SourceFile) : Traced Bytes :=
  renderSegments fn file.segments

end Backtick
