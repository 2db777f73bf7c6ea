import Backtick.Script.Read
import Backtick.Template.Evaluate

/-!
# Running scripts

The value of a term under bindings. A script that cannot be read is a fault of
its own; a failing call is a failed evaluation.
-/

namespace Backtick.Script

/-- The fault of an operation on values of a wrong type. -/
def mismatch : Fault :=
  Fault.saying "invalid operation"

def asText : Value -> Traced Bytes
  | .string s => pure s
  | _ => .done (.error mismatch)

/-- The sum of two texts. -/
def addValues : Value -> Value -> Traced Reading
  | .string a, .string b => pure (.made (.string (a ++ b)))
  | _, _ => .done (.error mismatch)

def Term.run (fn : Bindings) : Term -> Traced Reading
  | .text s => pure (.made (.string s))
  | .number x => pure (.made (.double x))
  | .flag b => pure (.made (.bool b))
  | .get arg => do
      let r <- arg.run fn
      let name <- asText r.value
      fn.askGet name
  | .length arg => do
      let r <- arg.run fn
      fn.askLength r.value
  | .isTruthy arg => do
      let r <- arg.run fn
      return .made (.bool r.value.truthy)
  | .toText arg => do
      let r <- arg.run fn
      return .made (.string r.value.text)
  | .compare op left right => do
      let l <- left.run fn
      let r <- right.run fn
      return .made (.bool (l.compare op r))
  | .add left right => do
      let l <- left.run fn
      let r <- right.run fn
      addValues l.value r.value
  | .negate arg => do
      let r <- arg.run fn
      match r.value with
      | .double x => return .made (.double x.neg)
      | _ => .done (.error mismatch)
  | .choose test yes no => do
      let c <- test.run fn
      match c.value with
      | .bool true => yes.run fn
      | .bool false => no.run fn
      | _ => .done (.error mismatch)

def render (fn : Bindings) (source : Bytes) : Traced Bytes :=
  match read? source with
  | none => .done (.error (Fault.ofKind .expression))
  | some t =>
      let result := (t.run fn).mapFault fun cause =>
        (Fault.ofKind .evaluation).wrap (some cause)
      ⟨result.calls, result.outcome.map fun r => r.value.text⟩

end Backtick.Script
