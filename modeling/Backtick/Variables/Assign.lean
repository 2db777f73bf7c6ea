import Backtick.Constant.Evaluate
import Backtick.Text.Quoted
import Backtick.Variables.Store

/-!
# Assignments

An assignment is a name, an equals sign and a value. The value is read as a
constant, so that numbers, lists and mappings keep their kind; what is no constant
is taken as it stands.
-/

namespace Backtick

/-- A name with the value that it is given. -/
structure Assignment where
  name : Bytes
  value : Value

namespace Assignment

/-- The value of what stands behind the equals sign. -/
def valueOf (text : Bytes) : Value :=
  if (Text.trim text).isEmpty then .string text
  else (Constant.ofText? text).getD (.string text)

/-- Whether a name is refused: it is empty or has a blank inside. -/
def refuses (name : Bytes) : Bool :=
  name.isEmpty || name.any fun b => b = ' '.toUInt8 || b = '\t'.toUInt8

def parse (text : Bytes) : Except Fault Assignment :=
  let fault := (Fault.ofKind .assignment).because (Text.quote text ++ " (want NAME=VALUE)")
  match Bytes.cut? '='.toUInt8 text with
  | none => .error fault
  | some (before, after) =>
      let name := Text.trim before
      if refuses name then .error fault else .ok ⟨name, valueOf after⟩

end Assignment

def Store.assign (s : Store) (text : Bytes) : Except Fault Store :=
  (Assignment.parse text).map fun a => s.set a.name a.value

end Backtick
