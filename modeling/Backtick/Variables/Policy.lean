import Backtick.Fault.Basic
import Backtick.Text.Blank
import Backtick.Text.Quoted

/-!
# Missing variables

What a store answers when it is asked for a name it does not hold.
-/

namespace Backtick

/-- The answers to an unknown name. A code outside the table acts like a refusal. -/
inductive Policy
  | error
  | placeholder
  | empty
  | unknown (code : Int)
deriving DecidableEq, Repr

namespace Policy

def ofCode (code : Int) : Policy :=
  match code with
  | 0 => .error
  | 1 => .placeholder
  | 2 => .empty
  | n => .unknown n

def name : Policy -> Bytes
  | .error => "error"
  | .placeholder => "placeholder"
  | .empty => "empty"
  | .unknown code => "Policy(" ++ Bytes.ofInt code ++ ")"

def names : List Bytes :=
  ["error", "placeholder", "empty"]

/-- The value that stands for an unknown name under the placeholder policy. -/
def placeholderText : Bytes :=
  "Undefined Variable"

/-- Reads the name of a policy, in any case and with blanks around it. -/
def parse (text : Bytes) : Except Fault Policy :=
  let word := (Text.trim text).map Bytes.toLowerByte
  if word = ↑"error" then .ok .error
  else if word = ↑"placeholder" then .ok .placeholder
  else if word = ↑"empty" then .ok .empty
  else
    .error ((Fault.ofKind .policy).because
      (Text.quote text ++ " (want one of " ++ Bytes.join ", " names ++ ")"))

end Policy

end Backtick
