import Backtick.Bytes.Basic

/-!
# Input modes

A session reads templates to be rendered, or commands to itself.
-/

namespace Backtick

/-- What a line of input is taken for. -/
inductive Mode
  | template
  | command
deriving DecidableEq, Repr

namespace Mode

def code : Mode -> Nat
  | .template => 0
  | .command => 1

def ofCode (code : Int) : Mode :=
  if code = 1 then .command else .template

def other : Mode -> Mode
  | .template => .command
  | .command => .template

/-- What stands in front of the input. -/
def prompt : Mode -> Bytes
  | .template => "➜ "
  | .command => " :"

/-- What marks a line of the mode in a history file. -/
def mark : Mode -> Bytes
  | .template => "E:"
  | .command => "C:"

/-- What is shown below an empty input. -/
def hint : Mode -> Bytes
  | .template => "Type a template or press Esc for commands"
  | .command => "Type a command or help (press Esc to return)"

end Mode

end Backtick
