import Backtick.Session.Command
import Backtick.Session.Recall

/-!
# Keys

What a key does to a session, and what the session does to the terminal.
-/

namespace Backtick

inductive Key
  | enter
  | tab
  | backTab
  | up
  | down
  | shiftUp
  | shiftDown
  | escape
  /-- Clears the line, or leaves the session if the line is empty. -/
  | interrupt
  /-- Leaves the session if the line is empty. -/
  | finish
  | space
  | typed (cs : List Char)
  | other (name : Bytes)
deriving DecidableEq, Repr

namespace Key

/-- The name of a key that edits the line. -/
def name : Key -> Bytes
  | .typed cs => Utf8.ofChars cs
  | .space => " "
  | .other name => name
  | _ => []

def chars : Key -> List Char
  | .typed cs => cs
  | .space => [' ']
  | _ => []

def isTyped : Key -> Bool
  | .typed _ => true
  | _ => false

end Key

/-- A key with the state of the Alt key. -/
structure KeyPress where
  key : Key
  alt : Bool
deriving DecidableEq, Repr

def KeyPress.name (k : KeyPress) : Bytes :=
  if k.alt then "alt+" ++ k.key.name else k.key.name

inductive Effect
  | print (text : Bytes)
  | clear
  | quit
  /-- Hands the terminal over to an editor of the variables. -/
  | editor
deriving DecidableEq, Repr

namespace Session

/-- What is shown of a line that was entered. -/
def echo (mode : Mode) (input : Bytes) : Effect :=
  .print (mode.prompt ++ Text.styled input)

def quit (s : Session) : Session :=
  { s with quitting := true }

def enterCommand (s : Session) (input : Bytes) : Session × List Effect :=
  let (name, rest) := (Bytes.cut? ' '.toUInt8 input).getD (input, [])
  let argument := Text.trim rest
  let shown := echo .command input
  if name = ↑"q" || name = ↑"quit" || name = ↑"exit" then (s.quit, [shown, .quit])
  else if name = ↑"c" || name = ↑"clear" then (s, [.clear])
  else if name = ↑"e" || name = ↑"edit" then (s, [shown, .editor])
  else
    match s.run name argument with
    | (s, .ok out) => (s, [shown, .print out])
    | (s, .error f) => (s, [shown, .print (f.shown s.last)])

def enterTemplate (s : Session) (input : Bytes) : Session × List Effect :=
  let shown := echo .template input
  match s.render input with
  | (s, .ok out) => (s, [shown, .print (Text.styled out)])
  | (s, .error f) => (s, [shown, .print (f.shown s.last)])

/-- Enters the line; a blank one is left as it is. -/
def enter (s : Session) : Session × List Effect :=
  let input := Text.trim s.input
  if input.isEmpty then
    (s, [])
  else
    let history := s.history.add input s.mode
    let s := { s with
      templateDraft := .empty
      commandDraft := .empty
      field := s.field.setText []
      found := []
      history := history
      historyAt := history.size }
    match s.mode with
    | .command => s.enterCommand input
    | .template => s.enterTemplate input

def clearLine (s : Session) : Session :=
  let s := { s with
    field := s.field.setText []
    cycling := false
    aside := none
    historyAt := s.history.size }
  s.refresh false

def edit (s : Session) (k : KeyPress) : Session :=
  let typing := k.key.isTyped
  let s := { s with
    cycling := s.cycling && typing && k.name != (" " : Bytes)
    aside := if typing then s.aside else none
    historyAt := s.history.size
    field := s.field.press k.name k.key.chars }
  s.refresh typing

def press (s : Session) (k : KeyPress) : Session × List Effect :=
  match k.key with
  | .interrupt => if s.field.value.isEmpty then (s.quit, [.quit]) else (s.clearLine, [])
  | .finish => if s.field.value.isEmpty then (s.quit, [.quit]) else (s, [])
  | .enter =>
      let s := { s with aside := none }
      if s.cycling && !s.found.isEmpty then
        ({ s with cycling := false }.refresh true, [])
      else
        s.enter
  | .tab => (s.cycle true, [])
  | .backTab => (s.cycle false, [])
  | .up => (if k.alt then s.walkCommands .older else s.walk .older false, [])
  | .down => (if k.alt then s.walkCommands .newer else s.walk .newer false, [])
  | .shiftUp => (s.walk .older true, [])
  | .shiftDown => (s.walk .newer true, [])
  | .escape =>
      if s.cycling then (s.stopCycling, [])
      else ({ s with aside := none }.switchTo s.mode.other, [])
  | .space | .typed _ | .other _ => (s.edit k, [])

/-- Whether a key ends the program where it stands: it tries out a name for a word that does not
lie in the line. -/
def breaks (s : Session) (k : KeyPress) : Bool :=
  match k.key with
  | .tab | .backTab => !s.found.isEmpty && !s.canReplace
  | _ => false

/-- What a key does, if the program goes on behind it. -/
def press? (s : Session) (k : KeyPress) : Option (Session × List Effect) :=
  if s.breaks k then none else some (s.press k)

def resize (s : Session) (width : Int) : Session :=
  { s with width := width, field := { s.field with width := width - 6 } }

end Session

end Backtick
