import Backtick.Session.Preview
import Backtick.Session.State
import Backtick.Text.Styled
import Backtick.Token.Listing
import Backtick.Tree.Outline
import Backtick.Variables.Assign

/-!
# Commands of a session

Rendering a template, listing and changing variables, and showing the tokens,
the tree or the script of a template.
-/

namespace Backtick

/-- The input enclosed in backticks, unless it starts with one. -/
def enclosed (input : Bytes) : Bytes :=
  if input.head? = some '`'.toUInt8 then input else "`" ++ input ++ "`"

/-- A fault as it is shown, with a caret below its column in a template. -/
def Fault.shown (template : Bytes) (f : Fault) : Bytes :=
  let message := Text.styled ("error: " ++ f.message)
  match f.snippet template with
  | [] => message
  | snippet => message ++ "\n" ++ Text.styled ((Bytes.dropEnd? "\n" snippet).getD snippet)

namespace Session

def helpText : Bytes :=
  Bytes.join "\n"
    [ "",
      ": Commands (press Esc to toggle mode):",
      "",
      "  help                 Print this cruft",
      "  vars                 List variables",
      "  set NAME=EXPR        Set a variable (EXPR is an expr-lang literal)",
      "  unset NAME           Remove a variable",
      "  tokens [TEMPLATE]    Show the tokens of TEMPLATE or the last template",
      "  ast [TEMPLATE]       Show the syntax tree",
      "  emit [TEMPLATE]      Show the expr-lang program",
      "  engine [interp|expr] Show or select the evaluator",
      "  edit                 Edit variables as YAML in $EDITOR",
      "  clear                Clear screen",
      "  quit                 Exit REPL",
      "",
      "Usage:",
      "  Type a template to render it; the enclosing backticks are optional",
      "  Completions appear inside formulas (keywords) and GET('...') (variables)",
      "  Press Tab / Shift-Tab to cycle through candidates",
      "  Press Esc to toggle between eval and command modes",
      "  Use Up/Down arrows for history navigation (mode switches automatically)",
      "  Use Shift+Up/Shift+Down for history navigation within current mode only",
      "  Use Alt+Up/Alt+Down to navigate command history",
      "  Press Ctrl+C on empty line or Ctrl+D to exit",
      "" ]

/-- Renders a line of input as a template, which becomes the last one. -/
def render (s : Session) (input : Bytes) : Session × Except Fault Bytes :=
  let template := enclosed input
  let outcome := (compile false template).outcome.bind fun t =>
    (s.engine.render t s.store).outcome
  ({ s with last := template }, outcome)

def variableList (s : Session) : Bytes :=
  let names := s.store.names
  if names.isEmpty then
    "  (no variables)"
  else
    let width := (names.map List.length).foldl max 0
    Bytes.join "\n" (names.map fun name =>
      let v := (s.store.lookup name).getD .null
      "  " ++ Utf8.padTo width name ++ " " ++ Text.styled v.preview)

def setVariable (s : Session) (assignment : Bytes) : Session × Except Fault Bytes :=
  match s.store.assign assignment with
  | .error f => (s, .error f)
  | .ok store =>
      let before := ((Bytes.cut? '='.toUInt8 assignment).map Prod.fst).getD assignment
      let name := Text.trim before
      let v := (store.lookup name).getD .null
      ({ s with store := store }, .ok (Text.styled (name ++ " = " ++ v.preview)))

def unsetVariable (s : Session) (name : Bytes) : Session × Except Fault Bytes :=
  match s.store.lookup name with
  | some _ => ({ s with store := s.store.delete name }, .ok (Text.styled ("unset " ++ name)))
  | none => (s, .error ((Fault.ofKind .undefined).because (Text.quote name)))

def selectEngine (s : Session) (word : Bytes) : Session × Except Fault Bytes :=
  if word.isEmpty then
    (s, .ok ("engine: " ++ s.engine.word))
  else if Engine.words.contains word then
    ({ s with engine := .ofWord word }, .ok ("engine: " ++ word))
  else
    (s, .error (Fault.saying
      ("unknown engine " ++ Text.quote word ++ " (want " ++ Bytes.join " or " Engine.words ++ ")")))

/-- What can be shown of a template. -/
inductive Aspect
  | tokens
  | tree
  | script

def dropFeed (text : Bytes) : Bytes :=
  (Bytes.dropEnd? "\n" text).getD text

def Aspect.text (aspect : Aspect) (template : Bytes) : Except Fault Bytes :=
  match aspect with
  | .tokens =>
      match tokenize template with
      | .error e => .error e.toFault
      | .ok found => .ok (dropFeed (Token.table found))
  | .script => (compile false template).outcome.map Template.source
  | .tree => do
      let t <- (compile false template).outcome
      match t.file with
      | none => .error (Fault.ofKind .replNoTemplate)
      | some file => return dropFeed ((Document.ofValue .yaml file.outline).yaml 2)

/-- Shows an aspect of a template, or of the last one if none is given. -/
def inspect (s : Session) (aspect : Aspect) (input : Bytes) : Session × Except Fault Bytes :=
  let last := if input.isEmpty then s.last else enclosed input
  let outcome :=
    if last.isEmpty then .error (Fault.ofKind .replNoTemplate) else aspect.text last
  ({ s with last := last }, outcome)

def run (s : Session) (name argument : Bytes) : Session × Except Fault Bytes :=
  if name = ↑"h" || name = ↑"help" then (s, .ok helpText)
  else if name = ↑"vars" then (s, .ok s.variableList)
  else if name = ↑"set" then s.setVariable argument
  else if name = ↑"unset" then s.unsetVariable argument
  else if name = ↑"engine" then s.selectEngine argument
  else if name = ↑"tokens" then s.inspect .tokens argument
  else if name = ↑"ast" then s.inspect .tree argument
  else if name = ↑"emit" then s.inspect .script argument
  else (s, .error (Fault.saying ("unknown command: " ++ name ++ " (try 'help')")))

end Session

end Backtick
