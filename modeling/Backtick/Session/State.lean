import Backtick.Session.Completion
import Backtick.Session.Field
import Backtick.Session.History

/-!
# The state of a session

The state of an interactive session, the completion of the word at the cursor
and the switch between the two modes, each of which keeps a draft of its own.
-/

namespace Backtick

/-- A text put aside, with its cursor. -/
structure Draft where
  text : Bytes
  cursor : Nat
deriving DecidableEq, Repr

def Draft.empty : Draft := ⟨[], 0⟩

structure Session where
  field : Field
  store : Store
  history : History
  /-- The index of the entry that is shown; the size of the history if none is. -/
  historyAt : Nat
  engine : Engine
  /-- The template that was inspected or rendered last. -/
  last : Bytes
  /-- The names that complete the word at the cursor. -/
  found : List Text.Match
  word : Word
  /-- The index of the selected name, or -1. -/
  selected : Int
  /-- Whether names are being tried out one after the other. -/
  cycling : Bool
  beforeCycling : Draft
  /-- What the walk through the commands entered so far began with. -/
  aside : Option (Mode × Draft)
  width : Int
  quitting : Bool
  mode : Mode
  templateDraft : Draft
  commandDraft : Draft

namespace Session

/-- The width of a terminal whose size is not known. -/
def defaultWidth : Int := 80

def new (store : Store) (history : History) (engine : Engine) : Session where
  field := .new defaultWidth
  store := store
  history := history
  historyAt := history.size
  engine := engine
  last := []
  found := []
  word := ⟨0, 0⟩
  selected := 0
  cycling := false
  beforeCycling := .empty
  aside := none
  width := defaultWidth
  quitting := false
  mode := .template
  templateDraft := .empty
  commandDraft := .empty

def input (s : Session) : Bytes :=
  s.field.text

def draft (s : Session) : Draft :=
  ⟨s.input, s.field.cursor⟩

def kept (s : Session) : Mode -> Draft
  | .template => s.templateDraft
  | .command => s.commandDraft

def keep (s : Session) (mode : Mode) (d : Draft) : Session :=
  match mode with
  | .template => { s with templateDraft := d }
  | .command => { s with commandDraft := d }

/-- Confirms the word at the cursor if it is the only name left. -/
def confirm (s : Session) : Session :=
  match s.found with
  | [m] =>
      if s.word.bytes s.input = m.text then
        { s with cycling := false, selected := -1, found := [] }
      else
        s
  | _ => s

/-- Looks again for the names that complete the word at the cursor. -/
def refresh (s : Session) (confirming : Bool) : Session :=
  let (found, word) := Completion.find s.mode s.input s.field.cursor s.store.names
  let s := { s with
    found := found
    word := word
    selected := if s.cycling then s.selected else -1 }
  if confirming then s.confirm else s

def setInput (s : Session) (d : Draft) : Session :=
  let s := { s with field := (s.field.setText d.text).moveTo d.cursor }
  s.refresh false

/-- Whether the word lies in the line, so that another text can take its place. -/
def canReplace (s : Session) : Bool :=
  s.word.start ≤ s.input.length && s.word.stop ≤ s.input.length

/-- Puts a name in place of the word at the cursor, and the cursor behind it. The word has to lie
in the line (`canReplace`). -/
def replaceWord (s : Session) (name : Bytes) : Session :=
  let stop := s.word.start + name.length
  let text := s.input.take s.word.start ++ name ++ s.input.drop s.word.stop
  { s with
    field := (s.field.setText text).moveTo stop
    word := { s.word with stop := stop } }

/-- The index of the name to be tried out next. -/
def nextSelected (s : Session) (forward : Bool) : Int :=
  let size : Int := s.found.length
  if s.cycling then
    Int.tmod (s.selected + (if forward then 1 else -1) + size) size
  else if forward then
    0
  else
    size - 1

/-- Tries out the next name, or the one before; a name that is alone is taken at once. -/
def cycle (s : Session) (forward : Bool) : Session :=
  match s.found with
  | [] => s
  | [m] => { s.replaceWord m.text with cycling := false, selected := -1, found := [] }
  | found =>
      let index := s.nextSelected forward
      let before := if s.cycling then s.beforeCycling else s.draft
      let s := { s with cycling := true, beforeCycling := before, selected := index }
      match found[index.toNat]? with
      | some m => s.replaceWord m.text
      | none => s

/-- Goes back to the input before names were tried out. -/
def stopCycling (s : Session) : Session :=
  { s with cycling := false }.setInput s.beforeCycling

/-- Switches to a mode and its draft, and keeps the draft of the mode that is left. -/
def switchTo (s : Session) (mode : Mode) : Session :=
  let s := { s.keep s.mode s.draft with mode := mode }
  s.setInput (s.kept mode)

end Session

end Backtick
