import Backtick.Session.State

/-!
# Recall of earlier lines

The keys that walk through the history: through all of it, through the entries
of one mode, or through the commands from either mode and back.
-/

namespace Backtick

/-- The directions of a walk through the history. -/
inductive Direction
  | older
  | newer
deriving DecidableEq, Repr

/-- The nearest entry in a direction that has a property. -/
def History.next? (h : History) (d : Direction) (p : HistoryEntry -> Bool) (index : Nat) :
    Option (Nat × HistoryEntry) :=
  match d with
  | .older => h.before? p index
  | .newer => h.after? p index

namespace Session

def showEntry (s : Session) (index : Nat) (e : HistoryEntry) : Session :=
  { s with historyAt := index }.setInput ⟨e.line, e.line.length⟩

def leaveHistory (s : Session) (d : Draft) : Session :=
  { s with historyAt := s.history.size }.setInput d

/--
Walks to the next entry. The mode follows the entry, unless only entries of the
present mode are asked for. Past the newest entry the input is empty.
-/
def walk (s : Session) (d : Direction) (sameMode : Bool) : Session :=
  let wanted (e : HistoryEntry) : Bool := !sameMode || e.mode = s.mode
  match s.history.next? d wanted s.historyAt with
  | some (i, e) =>
      let s := if e.mode = s.mode then s else s.switchTo e.mode
      s.showEntry i e
  | none =>
      if d = .newer && s.historyAt < s.history.size then s.leaveHistory .empty else s

/-- Begins a walk through the commands, unless one is under way. -/
def setAside (s : Session) : Session :=
  match s.aside with
  | some _ => s
  | none =>
      let s := { s with aside := some (s.mode, s.draft) }
      if s.mode = .command then s else s.switchTo .command

/-- Ends a walk through the commands with what it began with. -/
def takeBack (s : Session) : Session :=
  match s.aside with
  | none => s
  | some (mode, d) =>
      let s := { s with aside := none }
      let s := if mode = s.mode then s else s.switchTo mode
      s.leaveHistory d

/-- Walks to the next command; past either end the walk is over. -/
def walkCommands (s : Session) (d : Direction) : Session :=
  let s := s.setAside
  match s.history.next? d (fun e => e.mode = .command) s.historyAt with
  | some (i, e) => s.showEntry i e
  | none => s.takeBack

end Session

end Backtick
