import Backtick.Fault.Basic
import Backtick.Session.Mode
import Backtick.Text.Blank
import Backtick.Text.Lines

/-!
# History

The lines entered so far, the oldest first. A line entered again moves to the
end, and beyond a limit the oldest lines are dropped. A history is kept in
memory only, or also in a file with one entry a line.
-/

namespace Backtick

/-- A line that was entered in a mode. -/
structure HistoryEntry where
  line : Bytes
  mode : Mode
deriving DecidableEq, Repr

namespace HistoryEntry

def text (e : HistoryEntry) : Bytes :=
  e.mode.mark ++ e.line

/-- Reads a line of a history file; a line without a mark is a template. -/
def ofText (text : Bytes) : HistoryEntry :=
  match Bytes.dropStart? Mode.template.mark text, Bytes.dropStart? Mode.command.mark text with
  | some line, _ => ⟨line, .template⟩
  | none, some line => ⟨line, .command⟩
  | none, none => ⟨text, .template⟩

end HistoryEntry

/-- Where a history is kept besides memory: nowhere, or in a file that may not exist yet. -/
inductive HistoryFile
  | nowhere
  | missing
  | content (text : Bytes)
deriving DecidableEq, Repr

namespace HistoryFile

def write (file : HistoryFile) (text : Bytes) : HistoryFile :=
  match file with
  | .nowhere => .nowhere
  | .missing | .content _ => .content text

def append (file : HistoryFile) (text : Bytes) : HistoryFile :=
  match file with
  | .nowhere => .nowhere
  | .missing => .content text
  | .content old => .content (old ++ text)

end HistoryFile

/-- The entries, and the file in which they are kept. -/
structure History where
  entries : List HistoryEntry
  file : HistoryFile
deriving DecidableEq, Repr

namespace History

/-- The number of entries kept. -/
def limit : Nat := 1000

def new (file : HistoryFile) : History :=
  ⟨[], file⟩

def entriesOf (text : Bytes) : List HistoryEntry :=
  let kept := ((Text.readableLines text).map Text.trim).filter fun line => !line.isEmpty
  kept.map HistoryEntry.ofText

/-- Reads the file. A file that does not exist changes nothing. -/
def load (h : History) : History :=
  match h.file with
  | .nowhere | .missing => h
  | .content text => { h with entries := entriesOf text }

/-- The fault of reading the file, if it holds a line that is too long. -/
def loadFault? (h : History) : Option Fault :=
  match h.file with
  | .nowhere | .missing => none
  | .content text =>
      if Text.isReadable text then none
      else some (Fault.saying "bufio.Scanner: token too long")

def record (e : HistoryEntry) : Bytes :=
  e.text ++ "\n"

/-- Adds an entry at the end and keeps the file in step. -/
def push (h : History) (e : HistoryEntry) : History :=
  let moved := h.entries.contains e
  let all := h.entries.erase e ++ [e]
  let kept := all.drop (all.length - limit)
  let file :=
    if moved || limit < all.length then
      h.file.write (kept.flatMap record)
    else
      h.file.append (record e)
  ⟨kept, file⟩

/-- Adds a line. A blank line and a repetition of the newest entry change nothing. -/
def add (h : History) (line : Bytes) (mode : Mode) : History :=
  let e : HistoryEntry := ⟨Text.trim line, mode⟩
  if e.line.isEmpty || h.entries.getLast? = some e then h else h.push e

/-- The entry at an index, the oldest at 0. -/
def entry (h : History) (index : Int) : Except Fault HistoryEntry :=
  match index with
  | .ofNat i =>
      match h.entries[i]? with
      | some e => .ok e
      | none => .error (Fault.ofKind .outOfBounds)
  | .negSucc _ => .error (Fault.ofKind .outOfBounds)

def size (h : History) : Nat :=
  h.entries.length

/-- The nearest index below a given one whose entry has a property. -/
def before? (h : History) (p : HistoryEntry -> Bool) : Nat -> Option (Nat × HistoryEntry)
  | 0 => none
  | i + 1 =>
      match h.entries[i]? with
      | some e => if p e then some (i, e) else h.before? p i
      | none => h.before? p i

/-- The nearest index above a given one whose entry has a property. -/
def after? (h : History) (p : HistoryEntry -> Bool) (index : Nat) : Option (Nat × HistoryEntry) :=
  (h.entries.zipIdx.drop (index + 1)).findSome? fun (e, i) => if p e then some (i, e) else none

end History

end Backtick
