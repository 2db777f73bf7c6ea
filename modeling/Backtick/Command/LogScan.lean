import Backtick.Log.Logger

/-!
# Early log flags

The flags of the log are looked for before the command line is read, so that the
log is set up wherever they stand.
-/

namespace Backtick

/-- What was found so far: the texts as given, and the logger that they make. -/
structure LogScan where
  level : Bytes
  format : Bytes
  caller : Bool
  pretty : Bool
  logger : Log.Logger

namespace LogScan

def start (logger : Log.Logger) : LogScan :=
  ⟨[], [], false, false, logger⟩

def truth? (word : Bytes) : Option Bool :=
  if (["1", "t", "T", "TRUE", "true", "True"] : List Bytes).contains word then some true
  else if (["0", "f", "F", "FALSE", "false", "False"] : List Bytes).contains word then some false
  else none

/--
The value of a switch: on by itself, off by its negation. A value that is assigned
to the negation is inverted; one that is no truth value gives none.
-/
def switch? (value : Option Bytes) (negated : Bool) : Option Bool :=
  match value with
  | none => some !negated
  | some word => (truth? word).map (· != negated)

def setLevel (s : LogScan) (text : Bytes) : LogScan :=
  { s with level := text, logger := s.logger.wrap ⟨some (.parse text), none, none, none⟩ }

def setFormat (s : LogScan) (text : Bytes) : LogScan :=
  { s with format := text, logger := s.logger.wrap ⟨none, some (.parse text), none, none⟩ }

def setCaller (s : LogScan) (on : Bool) : LogScan :=
  { s with caller := on }

def setPretty (s : LogScan) (on : Bool) : LogScan :=
  { s with pretty := on, logger := s.logger.wrap ⟨none, none, none, some on⟩ }

/-- Takes the text for a level or a format. -/
def setText (s : LogScan) (name text : Bytes) : LogScan :=
  if name = ↑"log-level" then s.setLevel text else s.setFormat text

def setSwitch (s : LogScan) (name : Bytes) (value : Option Bytes) (negated : Bool) : LogScan :=
  match switch? value negated with
  | none => s
  | some on =>
      if name = ↑"log-caller" then s.setCaller on
      else if name = ↑"log-pretty" then s.setPretty on
      else s

/-- Goes through the words; `waiting` is the flag whose text may come next. -/
def words (s : LogScan) (waiting : Option Bytes) : List Bytes -> LogScan
  | [] => waiting.elim s fun name => s.setText name []
  | w :: rest =>
      match waiting with
      | some name =>
          if w.head? = some '-'.toUInt8 then flag (s.setText name []) w rest
          else words (s.setText name w) none rest
      | none => flag s w rest
where
  /-- A word that is not the text of a flag. -/
  flag (s : LogScan) (w : Bytes) (rest : List Bytes) : LogScan :=
    match Bytes.dropStart? "--" w with
    | none => words s none rest
    | some [] => s
    | some body =>
        let (full, value) : Bytes × Option Bytes :=
          match Bytes.cut? '='.toUInt8 body with
          | some (full, value) => (full, some value)
          | none => (body, none)
        let (name, negated) : Bytes × Bool :=
          match Bytes.dropStart? "no-" full with
          | some name => (name, true)
          | none => (full, false)
        if name = ↑"log-level" || name = ↑"log-format" then
          if negated then words s none rest
          else
            match value with
            | some text => words (s.setText name text) none rest
            | none => words s (some name) rest
        else
          words (s.setSwitch name value negated) none rest

end LogScan

end Backtick
