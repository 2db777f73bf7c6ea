import Backtick.Document.Basic
import Backtick.Session.Key
import Backtick.Variables.Load
import Backtick.Yaml.Write

/-!
# Editing variables

The variables are written as YAML to a file, an editor is run on it, and the
result is loaded. If that fails, the user is asked whether to edit again.
-/

namespace Backtick

/-- The chunks in which input arrives. -/
abbrev InputStream := List Bytes

namespace InputStream

/-- The number of bytes that arrive at once. -/
def chunkSize : Nat := 4096

/--
The chunks of a text, with fuel for as many. Behind the beginning of a line as many bytes
arrive at once as it has, if these are more.
-/
def chunks (begun : Nat) : Nat -> Bytes -> InputStream
  | 0, _ => []
  | fuel + 1, text =>
      if text.isEmpty then
        []
      else
        let size := max chunkSize begun
        let chunk := text.take size
        let ended := chunk.contains '\n'.toUInt8
        chunk :: chunks (if ended then 0 else begun + size) fuel (text.drop size)

def ofBytes (text : Bytes) : InputStream :=
  chunks 0 (text.length / chunkSize + 1) text

/--
Reads chunks behind what was read before, until they hold a line. What follows the line in
them is lost. A stream without any bytes left has no line.
-/
def lineFrom? (before : Bytes) : InputStream -> Option (Bytes × InputStream)
  | [] => if before.isEmpty then none else some (before, [])
  | chunk :: rest =>
      match Bytes.cut? '\n'.toUInt8 (before ++ chunk) with
      | some (line, _) => some (line, rest)
      | none => lineFrom? (before ++ chunk) rest

/-- The next line of a stream, if it is within the limit. -/
def line? (stream : InputStream) : Option (Bytes × InputStream) :=
  match lineFrom? [] stream with
  | some (line, rest) => if line.length < Text.lineLimit then some (line, rest) else none
  | none => none

end InputStream

namespace Editing

inductive Ending
  | edited (values : Fields Value)
  /-- Nothing was left in the file. -/
  | cancelled
  | declined
  | failed (fault : Fault)

/-- An editing of variables: its end, the texts the editor was given, and what was printed. -/
structure Transcript where
  ending : Ending
  seen : List Bytes
  stdout : Bytes
  stderr : Bytes

def textOf (values : Fields Value) : Bytes :=
  (Document.ofValue .yaml (.map values)).yaml 2

def question : Bytes :=
  "Re-edit? [Y/n] "

def declines (answer : Bytes) : Bool :=
  let word := Text.trim (answer.map Bytes.toLowerByte)
  word = ↑"n" || word = ↑"no"

def Transcript.after (seen stdout stderr : Bytes) (t : Transcript) : Transcript :=
  { t with seen := seen :: t.seen, stdout := stdout ++ t.stdout, stderr := stderr ++ t.stderr }

/--
Edits a text. The editor leaves the given contents, one at each run, and fails when there
are none left.
-/
def run (text : Bytes) (stdin : InputStream) : List Bytes -> Transcript
  | [] => ⟨.failed (Fault.saying "exit status 3"), [text], [], []⟩
  | content :: contents =>
      if (Text.trim content).isEmpty then
        ⟨.cancelled, [text], [], []⟩
      else
        match loadVariables content with
        | .ok values => ⟨.edited values, [text], [], []⟩
        | .error f =>
            let complaint : Bytes := "\n" ++ f.message ++ "\n"
            match stdin.line? with
            | none => ⟨.declined, [text], question, complaint⟩
            | some (answer, rest) =>
                if declines answer then
                  ⟨.declined, [text], question, complaint⟩
                else
                  (run content rest contents).after text question complaint

end Editing

def Session.edited (s : Session) : Editing.Ending -> Session × List Effect
  | .edited values =>
      ({ s with store := s.store.replace values }, [.print "✔ — variables updated"])
  | .cancelled => (s, [.print "🗴 — edit cancelled."])
  | .declined => (s.quit, [.quit])
  | .failed f => (s, [.print (Text.styled ("🗴 — error: " ++ f.message))])

end Backtick
