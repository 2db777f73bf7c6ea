import Backtick.Session.Bar
import Backtick.Session.Key

/-!
# The view of a session

The input with its prompt, and below it one line that says where in the history
the session is, what can be typed, or how the word at the cursor can be completed.
-/

namespace Backtick.Session

/-- The line below the input. -/
def status (s : Session) : Bytes :=
  if s.historyAt < s.history.size then
    Bytes.ofNat (s.historyAt + 1) ++ "/" ++ Bytes.ofNat s.history.size
  else if (Text.trim s.input).isEmpty then
    s.mode.hint
  else
    let bar := Bar.render s.width (s.found.map Text.Match.text)
    if s.found.isEmpty && s.mode = .template then
      match OpenCall.at? s.input s.field.cursor with
      | some call => signatureHint call.name
      | none => bar
    else
      bar

/-- What the terminal shows; nothing once the session is left. -/
def view (s : Session) : Bytes :=
  if s.quitting then [] else s.mode.prompt ++ s.field.view ++ "\n" ++ s.status ++ "\n"

end Backtick.Session
