import Std.Time.DateTime.Timestamp
import Backtick.Command.Paths
import Backtick.Session.Editor
import Backtick.Session.View

/-!
# The command line

The outer layer: it looks up the files that a run asks for, runs the program on
them, and writes what it answers.
-/

namespace Backtick.Main

/-- A byte string as a string; bytes that are no part of a character are replaced. -/
def toText (b : Bytes) : String :=
  String.ofList (Utf8.chars b)

def put (stream : IO.FS.Stream) (b : Bytes) : IO Unit := do
  stream.write ⟨b.toArray⟩
  stream.flush

/-- A directory of the user from the environment, or below the home directory. -/
def userDir (variable_ fallback : String) : IO Bytes := do
  let found <- IO.getEnv variable_
  let home <- IO.getEnv "HOME"
  let base : Bytes :=
    match found with
    | some dir => dir
    | none => Path.join [home.getD ".", fallback]
  return Path.join [base, Program.name]

/-- The place to which a path really leads, if it leads to one. -/
def realPlace (path : Bytes) : IO (Option Bytes) := do
  try
    return some (<- IO.FS.realPath (toText path)).toString
  catch _ => return none

/-- The content of the file at a place; a directory has none. -/
def content? (place : Bytes) : IO (Option Bytes) := do
  try
    return some (<- IO.FS.readBinFile (toText place)).data.toList
  catch _ => return none

abbrev Lookups := List (Bytes × Standing)

/-- Notes the directories down to a place, and what stands there. -/
def noteAll (found : Lookups) (place : Bytes) : IO Lookups := do
  let mut found := found
  for p in Path.placesFrom [Path.slash] (Bytes.splitOn Path.slash place) do
    if (found.lookup p).isNone then
      let e : FileEntry :=
        match <- content? p with
        | some text => .file found.length text
        | none => .directory found.length
      found := found ++ [(p, .entry e)]
  return found

/-- Notes all places on the way of names. A path whose real place is another one is a link. -/
def lookFrom (found : Lookups) (place : Bytes) : List Bytes -> IO Lookups
  | [] => return found
  | name :: rest => do
      let next := Path.join [place, name]
      match <- realPlace next with
      | none => return found
      | some real =>
          let found := if real = next then found else (next, .link real) :: found
          lookFrom (<- noteAll found real) real rest

/-- Looks up what paths lead to, as they stand and with their dots taken by name. -/
def lookAll (workDir : Bytes) (found : Lookups) (paths : List Bytes) : IO Lookups := do
  let fs : FileSystem := ⟨workDir, fun _ => none⟩
  let mut found <- lookFrom found [Path.slash] (Bytes.splitOn Path.slash workDir)
  let start := (<- realPlace workDir).getD workDir
  for path in paths do
    let origin := if Path.isAbsolute path then [Path.slash] else start
    found <- lookFrom found origin (Bytes.splitOn Path.slash path)
    found <- lookFrom found [Path.slash] (Bytes.splitOn Path.slash (fs.absolute path))
  return found

def now : IO Moment := do
  let t <- Std.Time.Timestamp.now
  let nanoseconds := t.toNanosecondsSinceUnixEpoch.toInt
  return .ofUnix 0 nanoseconds 0

def putRecords (stream : IO.FS.Stream) (records : List (Log.Logger × Log.Event)) : IO Unit := do
  for (logger, event) in records do
    put stream (logger.write ⟨some (<- now), event⟩)

/-- Writes what a session does to the terminal. -/
def putEffects (stdout : IO.FS.Stream) (effects : List Effect) : IO Unit := do
  for effect in effects do
    match effect with
    | .print text => put stdout (text ++ "\n")
    | .editor => put stdout "an editor needs a terminal\n"
    | .clear | .quit => pure ()

/-- Runs a session on the lines of the standard input, without a terminal. -/
def runSession (env : Environment) (stdin stdout : IO.FS.Stream) (store : Store)
    (engine : Engine) : IO Unit := do
  let path := Path.join [env.cacheDir, "history.utf8"]
  let file : HistoryFile :=
    match <- content? path with
    | some content => .content content
    | none => .missing
  let mut session := Session.new store (History.new file).load engine
  for line in Text.readableLines (<- stdin.readBinToEnd).data.toList do
    if !session.quitting then
      let (typed, _) := session.press ⟨.typed (Utf8.chars line), false⟩
      let (next, effects) := typed.press ⟨.enter, false⟩
      putEffects stdout effects
      session := next
  match session.history.file with
  | .content text =>
      IO.FS.createDirAll (toText env.cacheDir)
      IO.FS.writeBinFile (toText path) ⟨text.toArray⟩
  | _ => pure ()

/-- Runs the program and answers with its exit code. -/
def run (words : List Bytes) : IO UInt32 := do
  let stdin <- IO.getStdin
  let stdout <- IO.getStdout
  let stderr <- IO.getStderr
  let workDir : Bytes := (<- IO.currentDir).toString
  let configDir <- userDir "XDG_CONFIG_HOME" ".config"
  let cacheDir <- userDir "XDG_CACHE_HOME" ".cache"
  let varsPath : Bytes := (<- IO.getEnv (toText Program.varsPathName)).getD ""
  let environment (found : Lookups) : Environment :=
    ⟨⟨workDir, fun place => found.lookup place⟩, configDir, cacheDir, varsPath⟩
  let first <- lookAll workDir [] (Program.firstPaths (environment []))
  let command := Program.command? (environment first) words
  let paths := (command.map (Command.paths (environment first))).getD []
  let env := environment (<- lookAll workDir first paths)
  let input <- if command.any Command.readsInput then stdin.readBinToEnd else pure .empty
  let report := Program.run env input.data.toList (.make ⟨none, none, none, none⟩) words
  put stdout report.outcome.stdout
  put stderr report.outcome.stderr
  putRecords stderr report.records
  match report.outcome.written with
  | some (path, content) =>
      IO.FS.createDirAll (toText configDir)
      IO.FS.writeBinFile (toText path) ⟨content.toArray⟩
  | none => pure ()
  match report.outcome.session with
  | some (store, engine) => runSession env stdin stdout store engine
  | none => pure ()
  match report.ending with
  | .done => return 0
  | .help =>
      put stdout (Program.name ++ " " ++ Program.version ++ " - " ++ Program.description ++ "\n")
      return 0
  | .failed _ => return 1
  | .misuse fault =>
      putRecords stderr [(.make ⟨none, none, none, none⟩, Program.failureNote fault)]
      return 1

end Backtick.Main

def main (args : List String) : IO UInt32 :=
  Backtick.Main.run (args.map Backtick.Bytes.ofString)
