import Backtick.Command.Run

/-!
# Paths of a run

The paths that a run of the program may ask for, so that they can be looked up
beforehand, and whether it reads the standard input.
-/

namespace Backtick

/-- The paths to which the name of a variable file may lead. -/
def Environment.pathsOf (env : Environment) (name : Bytes) : List Bytes :=
  if Path.isAbsolute name || Path.base name ≠ name then [name]
  else Environment.places env.searchPath name

namespace Command

def source? : Command -> Option TemplateSource
  | .render source .. | .vars source _ | .tokens source .. | .ast source ..
  | .emit source _ | .fmt source _ => some source
  | .repl .. | .init _ => none

def variableFiles : Command -> List Bytes
  | .render _ sources .. | .repl sources _ => sources.files
  | _ => []

def readsInput (c : Command) : Bool :=
  c.source?.any fun s => s.text.isEmpty && (s.file.isEmpty || s.file = ↑"-")

def paths (env : Environment) (c : Command) : List Bytes :=
  let files := c.source?.elim [] fun s => if s.file.isEmpty then [] else [s.file]
  files ++ c.variableFiles.flatMap env.pathsOf

end Command

namespace Program

/-- The command that words and configuration files ask for, if they can be read. -/
def command? (env : Environment) (words : List Bytes) : Option Command :=
  match configurations env with
  | .error _ => none
  | .ok (found, _) =>
      match Invocation.read env.files found words with
      | .run i => some i.command
      | _ => none

def firstPaths (env : Environment) : List Bytes :=
  env.configFile :: (env.configFile ++ ".json") :: env.configDir :: env.files.workDir ::
    Bytes.splitOn ':'.toUInt8 env.varsPath

end Program

end Backtick
