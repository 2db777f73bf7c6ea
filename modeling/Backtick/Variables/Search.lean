import Backtick.Fault.Basic
import Backtick.Files.System

/-!
# Finding variable files

A bare name is looked for in the directories of the search path, as it stands and
with the usual extensions. A name with a directory is used as it is given.
-/

namespace Backtick.Environment

/-- The extensions that are tried for a name without one. -/
def varsExtensions : List Bytes :=
  [".yaml", ".yml", ".json"]

/-- Texts without those that occurred before. -/
def withoutRepeats (seen : List Bytes) : List Bytes -> List Bytes
  | [] => []
  | t :: rest =>
      if seen.contains t then withoutRepeats seen rest else t :: withoutRepeats (t :: seen) rest

/-- The directories that are searched: configuration, working directory, further ones. They are
put together in one list, so that a colon in the path of a directory parts it. -/
def searchPath (env : Environment) : List Bytes :=
  let named := env.configDir :: env.files.workDir :: Bytes.splitOn ':'.toUInt8 env.varsPath
  let kept := (withoutRepeats [] (named.filter (!·.isEmpty))).filter env.files.isDirectory
  (Bytes.splitOn ':'.toUInt8 (Bytes.join ":" kept)).filter fun dir =>
    !dir.isEmpty && env.files.isDirectory dir

def fileNames (name : Bytes) : List Bytes :=
  if (Path.extension name).isEmpty then name :: varsExtensions.map (name ++ ·) else [name]

/-- All places where a bare name is looked for in directories, in order. -/
def places (dirs : List Bytes) (name : Bytes) : List Bytes :=
  dirs.flatMap fun dir => (fileNames name).map fun file => Path.join [dir, file]

def missingFile (path : Bytes) : Fault :=
  ((Fault.ofKind .load).wrap (some (Fault.sayingOf ("open " ++ path ++ ": file does not exist")
    (Fault.ofKind .notExist)))).withAttrs [("path", .text path)]

/-- The fault of a bare name that is found nowhere. -/
def missingName (name : Bytes) : Fault :=
  ((Fault.ofKind .load).because (name ++ ": not found in search path")).withAttrs
    [("name", .text name)]

/-- The path of the variable file with a name, looked for in directories. -/
def resolveIn (fs : FileSystem) (dirs : List Bytes) (name : Bytes) : Except Fault Bytes :=
  if Path.isAbsolute name || Path.base name ≠ name then
    if fs.isFile name then .ok name else .error (missingFile name)
  else
    match (places dirs name).find? fs.isFile with
    | some path => .ok path
    | none => .error (missingName name)

def resolve (env : Environment) (name : Bytes) : Except Fault Bytes :=
  resolveIn env.files env.searchPath name

end Backtick.Environment
