import Backtick.Files.System

/-!
# The program

The name of the command, its version and the places where it keeps files.
-/

namespace Backtick.Program

def name : Bytes := "tmplc"

def version : Bytes := "0.1.0"

def description : Bytes := "Backtick template formula compiler"

/-- What the names of the environment variables begin with. -/
def environmentMark : Bytes := "TMPLC_"

/-- The environment variable with further directories for variable files. -/
def varsPathName : Bytes := environmentMark ++ "VARS_PATH"

def authors : List (Bytes × Bytes) :=
  [("ardnew", "andrew@ardnew.com")]

def configName : Bytes := "config.yaml"

end Backtick.Program

namespace Backtick.Environment

/-- A place below the configuration directory. -/
def configPath (env : Environment) (names : List Bytes) : Bytes :=
  Path.join (env.configDir :: names)

def configFile (env : Environment) : Bytes :=
  env.configPath [Program.configName]

end Backtick.Environment
