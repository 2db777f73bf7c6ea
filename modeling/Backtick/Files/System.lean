import Backtick.Fault.Basic
import Backtick.Files.Path

/-!
# File systems

A file system says what stands at each place: a file, a directory, or a link with a path
to go on by. A path is followed name by name, and a link on the way before the names
behind it. Files and directories have an identity, so that two paths can be seen to lead
to the same one.
-/

namespace Backtick

/-- What a path leads to. -/
inductive FileEntry
  | directory (id : Nat)
  | file (id : Nat) (content : Bytes)

def FileEntry.id : FileEntry -> Nat
  | .directory id => id
  | .file id _ => id

/-- What stands at a place. -/
inductive Standing
  | entry (e : FileEntry)
  | link (target : Bytes)

/-- Why a path leads nowhere. -/
inductive PathFault
  | missing
  | notDirectory
  | tooManyLinks
deriving DecidableEq

def PathFault.text : PathFault -> Bytes
  | .missing => "no such file or directory"
  | .notDirectory => "not a directory"
  | .tooManyLinks => "too many levels of symbolic links"

/-- A place is an absolute path without dots that leads through directories only. -/
structure FileSystem where
  workDir : Bytes
  standing : Bytes -> Option Standing

/-- How far names lead: to a place, or to a link with names behind it. -/
inductive Descent
  | arrives (place : Bytes)
  | meets (dir target : Bytes) (rest : List Bytes)
  | fails (cause : PathFault)

namespace FileSystem

/-- The path without dots that the names of a path spell from the working directory. -/
def absolute (fs : FileSystem) (path : Bytes) : Bytes :=
  if Path.isAbsolute path then Path.clean path else Path.join [fs.workDir, path]

/-- Takes names in turn, up to the first link. Each of them, also an empty one behind a slash,
is looked up in a directory. -/
def descend (fs : FileSystem) : Bytes -> List Bytes -> Descent
  | place, [] => .arrives place
  | place, name :: rest =>
      match fs.standing place with
      | none => .fails .missing
      | some (.entry (.directory _)) =>
          let next := Path.join [place, name]
          match fs.standing next with
          | some (.link target) => .meets place target rest
          | _ => fs.descend next rest
      | some _ => .fails .notDirectory

/-- The place to which names lead, through not more than some links. -/
def follow (fs : FileSystem) (links : Nat) (place : Bytes) (names : List Bytes) :
    Except PathFault Bytes :=
  match fs.descend place names with
  | .arrives place => .ok place
  | .fails cause => .error cause
  | .meets dir target rest =>
      match links with
      | 0 => .error .tooManyLinks
      | links + 1 =>
          fs.follow links (if Path.isAbsolute target then [Path.slash] else dir)
            (Bytes.splitOn Path.slash target ++ rest)

/-- The links that are followed on the way of one path. -/
def linkLimit : Nat := 40

def origin (fs : FileSystem) (path : Bytes) : Except PathFault Bytes :=
  if Path.isAbsolute path then
    .ok [Path.slash]
  else
    fs.follow linkLimit [Path.slash] (Bytes.splitOn Path.slash fs.workDir)

def place (fs : FileSystem) (path : Bytes) : Except PathFault Bytes :=
  if path.isEmpty then
    .error .missing
  else do
    fs.follow linkLimit (<- fs.origin path) (Bytes.splitOn Path.slash path)

def entryAt (fs : FileSystem) (place : Bytes) : Except PathFault FileEntry :=
  match fs.standing place with
  | some (.entry e) => .ok e
  | _ => .error .missing

def lookup (fs : FileSystem) (path : Bytes) : Except PathFault FileEntry := do
  fs.entryAt (<- fs.place path)

def entry? (fs : FileSystem) (path : Bytes) : Option FileEntry :=
  (fs.lookup path).toOption

def isDirectory (fs : FileSystem) (path : Bytes) : Bool :=
  match fs.entry? path with
  | some (.directory _) => true
  | _ => false

def isFile (fs : FileSystem) (path : Bytes) : Bool :=
  match fs.entry? path with
  | some (.file ..) => true
  | _ => false

def read (fs : FileSystem) (path : Bytes) : Except Fault Bytes :=
  match fs.lookup path with
  | .ok (.file _ content) => .ok content
  | .ok (.directory _) => .error (Fault.saying ("read " ++ path ++ ": is a directory"))
  | .error cause => .error (Fault.saying ("open " ++ path ++ ": " ++ cause.text))

/-- The links that are followed when a path is written without them. -/
def expansionLimit : Nat := 255

/-- The place to which a path leads once its dots are taken by name. -/
def spelledPlace (fs : FileSystem) (path : Bytes) : Except PathFault Bytes :=
  fs.follow expansionLimit [Path.slash] (Bytes.splitOn Path.slash (fs.absolute path))

/-- The identity by which paths are compared. -/
def identity? (fs : FileSystem) (path : Bytes) : Option Nat :=
  (do fs.entryAt (<- fs.spelledPlace path)).toOption.map FileEntry.id

/-- The paths without those that have the identity of an earlier one. -/
def distinctFrom (fs : FileSystem) (seen : List Nat) : List Bytes -> List Bytes
  | [] => []
  | path :: rest =>
      match fs.identity? path with
      | none => path :: fs.distinctFrom seen rest
      | some id =>
          if seen.contains id then fs.distinctFrom seen rest
          else path :: fs.distinctFrom (id :: seen) rest

/-- The paths without repetition; those without an identity are all kept. -/
def distinct (fs : FileSystem) (paths : List Bytes) : List Bytes :=
  fs.distinctFrom [] paths

end FileSystem

/-- Where a run of the program takes place. -/
structure Environment where
  files : FileSystem
  configDir : Bytes
  cacheDir : Bytes
  /-- Further directories for variable files, separated by colons. -/
  varsPath : Bytes

end Backtick
