import Backtick.Bytes.Basic

/-!
# Paths

A path is names separated by slashes; one that begins with a slash is absolute.
-/

namespace Backtick.Path

def slash : UInt8 := '/'.toUInt8

/-- Whether a path does not depend on a working directory. -/
def isAbsolute (path : Bytes) : Bool :=
  path.head? = some slash

/--
Takes the names of a path in turn, those so far in reverse: a dot goes nowhere, and
two dots leave the last name, unless the path leads out of where it starts.
-/
def walk (rooted : Bool) : List Bytes -> List Bytes -> List Bytes
  | sofar, [] => sofar.reverse
  | sofar, name :: rest =>
      if name.isEmpty || name = ↑"." then
        walk rooted sofar rest
      else if name = ↑".." then
        match sofar with
        | [] => if rooted then walk rooted [] rest else walk rooted [name] rest
        | last :: before =>
            if last = ↑".." then walk rooted (name :: sofar) rest else walk rooted before rest
      else
        walk rooted (name :: sofar) rest

/-- The shortest path that leads to the same place. -/
def clean (path : Bytes) : Bytes :=
  let rooted := isAbsolute path
  let names := walk rooted [] (Bytes.splitOn slash path)
  let body := Bytes.join [slash] names
  if rooted then slash :: body
  else if body.isEmpty then "."
  else body

/-- Paths one behind another; empty ones do not count. -/
def join (paths : List Bytes) : Bytes :=
  let parts := paths.filter (!·.isEmpty)
  if parts.isEmpty then [] else clean (Bytes.join [slash] parts)

/-- A place and those that names lead to from it, one behind another. -/
def placesFrom (place : Bytes) : List Bytes -> List Bytes
  | [] => [place]
  | name :: rest => place :: placesFrom (join [place, name]) rest

def base (path : Bytes) : Bytes :=
  if path.isEmpty then
    "."
  else
    let body := (path.reverse.dropWhile (· = slash)).reverse
    if body.isEmpty then [slash] else (body.reverse.takeWhile (· ≠ slash)).reverse

/-- The extension: what follows the last dot of the last name, the dot included. -/
def extension (path : Bytes) : Bytes :=
  let name := (path.reverse.takeWhile (· ≠ slash)).reverse
  match name.reverse.span (· ≠ '.'.toUInt8) with
  | (_, []) => []
  | (behind, _ :: _) => '.'.toUInt8 :: behind.reverse

end Backtick.Path
