import Backtick.Bytes.Utf8
import Backtick.Command.Configuration
import Backtick.Command.Flag
import Backtick.Files.System

/-!
# Command-line arguments

Words are read from the left. Until a command is named, the flags of the rendering
command are taken as well, and a word that names no command is its template.
-/

namespace Backtick

/-- A flag with the command that it belongs to; the shared flags belong to none. -/
structure GivenFlag where
  owner : Option CommandName
  flag : Flag
  setting : Setting

/-- What the words so far have said. -/
structure Arguments where
  command : Option CommandName
  template : Option Bytes
  given : List GivenFlag
  /-- The switches whose negation was given. -/
  negated : List Bytes

namespace Arguments

def start : Arguments := ⟨none, none, [], []⟩

def available (command : Option CommandName) : List (Option CommandName × Flag) :=
  let own := command.getD .render
  Flag.shared.map (none, ·) ++ own.flags.map (some own, ·)

def setting? (a : Arguments) (owner : Option CommandName) (name : Bytes) : Option Setting :=
  (a.given.find? fun g => g.owner = owner && g.flag.name = name).map GivenFlag.setting

def give (a : Arguments) (owner : Option CommandName) (flag : Flag) (s : Setting) : Arguments :=
  let others := a.given.filter fun g => !(g.owner = owner && g.flag.name = flag.name)
  { a with given := others ++ [⟨owner, flag, s⟩] }

def wrong (message : Bytes) : Fault := Fault.saying message

/-- A text without bytes that are no part of a character. -/
def textOf (word : Bytes) : Bytes := Utf8.ofChars (Utf8.chars word)

def switch? (word : Bytes) : Option Bool :=
  let w := word.map Bytes.toLowerByte
  if w = ↑"true" || w = ↑"1" || w = ↑"yes" then some true
  else if w = ↑"false" || w = ↑"0" || w = ↑"no" then some false
  else none

/-- Whether underscores stand only between digits, or between a base mark and a digit. -/
def underscoresFit (before : Bool) : Bytes -> Bool
  | [] => true
  | b :: rest =>
      if b = '_'.toUInt8 then
        before && (rest.head?.any fun c => (Bytes.hexDigit? c).isSome) && underscoresFit false rest
      else
        underscoresFit true rest

/-- The base of digits, the digits, and whether a base mark stood before them. -/
def based (digits : Bytes) : Nat × Bytes × Bool :=
  match digits with
  | z :: m :: rest =>
      if z = '0'.toUInt8 then
        let mark := Bytes.toLowerByte m
        if mark = 'x'.toUInt8 then (16, rest, true)
        else if mark = 'o'.toUInt8 then (8, rest, true)
        else if mark = 'b'.toUInt8 then (2, rest, true)
        else (8, m :: rest, true)
      else
        (10, digits, false)
  | _ => (10, digits, false)

/-- A whole number of 64 bits in one of four bases. -/
def number? (word : Bytes) : Option Int :=
  let negative := word.head? = some '-'.toUInt8
  let digits :=
    if negative || word.head? = some '+'.toUInt8 then word.drop 1 else word
  let (base, body, marked) := based digits
  if underscoresFit marked body then
    match Yaml.natOfDigits? base (body.filter (· ≠ '_'.toUInt8)) with
    | none => none
    | some n =>
        let room := if negative then Nat.pow 2 63 + 1 else Nat.pow 2 63
        if n < room then some (if negative then -(n : Int) else n) else none
  else
    none

/-- The absolute form of a path; a dash stands for standard input. -/
def pathOf (fs : FileSystem) (word : Bytes) : Bytes :=
  if word = ↑"-" || Path.isAbsolute word then word else fs.absolute word

def settingOf (fs : FileSystem) (flag : Flag) (before : Option Setting) (word : Bytes) :
    Except Fault Setting :=
  match flag.form with
  | .switch _ =>
      match switch? word with
      | some on => .ok (.switch on)
      | none => .error (wrong ("--" ++ flag.name ++ ": not a truth value"))
  | .text => .ok (.text (textOf word))
  | .choice _ => .ok (.text (textOf word))
  | .path => .ok (.text (pathOf fs (textOf word)))
  | .number =>
      match number? word with
      | some n => .ok (.number n)
      | none => .error (wrong ("--" ++ flag.name ++ ": not a whole number"))
  | .texts =>
      match before with
      | some (.texts items) => .ok (.texts (items ++ [textOf word]))
      | _ => .ok (.texts [textOf word])
  | .policy => (Policy.parse (textOf word)).map .policy

def isValue (word : Bytes) : Bool :=
  word = ↑"-" || word.head? ≠ some '-'.toUInt8

def giveWord (a : Arguments) (fs : FileSystem) (owner : Option CommandName) (flag : Flag)
    (word : Bytes) : Except Fault Arguments := do
  let s <- settingOf fs flag (a.setting? owner flag.name) word
  return a.give owner flag s

/-- Switches a flag; once it was negated it stays inverted. -/
def giveSwitch (a : Arguments) (owner : Option CommandName) (flag : Flag) (negation on : Bool) :
    Arguments :=
  let negated := if negation then flag.name :: a.negated else a.negated
  let inverted := negated.contains flag.name
  { a.give owner flag (.switch (on != inverted)) with negated := negated }

/-- The flag that a long word names, and whether by its negation. -/
def long? (command : Option CommandName) (name : Bytes) :
    Option (Option CommandName × Flag × Bool) :=
  (available command).findSome? fun (owner, flag) =>
    if flag.name = name then
      some (owner, flag, false)
    else
      match flag.form with
      | .switch true =>
          if ↑"no-" ++ flag.name = name then some (owner, flag, true) else none
      | _ => none

def short? (command : Option CommandName) (letter : UInt8) :
    Option (Option CommandName × Flag) :=
  (available command).find? fun (_, flag) => flag.short = some letter

/-- A word that is neither a flag nor the value of one. -/
def word (a : Arguments) (w : Bytes) : Except Fault Arguments :=
  match a.command with
  | none =>
      match CommandName.ofWord? w with
      | some c => .ok { a with command := some c }
      | none => .ok { a with command := some .render, template := some (textOf w) }
  | some c =>
      if c.takesTemplate && a.template.isNone then
        .ok { a with template := some (textOf w) }
      else
        .error (wrong ("unexpected argument " ++ w))

inductive Pending
  | done
  | value (owner : Option CommandName) (flag : Flag)

/-- A long flag, with its value behind an equals sign if it has one. -/
def long (a : Arguments) (fs : FileSystem) (body : Bytes) : Except Fault (Arguments × Pending) :=
  let (name, value) : Bytes × Option Bytes :=
    match Bytes.cut? '='.toUInt8 body with
    | some (name, value) => (name, some value)
    | none => (body, none)
  match long? a.command name with
  | none => .error (wrong ("unknown flag --" ++ name))
  | some (owner, flag, negation) =>
      match flag.form, value with
      | .switch _, none => .ok (a.giveSwitch owner flag negation true, .done)
      | .switch _, some v =>
          match switch? v with
          | some on => .ok (a.giveSwitch owner flag negation on, .done)
          | none => .error (wrong ("--" ++ name ++ ": not a truth value"))
      | _, none => .ok (a, .value owner flag)
      | _, some v => (a.giveWord fs owner flag v).map (·, .done)

/-- Letters run together; one that takes a value takes what is left of them. -/
def letters (fs : FileSystem) : Arguments -> Bytes -> Except Fault (Arguments × Pending)
  | a, [] => .ok (a, .done)
  | a, letter :: rest =>
      match short? a.command letter with
      | none => .error (wrong ("unknown flag -" ++ [letter]))
      | some (owner, flag) =>
          match flag.form with
          | .switch _ => letters fs (a.giveSwitch owner flag false true) rest
          | _ =>
              if rest.isEmpty then .ok (a, .value owner flag)
              else (a.giveWord fs owner flag rest).map (·, .done)

/-- Reads words; `plain` says that flags have ended. -/
def read (fs : FileSystem) : Bool -> Pending -> Arguments -> List Bytes -> Except Fault Arguments
  | _, .done, a, [] => .ok a
  | _, .value _ flag, _, [] => .error (wrong ("--" ++ flag.name ++ ": missing value"))
  | plain, .value owner flag, a, w :: rest =>
      if isValue w then
        match a.giveWord fs owner flag w with
        | .error f => .error f
        | .ok a => read fs plain .done a rest
      else
        .error (wrong ("--" ++ flag.name ++ ": missing value"))
  | plain, .done, a, w :: rest =>
      if plain || isValue w then
        match a.word w with
        | .error f => .error f
        | .ok a => read fs plain .done a rest
      else if w = ↑"--" then
        read fs true .done a rest
      else
        let outcome := match w with
          | _ :: d :: body => if d = '-'.toUInt8 then a.long fs body else letters fs a (d :: body)
          | _ => .ok (a, .done)
        match outcome with
        | .error f => .error f
        | .ok (a, pending) => read fs plain pending a rest

end Arguments

end Backtick
