import Backtick.Log.Level
import Backtick.Variables.Policy

/-!
# Commands and their flags

Each command has flags of its own beside those that every command takes. A flag
has a form that says what its value may be, and a value that holds if none is given.
-/

namespace Backtick

inductive CommandName
  | render
  | vars
  | tokens
  | ast
  | emit
  | fmt
  | repl
  | init
deriving DecidableEq, Repr

inductive FlagForm
  /-- Nothing; it is switched on, and off by its negation if it has one. -/
  | switch (negatable : Bool)
  | text
  /-- One of some texts. -/
  | choice (texts : List Bytes)
  /-- A path, which becomes absolute unless it is a dash. -/
  | path
  | number
  /-- A text each time it is given. -/
  | texts
  | policy

inductive Setting
  | switch (on : Bool)
  | text (s : Bytes)
  | number (n : Int)
  | texts (items : List Bytes)
  | policy (p : Policy)

structure Flag where
  name : Bytes
  short : Option UInt8
  form : FlagForm
  initial : Setting

namespace Flag

def ofSwitch (name : Bytes) (short : Option Char) : Flag :=
  ⟨name, short.map Char.toUInt8, .switch false, .switch false⟩

def ofChoice (name : Bytes) (texts : List Bytes) (initial : Bytes) : Flag :=
  ⟨name, none, .choice texts, .text initial⟩

def help : Flag := ofSwitch "help" (some 'h')

def shared : List Flag :=
  [ help,
    ofChoice "log-level" Log.Level.names "info",
    ofChoice "log-format" Log.Format.names "text",
    ⟨"log-time-layout", none, .text, .text "RFC3339"⟩,
    ⟨"log-caller", none, .switch true, .switch false⟩,
    ⟨"log-pretty", none, .switch true, .switch false⟩ ]

def file : Flag := ⟨"file", some 'f'.toUInt8, .path, .text []⟩

def indent : Flag := ⟨"indent", some 'i'.toUInt8, .number, .number 2⟩

def sources : List Flag :=
  [ ⟨"vars", none, .texts, .texts []⟩,
    ⟨"set", none, .texts, .texts []⟩,
    ofSwitch "sample" none,
    ⟨"missing", none, .policy, .policy .error⟩ ]

def engine : Flag := ofChoice "engine" ["interp", "expr"] "interp"

end Flag

namespace CommandName

def all : List CommandName :=
  [.render, .vars, .tokens, .ast, .emit, .fmt, .repl, .init]

def word : CommandName -> Bytes
  | .render => "render"
  | .vars => "vars"
  | .tokens => "tokens"
  | .ast => "ast"
  | .emit => "emit"
  | .fmt => "fmt"
  | .repl => "repl"
  | .init => "init"

def ofWord? (word : Bytes) : Option CommandName :=
  all.find? fun c => c.word = word

def takesTemplate : CommandName -> Bool
  | .repl | .init => false
  | _ => true

def flags : CommandName -> List Flag
  | .render =>
      Flag.file :: Flag.sources ++ [Flag.engine, Flag.ofSwitch "no-newline" (some 'n')]
  | .vars => [Flag.file, Flag.ofSwitch "unique" (some 'u')]
  | .tokens => [Flag.file, Flag.ofChoice "format" ["text", "json", "yaml"] "text", Flag.indent]
  | .ast => [Flag.file, Flag.ofChoice "format" ["json", "yaml"] "yaml", Flag.indent]
  | .emit => [Flag.file, Flag.ofSwitch "verify" none]
  | .fmt => [Flag.file, Flag.ofSwitch "check" (some 'c')]
  | .repl => Flag.sources ++ [Flag.engine]
  | .init => [Flag.ofSwitch "force" (some 'f')]

end CommandName

end Backtick
