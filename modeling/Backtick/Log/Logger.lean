import Backtick.Log.Line
import Backtick.Log.Object
import Backtick.Log.Pretty

/-!
# Loggers

A logger turns records into text by its settings and its context. The silent
logger writes nothing and takes on no context; one that is derived from it by
new settings has levels and a format, yet still writes nothing.
-/

namespace Backtick.Log

inductive Outlet
  | silent
  | discarding
  | writing
deriving DecidableEq, Repr

structure Logger where
  outlet : Outlet
  config : Config
  context : List Context

/-- Changes to settings; what is not given stays. -/
structure Change where
  level : Option Level
  format : Option Format
  layout : Option Bytes
  pretty : Option Bool

def Change.apply (ch : Change) (c : Config) : Config :=
  { level := ch.level.getD c.level
    format := ch.format.getD c.format
    layout := (ch.layout.map resolveLayout).getD c.layout
    pretty := ch.pretty.getD c.pretty }

namespace Logger

def silent : Logger := ⟨.silent, .standard, []⟩

def make (ch : Change) : Logger := ⟨.writing, ch.apply .standard, []⟩

/-- The logger with changed settings and no context. -/
def wrap (l : Logger) (ch : Change) : Logger :=
  match l.outlet with
  | .silent => ⟨.discarding, ch.apply .standard, []⟩
  | outlet => ⟨outlet, ch.apply l.config, []⟩

def attach (l : Logger) (attrs : List Attr) : Logger :=
  if l.outlet = .silent || attrs.isEmpty then l
  else { l with context := l.context ++ [.attrs attrs] }

def openGroup (l : Logger) (name : Bytes) : Logger :=
  if l.outlet = .silent || name.isEmpty then l
  else { l with context := l.context ++ [.group name] }

def level (l : Logger) : Level :=
  if l.outlet = .silent then .info else l.config.level

def format (l : Logger) : Format :=
  if l.outlet = .silent then .text else l.config.format

/-- Whether a format without a writer makes the logger drop all. -/
def drops (l : Logger) : Bool :=
  match l.config.format with
  | .unknown _ => !l.config.pretty
  | _ => false

def enabled (l : Logger) (level : Level) : Bool :=
  l.outlet ≠ .silent && !l.drops && l.config.level ≤ level

def text (l : Logger) (r : Record) : Bytes :=
  if l.config.pretty then
    r.pretty l.config l.context
  else
    match l.config.format with
    | .json => r.object l.config l.context
    | .text => r.line l.config l.context
    | .unknown _ => []

def write (l : Logger) (r : Record) : Bytes :=
  if l.enabled r.event.level && l.outlet = .writing then l.text r else []

def writeAll (l : Logger) (events : List Event) : Bytes :=
  events.flatMap fun e => l.write ⟨none, e⟩

end Logger

end Backtick.Log
