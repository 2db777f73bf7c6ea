import Backtick.Log.Datum

/-!
# Levels and events

An event is what a part of the library has to say to the log: a level, a
message and attributes. Levels are integers; five of them have names.
-/

namespace Backtick.Log

abbrev Level := Int

namespace Level

def trace : Level := -8

def debug : Level := -4

def info : Level := 0

def warn : Level := 4

def error : Level := 8

end Level

/-- Something to be logged. -/
structure Event where
  level : Level
  message : Bytes
  attrs : List Attr

end Backtick.Log
