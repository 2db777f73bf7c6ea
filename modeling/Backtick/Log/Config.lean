import Backtick.Bytes.Utf8
import Backtick.Log.Level
import Backtick.Time.Layout

/-!
# Configuration of a logger

The least level that is written, the format, the layout of time stamps and
whether the output is set in styles. An empty layout writes no time stamp.
-/

namespace Backtick.Log

def namedLayouts : List (Bytes × Bytes) :=
  [ ("rfc3339", "2006-01-02T15:04:05Z07:00"),
    ("rfc3339nano", "2006-01-02T15:04:05.999999999Z07:00"),
    ("ansic", "Mon Jan _2 15:04:05 2006"),
    ("unixdate", "Mon Jan _2 15:04:05 MST 2006"),
    ("rubydate", "Mon Jan 02 15:04:05 -0700 2006"),
    ("rfc822", "02 Jan 06 15:04 MST"),
    ("rfc822z", "02 Jan 06 15:04 -0700"),
    ("rfc850", "Monday, 02-Jan-06 15:04:05 MST"),
    ("kitchen", "3:04PM"),
    ("datetime", "2006-01-02 15:04:05"),
    ("timeonly", "15:04:05"),
    ("stamp", "Jan _2 15:04:05"),
    ("none", ""),
    ("stampmilli", "Jan _2 15:04:05.000"),
    ("ms", "Jan _2 15:04:05.000"),
    ("stampmicro", "Jan _2 15:04:05.000000"),
    ("us", "Jan _2 15:04:05.000000"),
    ("stampnano", "Jan _2 15:04:05.000000000"),
    ("ns", "Jan _2 15:04:05.000000000") ]

def standardLayout : Bytes :=
  "2006-01-02T15:04:05Z07:00"

/-- The ASCII letter or digit that a character is in lower case, if it is one. -/
def keyByte? (c : Char) : Option UInt8 :=
  if c.toNat = 0x130 then some 'i'.toUInt8
  else if c.toNat = 0x212A then some 'k'.toUInt8
  else if c.isAlphanum then some c.toLower.toUInt8
  else none

/-- A text reduced to its letters and digits, in lower case. -/
def layoutKey (text : Bytes) : Bytes :=
  (Utf8.chars text).filterMap keyByte?

/-- The layout that a text stands for: a named one, or the text itself. -/
def resolveLayout (text : Bytes) : Bytes :=
  let key := layoutKey text
  match namedLayouts.lookup key with
  | some layout => layout
  | none => if key.isEmpty then [] else text

structure Config where
  level : Level
  format : Format
  layout : Bytes
  pretty : Bool

/-- The settings of a logger that is not told otherwise. -/
def Config.standard : Config :=
  ⟨.info, .text, standardLayout, false⟩

/-- The attribute at the top of a record as it is written: a time stamp follows the layout. -/
def Config.replace? (c : Config) (a : Attr) : Option Attr :=
  match a with
  | (key, .moment m) =>
      if key = ↑"time" then
        let stamp := m.format c.layout
        if c.layout.isEmpty || stamp.isEmpty then none else some (key, .text stamp)
      else
        some a
  | _ => some a

end Backtick.Log
