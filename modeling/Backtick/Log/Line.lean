import Backtick.Log.Sheet
import Backtick.Text.Quoted

/-!
# Records as lines of text

Each attribute is a key and a value joined by an equals sign. The keys of a
group stand behind the name of the group and a dot.
-/

namespace Backtick.Log

/-- Whether a piece of a key or value forces quotes around the whole. -/
def pieceNeedsQuotes : Utf8.Piece -> Bool
  | .stray _ => true
  | .char c =>
      let n := c.toNat
      if n < 0x80 then n ≤ 0x20 || c = '=' || c = '"'
      else n = 0xFFFD || !Text.isPrintable c

def needsQuotes (text : Bytes) : Bool :=
  text.isEmpty || (Utf8.pieces text).any pieceNeedsQuotes

/-- A key or value, in quotes if it needs them. -/
def lineText (text : Bytes) : Bytes :=
  if needsQuotes text then Text.quote text else text

def lineKey (path key : Bytes) : Bytes :=
  if path.isEmpty then lineText key
  else if needsQuotes path || needsQuotes key then Text.quote (path ++ key)
  else path ++ key

/-- A moment to the millisecond: it is written to a tenth of one more than it has, and of that
the 24th character is left out, which is the fourth figure of the fraction in a year of four
digits. -/
def lineMoment (m : Moment) : Bytes :=
  let written := { m with nanoseconds := m.nanoseconds / 1000000 * 1000000 + 100000 }.format
    "2006-01-02T15:04:05.999999999Z07:00"
  written.take 23 ++ written.drop 24

def lineValue : Datum -> Bytes
  | .text s => lineText s
  | .moment m => lineMoment m
  | .value (.bytes b) => Text.quote b
  | .value v => lineText v.shown
  | .names items => lineText (Datum.names items).shown
  | .message s => lineText s
  | d => d.shown

def Style.line : Style :=
  ⟨" ", false, fun path key => lineKey path key ++ "=", lineValue⟩

def Record.line (c : Config) (context : List Context) (r : Record) : Bytes :=
  Sheet.record c .line context r

end Backtick.Log
