import Backtick.Bytes.Basic
import Backtick.Time.Moment

/-!
# Time stamps in texts

The texts that denote a date, a date with a time of day, or a time of day in
hours and minutes.
-/

namespace Backtick.Stamp

def digits? (n : Nat) (text : Bytes) : Option (Nat × Bytes) :=
  let figures := text.take n
  if figures.length = n && figures.all Bytes.isDigit then
    some (Bytes.digitsValue figures, text.drop n)
  else
    none

def oneOrTwo? (text : Bytes) : Option (Nat × Bytes) :=
  (digits? 2 text).or (digits? 1 text)

def byte? (b : Char) (text : Bytes) : Option Bytes :=
  match text with
  | first :: rest => if first = b.toUInt8 then some rest else none
  | [] => none

def daysIn (year month : Nat) : Nat :=
  if month = 2 then
    if Moment.isLeap year then 29 else 28
  else if month = 4 || month = 6 || month = 9 || month = 11 then
    30
  else
    31

/-- Reads a date such as 2006-01-02. -/
def date? (text : Bytes) : Option Bytes := do
  let (year, rest) <- digits? 4 text
  let rest <- byte? '-' rest
  let (month, rest) <- digits? 2 rest
  let rest <- byte? '-' rest
  let (day, rest) <- digits? 2 rest
  if 1 ≤ month && month ≤ 12 && 1 ≤ day && day ≤ daysIn year month then some rest else none

/-- Skips a fraction of a second: a point or comma and digits. -/
def skipFraction (text : Bytes) : Bytes :=
  match text with
  | mark :: d :: rest =>
      if (mark = '.'.toUInt8 || mark = ','.toUInt8) && Bytes.isDigit d then
        rest.dropWhile Bytes.isDigit
      else
        text
  | _ => text

/-- Reads a time of day such as 15:04:05, with an optional fraction. -/
def clock? (text : Bytes) : Option Bytes := do
  let (hour, rest) <- oneOrTwo? text
  let rest <- byte? ':' rest
  let (minute, rest) <- digits? 2 rest
  let rest <- byte? ':' rest
  let (second, rest) <- digits? 2 rest
  if hour < 24 && minute < 60 && second < 60 then some (skipFraction rest) else none

/-- Reads a zone: `Z`, or a sign with hours up to 24 and minutes up to 60. -/
def zone? (text : Bytes) : Option Bytes :=
  match text with
  | first :: rest =>
      if first = 'Z'.toUInt8 then
        some rest
      else if first = '+'.toUInt8 || first = '-'.toUInt8 then do
        let (hours, rest) <- digits? 2 rest
        let rest <- byte? ':' rest
        let (minutes, rest) <- digits? 2 rest
        if hours ≤ 24 && minutes ≤ 60 then some rest else none
      else
        none
  | [] => none

/-- Whether a text is a date, a date and time, or hours and minutes. -/
def isStamp (text : Bytes) : Bool :=
  let whole (r : Option Bytes) : Bool := r == some []
  whole (date? text) ||
    whole (do
      let rest <- date? text
      let rest <- byte? ' ' rest
      clock? (rest.dropWhile (· = ' '.toUInt8))) ||
    whole (do
      let rest <- date? text
      let rest <- (byte? 'T' rest).or (byte? 't' rest)
      let rest <- clock? rest
      zone? rest) ||
    whole (do
      let (hour, rest) <- oneOrTwo? text
      let rest <- byte? ':' rest
      let (minute, rest) <- oneOrTwo? rest
      if hour < 24 && minute < 60 then some rest else none)

end Backtick.Stamp
