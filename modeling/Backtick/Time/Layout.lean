import Backtick.Time.Moment

/-!
# Time layouts

A layout shows how the reference moment, Monday the 2nd of January 2006 at
15:04:05, would be written. Each part of it that is known stands for the same
part of the moment to be written; all else is copied.
-/

namespace Backtick

/-- Where the minutes and seconds of a zone offset are written. -/
inductive ZoneForm
  | hours
  | minutes
  | colonMinutes
  | seconds
  | colonSeconds
deriving DecidableEq, Repr

inductive LayoutPart
  | longMonth
  | month
  | numMonth
  | zeroMonth
  | longWeekday
  | weekday
  | day
  | underDay
  | zeroDay
  | underYearDay
  | zeroYearDay
  | hour
  | hour12
  | zeroHour12
  | minute
  | zeroMinute
  | second
  | zeroSecond
  | longYear
  | year
  | upperHalf
  | lowerHalf
  | zoneName
  | zone (utcMark : Bool) (form : ZoneForm)
  | fraction (mark : UInt8) (trim : Bool) (digits : Nat)
deriving DecidableEq, Repr

namespace Layout

def startsLower : Bytes -> Bool
  | b :: _ => 'a'.toUInt8 ≤ b && b ≤ 'z'.toUInt8
  | [] => false

def numberPart? (text : Bytes) : Option (LayoutPart × Nat) :=
  let starts (s : String) : Bool := (Bytes.ofString s).isPrefixOf text
  if starts "01" then some (.zeroMonth, 2)
  else if starts "02" then some (.zeroDay, 2)
  else if starts "03" then some (.zeroHour12, 2)
  else if starts "04" then some (.zeroMinute, 2)
  else if starts "05" then some (.zeroSecond, 2)
  else if starts "06" then some (.year, 2)
  else if starts "002" then some (.zeroYearDay, 3)
  else if starts "15" then some (.hour, 2)
  else if starts "1" then some (.numMonth, 1)
  else if starts "2006" then some (.longYear, 4)
  else if starts "2" then some (.day, 1)
  else if starts "3" then some (.hour12, 1)
  else if starts "4" then some (.minute, 1)
  else if starts "5" then some (.second, 1)
  else none

def wordPart? (text : Bytes) : Option (LayoutPart × Nat) :=
  let starts (s : String) : Bool := (Bytes.ofString s).isPrefixOf text
  if starts "January" then some (.longMonth, 7)
  else if starts "Jan" && !startsLower (text.drop 3) then some (.month, 3)
  else if starts "Monday" then some (.longWeekday, 6)
  else if starts "Mon" && !startsLower (text.drop 3) then some (.weekday, 3)
  else if starts "MST" then some (.zoneName, 3)
  else if starts "PM" then some (.upperHalf, 2)
  else if starts "pm" then some (.lowerHalf, 2)
  else none

def zonePart? (text : Bytes) : Option (LayoutPart × Nat) :=
  match text with
  | first :: rest =>
      if first = '-'.toUInt8 || first = 'Z'.toUInt8 then
        let starts (s : String) : Bool := (Bytes.ofString s).isPrefixOf rest
        let utcMark := first = 'Z'.toUInt8
        if starts "070000" then some (.zone utcMark .seconds, 7)
        else if starts "07:00:00" then some (.zone utcMark .colonSeconds, 9)
        else if starts "0700" then some (.zone utcMark .minutes, 5)
        else if starts "07:00" then some (.zone utcMark .colonMinutes, 6)
        else if starts "07" then some (.zone utcMark .hours, 3)
        else none
      else
        none
  | [] => none

def fractionPart? (text : Bytes) : Option (LayoutPart × Nat) :=
  match text with
  | mark :: figure :: rest =>
      if (mark = '.'.toUInt8 || mark = ','.toUInt8) &&
          (figure = '0'.toUInt8 || figure = '9'.toUInt8) then
        let more := (rest.takeWhile (· = figure)).length
        if (rest.drop more).head?.any Bytes.isDigit then
          none
        else
          some (.fraction mark (figure = '9'.toUInt8) (more + 1), more + 2)
      else
        none
  | _ => none

def underPart? (text : Bytes) : Option (LayoutPart × Nat) :=
  let starts (s : String) : Bool := (Bytes.ofString s).isPrefixOf text
  if starts "_2" && !starts "_2006" then some (.underDay, 2)
  else if starts "__2" then some (.underYearDay, 3)
  else none

/-- The part that a layout begins with, and its length. -/
def part? (text : Bytes) : Option (LayoutPart × Nat) :=
  (numberPart? text).or ((wordPart? text).or ((zonePart? text).or
    ((fractionPart? text).or (underPart? text))))

/-- A natural number padded with zeros. -/
def zeros (width n : Nat) : Bytes :=
  let digits := Bytes.ofNat n
  List.replicate (width - digits.length) '0'.toUInt8 ++ digits

/-- A natural number padded with blanks. -/
def blanks (width n : Nat) : Bytes :=
  let digits := Bytes.ofNat n
  Bytes.blanks (width - digits.length) ++ digits

def monthNames : List Bytes :=
  [ "January", "February", "March", "April", "May", "June", "July", "August", "September",
    "October", "November", "December" ]

def weekdayNames : List Bytes :=
  ["Sunday", "Monday", "Tuesday", "Wednesday", "Thursday", "Friday", "Saturday"]

def twelve (hour : Nat) : Nat :=
  if hour % 12 = 0 then 12 else hour % 12

/-- A zone offset. The sign is that of its whole minutes, and seconds without minutes keep
their own. -/
def zoneText (form : ZoneForm) (offset : Int) : Bytes :=
  let size := offset.natAbs
  let sign : Bytes := if offset.tdiv 60 < 0 then "-" else "+"
  let minutes := size / 60
  let hh := zeros 2 (minutes / 60)
  let mm := zeros 2 (minutes % 60)
  let ss : Bytes :=
    if offset < 0 && minutes = 0 then "-" ++ zeros 2 size else zeros 2 (size % 60)
  match form with
  | .hours => sign ++ hh
  | .minutes => sign ++ hh ++ mm
  | .colonMinutes => sign ++ hh ++ ":" ++ mm
  | .seconds => sign ++ hh ++ mm ++ ss
  | .colonSeconds => sign ++ hh ++ ":" ++ mm ++ ":" ++ ss

/-- A fraction of a second; a trimmed one loses its zeros at the end, and its mark with them. -/
def fractionText (mark : UInt8) (trim : Bool) (digits nanoseconds : Nat) : Bytes :=
  let figures := (zeros 9 nanoseconds).take digits
  if trim then
    let kept := (figures.reverse.dropWhile (· = '0'.toUInt8)).reverse
    if kept.isEmpty then [] else mark :: kept
  else
    mark :: figures

/-- A year, with at least four digits. -/
def yearText (year : Int) : Bytes :=
  if year < 0 then "-" ++ zeros 4 year.natAbs else zeros 4 year.natAbs

def partText (m : Moment) (c : Clock) : LayoutPart -> Bytes
  | .longMonth => monthNames.getD (c.month - 1) []
  | .month => (monthNames.getD (c.month - 1) []).take 3
  | .numMonth => Bytes.ofNat c.month
  | .zeroMonth => zeros 2 c.month
  | .longWeekday => weekdayNames.getD c.weekday []
  | .weekday => (weekdayNames.getD c.weekday []).take 3
  | .day => Bytes.ofNat c.day
  | .underDay => blanks 2 c.day
  | .zeroDay => zeros 2 c.day
  | .underYearDay => blanks 3 c.yearDay
  | .zeroYearDay => zeros 3 c.yearDay
  | .hour => zeros 2 c.hour
  | .hour12 => Bytes.ofNat (twelve c.hour)
  | .zeroHour12 => zeros 2 (twelve c.hour)
  | .minute => Bytes.ofNat c.minute
  | .zeroMinute => zeros 2 c.minute
  | .second => Bytes.ofNat c.second
  | .zeroSecond => zeros 2 c.second
  | .longYear => yearText c.year
  | .year => zeros 2 (c.year.toNat % 100)
  | .upperHalf => if 12 ≤ c.hour then "PM" else "AM"
  | .lowerHalf => if 12 ≤ c.hour then "pm" else "am"
  | .zoneName => if m.zone.isEmpty then zoneText .minutes m.offset else m.zone
  | .zone utcMark form => if utcMark && m.offset = 0 then "Z" else zoneText form m.offset
  | .fraction mark trim digits => fractionText mark trim digits m.nanoseconds

def write (m : Moment) (c : Clock) (layout : Bytes) : Bytes :=
  match layout with
  | [] => []
  | b :: rest =>
      match part? (b :: rest) with
      | none => b :: write m c rest
      | some (part, size) => partText m c part ++ write m c (rest.drop (size - 1))
termination_by layout.length
decreasing_by
  · simp
  · simp only [List.length_drop, List.length_cons]
    omega

end Layout

def Moment.format (m : Moment) (layout : Bytes) : Bytes :=
  Layout.write m m.clock layout

end Backtick
