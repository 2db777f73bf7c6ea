import Backtick.Bytes.Basic

/-!
# Moments

A moment is a count of seconds and nanoseconds since the start of 1970, seen in
a zone that has an offset and may have a name. `Moment.clock` gives its calendar date
and time of day in that zone.
-/

namespace Backtick

structure Moment where
  seconds : Int
  nanoseconds : Nat
  offset : Int
  /-- The name of the zone; none if it is empty. -/
  zone : Bytes
deriving DecidableEq, Repr

/-- A calendar date with a time of day. -/
structure Clock where
  year : Int
  month : Nat
  day : Nat
  /-- Day of the week, counted from Sunday. -/
  weekday : Nat
  /-- Day of the year, counted from one. -/
  yearDay : Nat
  hour : Nat
  minute : Nat
  second : Nat
deriving DecidableEq, Repr

namespace Moment

/-- The moment of a count of seconds and of nanoseconds, of which there may be any number. -/
def ofUnix (seconds nanoseconds offset : Int) : Moment :=
  let carried := nanoseconds.fdiv 1000000000
  ⟨seconds + carried, (nanoseconds - carried * 1000000000).toNat, offset, []⟩

/-- The start of the year 1, which stands for no moment at all. -/
def unset : Moment :=
  ⟨-62135596800, 0, 0, "UTC"⟩

/-- Whether a moment is the start of the year 1, in whatever zone it is seen. -/
def isUnset (m : Moment) : Bool :=
  m.seconds = unset.seconds && m.nanoseconds = 0

/-- Whether a year has a 29th of February. -/
def isLeap (year : Int) : Bool :=
  year % 4 = 0 && (year % 100 ≠ 0 || year % 400 = 0)

/-- Year, month and day of a day counted from the start of 1970. -/
def date (days : Int) : Int × Nat × Nat :=
  let z := days + 719468
  let era := z.fdiv 146097
  let dayOfEra := (z - era * 146097).toNat
  let yearOfEra :=
    (dayOfEra - dayOfEra / 1460 + dayOfEra / 36524 - dayOfEra / 146096) / 365
  let dayOfYear := dayOfEra - (365 * yearOfEra + yearOfEra / 4 - yearOfEra / 100)
  let shifted := (5 * dayOfYear + 2) / 153
  let day := dayOfYear - (153 * shifted + 2) / 5 + 1
  let month := if shifted < 10 then shifted + 3 else shifted - 9
  let year := (yearOfEra : Int) + era * 400
  (if month ≤ 2 then year + 1 else year, month, day)

/-- Number of days before a month in a common year. -/
def daysBefore (month : Nat) : Nat :=
  match month with
  | 1 => 0
  | 2 => 31
  | 3 => 59
  | 4 => 90
  | 5 => 120
  | 6 => 151
  | 7 => 181
  | 8 => 212
  | 9 => 243
  | 10 => 273
  | 11 => 304
  | _ => 334

/-- The date and time of day of a moment in its zone. -/
def clock (m : Moment) : Clock :=
  let shown := m.seconds + m.offset
  let days := shown.fdiv 86400
  let rest := (shown - days * 86400).toNat
  let (year, month, day) := date days
  let leap := if isLeap year && 2 < month then 1 else 0
  { year := year
    month := month
    day := day
    weekday := ((days + 4) - (days + 4).fdiv 7 * 7).toNat
    yearDay := daysBefore month + day + leap
    hour := rest / 3600
    minute := rest / 60 % 60
    second := rest % 60 }

end Moment

end Backtick
