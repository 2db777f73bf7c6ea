import Backtick.Bytes.Basic

/-!
# Lengths of time

A length of time in nanoseconds is written in hours, minutes and seconds, or
in the largest fitting unit when it is shorter than a second. Zeros at the end
of a fraction are left out.
-/

namespace Backtick.Duration

/-- A whole number of units with its fraction, whose zeros at the end are left out. -/
def withFraction (whole fraction places : Nat) : Bytes :=
  let digits := Bytes.ofNat fraction
  let padded := List.replicate (places - digits.length) '0'.toUInt8 ++ digits
  let kept := (padded.reverse.dropWhile (· = '0'.toUInt8)).reverse
  if fraction = 0 then Bytes.ofNat whole else Bytes.ofNat whole ++ "." ++ kept

def ofNat (n : Nat) : Bytes :=
  if n = 0 then
    "0s"
  else if n < 1000 then
    Bytes.ofNat n ++ "ns"
  else if n < 1000000 then
    withFraction (n / 1000) (n % 1000) 3 ++ "µs"
  else if n < 1000000000 then
    withFraction (n / 1000000) (n % 1000000) 6 ++ "ms"
  else
    let seconds := n / 1000000000
    let rest := withFraction (seconds % 60) (n % 1000000000) 9 ++ "s"
    let minutes := seconds / 60
    if minutes = 0 then
      rest
    else if minutes / 60 = 0 then
      Bytes.ofNat minutes ++ "m" ++ rest
    else
      Bytes.ofNat (minutes / 60) ++ "h" ++ Bytes.ofNat (minutes % 60) ++ "m" ++ rest

def text (nanoseconds : Int) : Bytes :=
  if nanoseconds < 0 then "-" ++ ofNat nanoseconds.natAbs else ofNat nanoseconds.natAbs

end Backtick.Duration
