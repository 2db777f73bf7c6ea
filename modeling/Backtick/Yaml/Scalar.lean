import Backtick.Number.Numeral
import Backtick.Time.Stamp
import Backtick.Value.Basic

/-!
# Plain scalars

What an unquoted YAML scalar denotes, and which texts must be quoted so that
they are read back as strings. Integers may be written in four bases and with
underscores; a float has exactly one point.
-/

namespace Backtick.Yaml

def natOfDigits? (base : Nat) (text : Bytes) : Option Nat :=
  if text.isEmpty then
    none
  else
    text.foldl
      (fun acc b => do
        let n <- acc
        let d <- Bytes.hexDigit? b
        if d < base then some (n * base + d) else none)
      (some 0)

/-- A numeric scalar, or why a text that has the form of one is out of range. -/
inductive Numeric
  | integer (n : Int)
  | float (x : Binary64)
  | outOfRange

/-- The sign and the figures of a numeric text, underscores removed. -/
def figures (text : Bytes) : Bool × Bytes :=
  let negative := text.head? = some '-'.toUInt8
  let dropOne (b : Char) (t : Bytes) : Bytes :=
    match t with
    | first :: rest => if first = b.toUInt8 then rest else t
    | [] => []
  (negative, (dropOne '-' (dropOne '+' text)).filter (· ≠ '_'.toUInt8))

/-- The base that figures are written in, and the figures without its mark; none for a float. -/
def baseOf (points : Nat) (text : Bytes) : Option Nat × Bytes :=
  match Bytes.dropStart? "0x" text, Bytes.dropStart? "0o" text, Bytes.dropStart? "0b" text with
  | some rest, _, _ => (some 16, rest)
  | _, some rest, _ => (some 8, rest)
  | _, _, some rest => (some 2, rest)
  | none, none, none =>
      if text.head? = some '0'.toUInt8 && 1 < text.length && points = 0 then
        (some 8, text)
      else if points = 1 then
        (none, text)
      else
        (some 10, text)

def numeric? (text : Bytes) : Option Numeric :=
  let points := text.count '.'.toUInt8
  if text.isEmpty || text.head? = some '_'.toUInt8 || 1 < points then
    none
  else
    let (negative, body) := figures text
    match baseOf points body with
    | (none, body) =>
        let signed := if negative then '-'.toUInt8 :: body else body
        match Numeral.readAs .double signed with
        | .ok x => some (.float x)
        | .error (.outOfRange _) => some .outOfRange
        | .error .malformed => none
    | (some base, body) =>
        match natOfDigits? base body with
        | none => none
        | some n =>
            if negative then
              if n ≤ Nat.pow 2 63 then some (.integer (-(n : Int))) else some .outOfRange
            else if n < Nat.pow 2 64 then
              some (.integer n)
            else
              some .outOfRange

def nullWords : List Bytes :=
  ["null", "Null", "NULL", "~"]

def trueWords : List Bytes :=
  ["true", "True", "TRUE"]

def falseWords : List Bytes :=
  ["false", "False", "FALSE"]

/-- Words that older readers take for true or false. -/
def legacyWords : List Bytes :=
  [ "y", "Y", "yes", "Yes", "YES", "n", "N", "no", "No", "NO", "on", "On", "ON", "off", "Off",
    "OFF" ]

def infinityWords : List Bytes :=
  [".inf", ".Inf", ".INF"]

def minusInfinityWords : List Bytes :=
  ["-.inf", "-.Inf", "-.INF"]

def nanWords : List Bytes :=
  [".nan", ".NaN", ".NAN"]

def plainValue (text : Bytes) : Value :=
  if text.isEmpty || nullWords.contains text then .null
  else if trueWords.contains text then .bool true
  else if falseWords.contains text then .bool false
  else if infinityWords.contains text then .double (.infinite false)
  else if minusInfinityWords.contains text then .double (.infinite true)
  else if nanWords.contains text then .double .nan
  else
    match numeric? text with
    | some (.integer n) =>
        if text.head? = some '-'.toUInt8 then .integer .int64 n else .integer .uint64 n
    | some (.float x) => .double x
    | _ => .string text

/-- Whether a byte is followed by a space somewhere in a text. -/
def hasBeforeSpace (b : Char) : Bytes -> Bool
  | first :: second :: rest =>
      (first = b.toUInt8 && second = ' '.toUInt8) || hasBeforeSpace b (second :: rest)
  | _ => false

/-- The bytes that cannot begin an unquoted scalar. -/
def reservedFirst : Bytes :=
  "*&[\x7b\x7d],!|>%'\"@ `"

/-- Whether a text is written in quotes; the words for infinity and not-a-number are not. -/
def needsQuotes (text : Bytes) : Bool :=
  text.isEmpty || text = ↑"-" ||
    nullWords.contains text || trueWords.contains text || falseWords.contains text ||
    legacyWords.contains text ||
    (numeric? text).isSome || Stamp.isStamp text ||
    text.head?.any reservedFirst.contains ||
    text.getLast? = some ':'.toUInt8 || text.getLast? = some ' '.toUInt8 ||
    text.contains '#'.toUInt8 || text.contains '\\'.toUInt8 ||
    hasBeforeSpace ':' text || hasBeforeSpace '-' text

/-- Whether a colon stands before anything but a slash. -/
def hasFlowColon : Bytes -> Bool
  | first :: rest =>
      (first = ':'.toUInt8 && rest.head? ≠ some '/'.toUInt8) || hasFlowColon rest
  | [] => false

def needsQuotesInFlow (text : Bytes) : Bool :=
  needsQuotes text || text.any (Bytes.ofString "]\x7d,'\"").contains || hasFlowColon text

end Backtick.Yaml
