import Backtick.Number.Notation
import Backtick.Time.Duration
import Backtick.Value.Basic

/-!
# The text of a value

A template renders a value as its text: numbers without an exponent unless very
large or very small, nothing for null, the elements of a list separated by
commas. A mapping is shown with its keys, and so is everything inside it.
-/

namespace Backtick

namespace Value

/-- Numbers of a rendered text: an exponent only below 10^-6 and from 10^21 on. -/
def numberNotation : Notation := ⟨some (-6), some 21, 2, 2⟩

def numberText : Binary64 -> Bytes
  | .nan => "NaN"
  | .infinite negative => if negative then "-Infinity" else "Infinity"
  | x => numberNotation.write .double x

mutual

/-- A value as it is shown inside a mapping or in a log. -/
def shown : Value -> Bytes
  | .null => "<nil>"
  | .bool b => if b then "true" else "false"
  | .string s => s
  | .integer _ n => Bytes.ofInt n
  | .double x => Notation.general.write .double x
  | .single x => Notation.general.write .single x
  | .list items => "[" ++ Bytes.join " " (shownItems items) ++ "]"
  | .map fields => "map[" ++ Bytes.join " " (shownFields fields) ++ "]"
  | .strings items => "[" ++ Bytes.join " " items ++ "]"
  | .integers items => "[" ++ Bytes.join " " (items.map Bytes.ofInt) ++ "]"
  | .bytes b => "[" ++ Bytes.join " " (b.map fun x => Bytes.ofNat x.toNat) ++ "]"
  | .array items => "[" ++ Bytes.join " " (shownItems items) ++ "]"
  | .ref (.duration n) => Duration.text n
  | .ref target => "&" ++ shown target
  | .emptyRef _ => "<nil>"
  | .duration n => Duration.text n

def shownItems : List Value -> List Bytes
  | [] => []
  | item :: rest => shown item :: shownItems rest

def shownFields : List (Bytes × Value) -> List Bytes
  | [] => []
  | (key, item) :: rest => (key ++ ":" ++ shown item) :: shownFields rest

end

mutual

def text : Value -> Bytes
  | .null => []
  | .bool b => if b then "true" else "false"
  | .string s => s
  | .integer _ n => numberText (Binary64.ofInt n)
  | .double x => numberText x
  | .single x => numberText x
  | .list items => Bytes.join "," (textItems items)
  | .map fields => shown (.map fields)
  | .strings items => Bytes.join "," items
  | .integers items => Bytes.join "," (items.map fun n => numberText (Binary64.ofInt n))
  | .bytes b => b
  | .array items => Bytes.join "," (textItems items)
  | .ref target => text target
  | .emptyRef _ => []
  | .duration n => Duration.text n

def textItems : List Value -> List Bytes
  | [] => []
  | item :: rest => text item :: textItems rest

end

end Value

end Backtick
