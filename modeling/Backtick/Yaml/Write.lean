import Backtick.Document.Basic
import Backtick.Number.Notation
import Backtick.Text.Quoted
import Backtick.Yaml.Scalar

/-!
# YAML text

Documents as YAML: in block style with the elements of a list at the column of
their key, or on one line between brackets.
-/

namespace Backtick

namespace Yaml

/-- A number, always with a point or an exponent. -/
def numberText (p : Precision) : Binary64 -> Bytes
  | .nan => ".nan"
  | .infinite negative => if negative then "-.inf" else ".inf"
  | x =>
      let figures := Notation.general.write p x
      if figures.contains '.'.toUInt8 || figures.contains 'e'.toUInt8 then figures
      else figures ++ ".0"

/-- A string, in quotes where it needs them. -/
def stringText (flow : Bool) (s : Bytes) : Bytes :=
  let quoted := if flow then needsQuotesInFlow s else needsQuotes s
  if quoted then Text.quote s else s

mutual

def writeFlow : Document -> Bytes
  | .null => "null"
  | .bool b => if b then "true" else "false"
  | .integer n => Bytes.ofInt n
  | .number p x => numberText p x
  | .string s => stringText true s
  | .list items => "[" ++ Bytes.join ", " (writeFlowItems items) ++ "]"
  | .map fields => "\x7b" ++ Bytes.join ", " (writeFlowFields fields) ++ "\x7d"

def writeFlowItems : List Document -> List Bytes
  | [] => []
  | item :: rest => writeFlow item :: writeFlowItems rest

def writeFlowFields : List (Bytes × Document) -> List Bytes
  | [] => []
  | (key, item) :: rest => (stringText true key ++ ": " ++ writeFlow item) :: writeFlowFields rest

end

def shift (n : Nat) (lines : List Bytes) : List Bytes :=
  lines.map fun line => Bytes.blanks n ++ line

/-- Lines moved to the right by two, a dash before the first. -/
def dashed : List Bytes -> List Bytes
  | [] => []
  | first :: rest => ("- " ++ first) :: shift 2 rest

mutual

/-- The lines of a document; nested mappings are moved to the right by `indent`. -/
def writeBlock (indent : Nat) : Document -> List Bytes
  | .null => ["null"]
  | .bool b => [if b then "true" else "false"]
  | .integer n => [Bytes.ofInt n]
  | .number p x => [numberText p x]
  | .string s => [stringText false s]
  | .list items => if items.isEmpty then ["[]"] else writeBlockItems indent items
  | .map fields => if fields.isEmpty then ["\x7b\x7d"] else writeBlockFields indent fields

def writeBlockItems (indent : Nat) : List Document -> List Bytes
  | [] => []
  | item :: rest => dashed (writeBlock indent item) ++ writeBlockItems indent rest

def writeBlockFields (indent : Nat) : List (Bytes × Document) -> List Bytes
  | [] => []
  | (key, item) :: rest =>
      let name := stringText false key ++ ":"
      let lines := writeBlock indent item
      let own : List Bytes :=
        match item with
        | .list (_ :: _) => name :: lines
        | .map (_ :: _) => name :: shift indent lines
        | _ => [name ++ " " ++ lines.headD []]
      own ++ writeBlockFields indent rest

end

end Yaml

/-- A document as YAML with a line feed at its end; without an indent it stands on one line. -/
def Document.yaml (indent : Int) (d : Document) : Bytes :=
  if indent ≤ 0 then
    Yaml.writeFlow d ++ "\n"
  else
    (Yaml.writeBlock indent.toNat d).flatMap fun line => line ++ "\n"

end Backtick
