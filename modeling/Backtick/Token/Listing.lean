import Backtick.Document.Json
import Backtick.Token.Basic
import Backtick.Yaml.Write

/-!
# Listings of tokens

Tokens as a table with aligned columns, or as a document.
-/

namespace Backtick

namespace Token

def place (t : Token) : Bytes :=
  Bytes.ofInt t.start ++ ":" ++ Bytes.ofInt t.stop

/-- The width of a column: two more than its widest cell. -/
def columnWidth (cells : List Bytes) : Nat :=
  (cells.map Utf8.count).foldl max 0 + 2

/-- One token a line: its class, its columns and its quoted lexeme. -/
def table (tokens : List Token) : Bytes :=
  let kindWidth := columnWidth (tokens.map fun t => t.kind.name)
  let placeWidth := columnWidth (tokens.map place)
  tokens.flatMap fun t =>
    Utf8.padTo kindWidth t.kind.name ++ Utf8.padTo placeWidth t.place ++ Text.quote t.lexeme ++ "\n"

def document (t : Token) : Document :=
  .map
    [ ("lexeme", .string t.lexeme), ("kind", .string t.kind.name),
      ("columnFrom", .integer t.start), ("columnTo", .integer t.stop) ]

def documents (tokens : List Token) : Document :=
  .list (tokens.map document)

end Token

end Backtick
