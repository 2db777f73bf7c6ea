import Backtick.Text.Blank
import Backtick.Text.Cells

/-!
# The input field

One line of text with a cursor, both counted in characters. The field shows the
whole line if it fits, and else a window that follows the cursor.
-/

namespace Backtick

/-- A line of input. -/
structure Field where
  value : List Char
  /-- The number of characters before the cursor. -/
  cursor : Nat
  /-- The number of cells for the text; without a positive one all of it is shown. -/
  width : Int
  /-- The number of characters before the window. -/
  first : Nat
  /-- The number of characters up to the end of the window. -/
  last : Nat
deriving DecidableEq, Repr

namespace Field

/-- The largest number of characters. -/
def limit : Nat := 1024

def new (width : Int) : Field :=
  ⟨[], 0, width, 0, 0⟩

def text (f : Field) : Bytes :=
  Utf8.ofChars f.value

/-- Characters that a field does not hold. -/
def isControl (c : Char) : Bool :=
  c.toNat < 0x20 || (0x7F ≤ c.toNat && c.toNat ≤ 0x9F)

/--
The characters that a field takes over: a line break or a tab becomes a space, and other
control characters and the replacement character are left out.
-/
def clean (cs : List Char) : List Char :=
  cs.filterMap fun c =>
    if c = '\n' || c = '\r' || c = '\t' then some ' '
    else if isControl c || c.toNat = 0xFFFD then none
    else some c

/-- How many characters a window holds that starts with the cursor. -/
def fitAhead (width used : Nat) : List Char -> Nat
  | [] => 0
  | c :: rest =>
      if width < used then 0
      else
        let used := used + Text.cells c
        if used ≤ width + 1 then fitAhead width used rest + 1 else 0

/-- How many characters a window holds that ends with the cursor, the last one first. -/
def fitBack (width used : Nat) : List Char -> Nat
  | c :: d :: rest =>
      if width ≤ used then 0
      else
        let used := used + Text.cells c
        if used ≤ width then fitBack width used (d :: rest) + 1 else 0
  | _ => 0

/-- Moves the window so that it holds the cursor. -/
def scroll (f : Field) : Field :=
  let size := f.value.length
  if f.width ≤ 0 || Text.cellsOf f.value ≤ f.width.toNat then
    { f with first := 0, last := size }
  else
    let last := min f.last size
    if f.cursor < f.first then
      let held := fitAhead f.width.toNat 0 (f.value.drop f.cursor)
      { f with first := f.cursor, last := f.cursor + held }
    else if last ≤ f.cursor then
      let held := fitBack f.width.toNat 0 (f.value.take f.cursor).reverse
      { f with first := f.cursor - held, last := f.cursor }
    else
      { f with last := last }

/-- Puts the cursor behind a number of characters, or at the end. -/
def moveTo (f : Field) (position : Nat) : Field :=
  scroll { f with cursor := min position f.value.length }

/--
Replaces the text by characters up to the limit. The cursor of an empty field goes to the
end, and so does one that would be behind the end; else it stays.
-/
def setChars (f : Field) (cs : List Char) : Field :=
  let value := cs.take limit
  let g := { f with value := value }
  if (f.cursor = 0 && f.value.isEmpty) || value.length < f.cursor then
    scroll (g.moveTo value.length)
  else
    scroll g

def setText (f : Field) (text : Bytes) : Field :=
  f.setChars (clean (Utf8.chars text))

/-- Inserts characters at the cursor, as many as there is room for. -/
def insert (f : Field) (cs : List Char) : Field :=
  let added := (clean cs).take (limit - f.value.length)
  scroll { f with
    value := f.value.take f.cursor ++ added ++ f.value.drop f.cursor
    cursor := f.cursor + added.length }

/-- Removes the characters from one position up to another, and puts the cursor there. -/
def remove (f : Field) (start stop : Nat) : Field :=
  moveTo { f with value := f.value.take start ++ f.value.drop stop } start

/-- Without the blanks in front and the word behind them. -/
def dropWord (cs : List Char) : List Char :=
  (cs.dropWhile Text.isBlank).dropWhile fun c => !Text.isBlank c

/-- The position of the start of the word before the cursor. -/
def wordStart (f : Field) : Nat :=
  (dropWord (f.value.take f.cursor).reverse).length

/-- The position of the end of the word behind the cursor. -/
def wordStop (f : Field) : Nat :=
  f.value.length - (dropWord (f.value.drop f.cursor)).length

def blankAt (f : Field) (position : Nat) : Bool :=
  f.value[position]?.any Text.isBlank

/-- The first position at or below a given one, but 0, that satisfies a condition; else 0. -/
def downTo (p : Nat -> Bool) : Nat -> Nat
  | 0 => 0
  | n + 1 => if p (n + 1) then n + 1 else downTo p n

/-- Removes the word before the cursor and the blanks behind it, but not the blank before it. -/
def removeWordBack (f : Field) : Field :=
  match f.cursor with
  | 0 => f
  | near + 1 =>
      let inWord := downTo (fun n => !f.blankAt n) near
      let low := downTo f.blankAt inWord
      let start := if low = 0 then 0 else low + 1
      let g := (f.moveTo low).moveTo start
      scroll { g with value := f.value.take start ++ f.value.drop f.cursor }

/-- Removes the character at the cursor, the blanks behind it and the word behind them. -/
def removeWordAhead (f : Field) : Field :=
  if f.cursor < f.value.length then
    let stop := f.value.length - (dropWord (f.value.drop (f.cursor + 1))).length
    (f.moveTo stop).remove f.cursor stop
  else
    f

inductive Action
  | left
  | right
  | wordLeft
  | wordRight
  | home
  | finish
  | removeBack
  | removeAhead
  | removeWordBack
  | removeWordAhead
  | removeRest
  | removeStart
  | nothing
deriving DecidableEq, Repr

/-- The actions bound to keys by their names. -/
def bindings : List (Bytes × Action) :=
  [ ("alt+backspace", .removeWordBack), ("ctrl+w", .removeWordBack),
    ("backspace", .removeBack), ("ctrl+h", .removeBack),
    ("alt+left", .wordLeft), ("ctrl+left", .wordLeft), ("alt+b", .wordLeft),
    ("left", .left), ("ctrl+b", .left),
    ("alt+right", .wordRight), ("ctrl+right", .wordRight), ("alt+f", .wordRight),
    ("right", .right), ("ctrl+f", .right),
    ("home", .home), ("ctrl+a", .home),
    ("delete", .removeAhead), ("ctrl+d", .removeAhead),
    ("end", .finish), ("ctrl+e", .finish),
    ("ctrl+k", .removeRest), ("ctrl+u", .removeStart),
    ("alt+delete", .removeWordAhead), ("alt+d", .removeWordAhead),
    ("ctrl+v", .nothing), ("up", .nothing), ("ctrl+p", .nothing), ("down", .nothing),
    ("ctrl+n", .nothing) ]

def act (f : Field) : Action -> Field
  | .left => f.moveTo (f.cursor - 1)
  | .right => f.moveTo (f.cursor + 1)
  | .wordLeft => f.moveTo f.wordStart
  | .wordRight => f.moveTo f.wordStop
  | .home => f.moveTo 0
  | .finish => f.moveTo f.value.length
  | .removeBack => if f.cursor = 0 then f else f.remove (f.cursor - 1) f.cursor
  | .removeAhead =>
      scroll { f with value := f.value.take f.cursor ++ f.value.drop (f.cursor + 1) }
  | .removeWordBack => f.removeWordBack
  | .removeWordAhead => f.removeWordAhead
  | .removeRest => f.remove f.cursor f.value.length
  | .removeStart => remove { f with first := 0 } 0 f.cursor
  | .nothing => f

/-- The field after a key with a name: a bound action, or the key's characters inserted. -/
def press (f : Field) (name : Bytes) (cs : List Char) : Field :=
  match bindings.lookup name with
  | some action => (f.act action).scroll
  | none => (f.insert cs).scroll

/-- The field as it is shown, with a blank for a cursor at the end, padded to the width. -/
def view (f : Field) : Bytes :=
  let visible := (f.value.take f.last).drop f.first
  let used := Text.cellsOf visible
  let inside := f.cursor - f.first < visible.length
  let shown : Bytes := if inside then Utf8.ofChars visible else Utf8.ofChars visible ++ " "
  if 0 < f.width && used ≤ f.width.toNat then
    shown ++ Bytes.blanks (f.width.toNat - used + if inside then 1 else 0)
  else
    shown

end Field

end Backtick
