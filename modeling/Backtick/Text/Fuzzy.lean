import Backtick.Bytes.Utf8
import Backtick.Text.Letter

/-!
# Fuzzy search

A pattern matches a candidate when its characters occur in the candidate in
order, up to case. Matches at the start, after a separator, at a change of case
and next to each other score higher; a long candidate scores lower.
-/

namespace Backtick.Text

/-- A candidate that matches, with its place in the list of candidates and its score. -/
structure Match where
  text : Bytes
  index : Nat
  positions : List Nat
  score : Int
deriving DecidableEq, Repr

namespace Fuzzy

/-- The state of the walk through a candidate. -/
structure Walk where
  /-- The part of the pattern not yet matched. -/
  pattern : List Char
  /-- The best score of the current pattern character so far. -/
  best : Int
  /-- Where that score was reached. -/
  bestIndex : Int
  /-- The bonus that adjacent matches have gathered. -/
  adjacent : Int
  total : Int
  /-- Matched byte positions, the last one first. -/
  matched : List Nat
  last : Option (Char × Nat)

def isSeparator (c : Char) : Bool :=
  c = '/' || c = '-' || c = '_' || c = ' ' || c = '.' || c = '\\'

/-- The score of matching the character `c` at byte `j`. -/
def charScore (w : Walk) (c : Char) (j : Nat) : Int × Int :=
  let first : Int := if j = 0 then 10 else 0
  let hump : Int :=
    match w.last with
    | some (l, _) => if isLower l && isUpper c then 20 else 0
    | none => 0
  let after : Int :=
    match w.last with
    | some (l, _) => if j ≠ 0 && isSeparator l then 20 else 0
    | none => 0
  let bonus : Int :=
    match w.matched, w.last with
    | m :: _, some (_, lastIndex) => if m = lastIndex then w.adjacent * 2 + 5 else 0
    | _, _ => 0
  (first + hump + after + bonus, bonus)

/-- Whether two optional characters fold equal; two absent ones do. -/
def foldEqual? : Option Char -> Option Char -> Bool
  | some a, some b => foldEqual a b
  | none, none => true
  | some a, none => a.toNat = 0
  | none, some b => b.toNat = 0

/-- One step of the walk: the character `c` at byte `j`, followed by `next`. -/
def step (w : Walk) (c : Char) (j : Nat) (next : Option Char) : Walk :=
  match w.pattern with
  | [] => { w with last := some (c, j) }
  | p :: pattern =>
      let w :=
        if foldEqual c p then
          let (score, bonus) := charScore w c j
          let w := { w with adjacent := w.adjacent + bonus }
          if w.best < score then { w with best := score, bestIndex := j } else w
        else
          w
      let w :=
        if (foldEqual? pattern.head? next || next.all (·.toNat = 0)) && -1 < w.bestIndex then
          let best :=
            if w.matched.isEmpty then w.best + max (-5 * w.bestIndex) (-15) else w.best
          { w with
            total := w.total + best
            matched := w.bestIndex.toNat :: w.matched
            best := -1
            pattern := pattern }
        else
          w
      { w with last := some (c, j) }

def walk (w : Walk) (j : Nat) : List Utf8.Piece -> Walk
  | [] => w
  | c :: rest =>
      walk (step w c.shown j (rest.head?.map Utf8.Piece.shown)) (j + c.width) rest

/-- The positions and the score of a pattern in a candidate. -/
def match? (pattern : List Char) (candidate : Bytes) : Option (List Nat × Int) :=
  let w := walk ⟨pattern, -1, -1, 0, 0, [], none⟩ 0 (Utf8.pieces candidate)
  if w.matched.length = pattern.length then
    some (w.matched.reverse, w.total + w.matched.length - candidate.length)
  else
    none

/-- Puts a match in front of the equal and lower ones. -/
def insertMatch (m : Match) : List Match -> List Match
  | [] => [m]
  | other :: rest => if other.score ≤ m.score then m :: other :: rest else other :: insertMatch m rest

end Fuzzy

/-- The candidates that match a pattern, the best first; of equal ones the later first. -/
def fuzzyFind (pattern : Bytes) (candidates : List Bytes) : List Match :=
  if pattern.isEmpty then
    []
  else
    let goal := Utf8.chars pattern
    let found := candidates.zipIdx.filterMap fun (candidate, index) =>
      (Fuzzy.match? goal candidate).map fun (positions, score) =>
        (⟨candidate, index, positions, score⟩ : Match)
    found.foldl (fun acc m => Fuzzy.insertMatch m acc) []

end Backtick.Text
