import Mathlib
import Backtick.Tree.Parse

/-!
# Parenthesis depth

The two scans of the parser count parentheses. Here the count is a number of
its own, `depth`, and each scan is described by it: what it found, put together
again, is what it was given, and between two delimiters the depth is zero.
-/

namespace Backtick.Parse

/-- What a token adds to the depth of the tokens behind it. -/
def turn (t : Token) : Int :=
  if t.kind = .openParen then 1 else if t.kind = .closeParen then -1 else 0

/-- Opening parentheses less closing ones. -/
def depth : List Token -> Int
  | [] => 0
  | t :: rest => turn t + depth rest

@[simp] theorem depth_nil : depth [] = 0 := rfl

@[simp] theorem depth_cons (t : Token) (rest : List Token) :
    depth (t :: rest) = turn t + depth rest := rfl

@[simp] theorem depth_append (first second : List Token) :
    depth (first ++ second) = depth first + depth second := by
  induction first with
  | nil => simp
  | cons t rest ih =>
      rw [List.cons_append, depth_cons, depth_cons, ih]
      omega

theorem turn_of_open {t : Token} (h : t.kind = .openParen) : turn t = 1 := by
  simp [turn, h]

theorem turn_of_close {t : Token} (h : t.kind = .closeParen) : turn t = -1 := by
  simp [turn, h]

theorem turn_of_other {t : Token} (ho : t.kind ≠ .openParen) (hc : t.kind ≠ .closeParen) :
    turn t = 0 := by
  simp [turn, ho, hc]

/-! ## The closing parenthesis -/

def behind (front : List Token) (found : Option (List Token × Token × List Token)) :
    Option (List Token × Token × List Token) :=
  found.map fun (inner, close, after) => (front ++ inner, close, after)

theorem behind_behind (first second : List Token)
    (found : Option (List Token × Token × List Token)) :
    behind first (behind second found) = behind (first ++ second) found := by
  cases found <;> simp [behind]

/-- A token either closes the depth or is passed over. -/
theorem closing?_cons (d : Nat) (t : Token) (rest : List Token) :
    closing? d (t :: rest) =
      if t.kind = .closeParen ∧ d = 0 then
        some ([], t, rest)
      else
        behind [t] (closing? (d + turn t).toNat rest) := by
  by_cases hopen : t.kind = .openParen
  · simp [closing?, hopen, turn, behind]
  · by_cases hclose : t.kind = .closeParen
    · cases d with
      | zero => simp [closing?, hclose]
      | succ d => simp [closing?, hclose, turn, behind]
    · have hturn := turn_of_other hopen hclose
      rw [closing?.eq_def]
      dsimp only
      split
      · exact absurd ‹_› hopen
      · exact absurd ‹_› hclose
      · simp [hclose, hturn, behind]

theorem closing?_open {t : Token} (h : t.kind = .openParen) (d : Nat) (rest : List Token) :
    closing? d (t :: rest) = behind [t] (closing? (d + 1) rest) := by
  simp [closing?, h, behind]

theorem closing?_close {t : Token} (h : t.kind = .closeParen) (d : Nat) (rest : List Token) :
    closing? (d + 1) (t :: rest) = behind [t] (closing? d rest) := by
  simp [closing?, h, behind]

theorem closing?_split {d : Nat} {toks inner after : List Token} {close : Token}
    (h : closing? d toks = some (inner, close, after)) :
    toks = inner ++ close :: after ∧ close.kind = .closeParen ∧ (d : Int) + depth inner = 0 := by
  induction toks generalizing d inner with
  | nil => simp [closing?] at h
  | cons t rest ih =>
      rw [closing?_cons] at h
      split at h
      · rename_i hend
        cases h
        exact ⟨rfl, hend.1, by simp [hend.2]⟩
      · rename_i hpass
        cases hr : closing? (d + turn t).toNat rest with
        | none => simp [hr, behind] at h
        | some found =>
            obtain ⟨inner', close', after'⟩ := found
            simp only [hr, behind, Option.map_some, Option.some.injEq, Prod.mk.injEq] at h
            obtain ⟨rfl, rfl, rfl⟩ := h
            obtain ⟨hrest, hclose, hdepth⟩ := ih hr
            -- the depth only falls at a closing parenthesis, and there it was not yet zero
            have hstep : 0 ≤ (d : Int) + turn t := by
              unfold turn
              split_ifs with hopen hcl
              · omega
              · have hd : d ≠ 0 := fun hd => hpass ⟨hcl, hd⟩
                omega
              · omega
            refine ⟨by simp [hrest], hclose, ?_⟩
            simp only [List.cons_append, List.nil_append, depth_cons]
            omega

/-! ## The commas -/

/-- The parts between commas: each with the comma behind it, and the last one. -/
abbrev Parts := List (List Token × Token) × List Token

/-- The parts with more tokens in front of the first. -/
def Parts.behind (front : List Token) : Parts -> Parts
  | ([], last) => ([], front ++ last)
  | ((run, comma) :: more, last) => ((front ++ run, comma) :: more, last)

def Parts.joined (parts : Parts) : List Token :=
  parts.1.flatMap (fun part => part.1 ++ [part.2]) ++ parts.2

theorem Parts.behind_behind (first second : List Token) (parts : Parts) :
    Parts.behind first (Parts.behind second parts) = Parts.behind (first ++ second) parts := by
  obtain ⟨_ | ⟨⟨run, comma⟩, more⟩, last⟩ := parts <;> simp [Parts.behind]

theorem Parts.joined_behind (front : List Token) (parts : Parts) :
    (Parts.behind front parts).joined = front ++ parts.joined := by
  obtain ⟨_ | ⟨⟨run, comma⟩, more⟩, last⟩ := parts <;> simp [Parts.behind, Parts.joined]

/-- A token either parts the tokens or belongs to the first part. -/
theorem atCommas_cons (d : Int) (t : Token) (rest : List Token) :
    atCommas d (t :: rest) =
      if t.kind = .comma ∧ d = 0 then
        (([], t) :: (atCommas d rest).1, (atCommas d rest).2)
      else
        Parts.behind [t] (atCommas (d + turn t) rest) := by
  by_cases hopen : t.kind = .openParen
  · rcases hr : atCommas (d + 1) rest with ⟨_ | ⟨⟨run, comma⟩, more⟩, last⟩ <;>
      simp [atCommas, hopen, turn, hr, Parts.behind]
  · by_cases hclose : t.kind = .closeParen
    · rcases hr : atCommas (d - 1) rest with ⟨_ | ⟨⟨run, comma⟩, more⟩, last⟩ <;>
        simp [atCommas, hclose, turn, hr, Parts.behind, ← Int.sub_eq_add_neg]
    · have hturn := turn_of_other hopen hclose
      rw [atCommas]
      split
      · exact absurd ‹_› hopen
      · exact absurd ‹_› hclose
      · rename_i hcomma
        by_cases hd : d = 0
        · simp [hcomma, hd]
        · rcases hr : atCommas d rest with ⟨_ | ⟨⟨run, comma⟩, more⟩, last⟩ <;>
            simp [hd, hturn, hr, Parts.behind]
      · rename_i hcomma
        rw [if_neg fun h => hcomma h.1, hturn, Int.add_zero]
        rcases atCommas d rest with ⟨_ | ⟨⟨run, comma⟩, more⟩, last⟩ <;> rfl

theorem atCommas_open {t : Token} (h : t.kind = .openParen) (d : Nat) (rest : List Token) :
    atCommas d (t :: rest) = Parts.behind [t] (atCommas (d + 1 : Nat) rest) := by
  rw [atCommas_cons, if_neg (by simp [h]), turn_of_open h]
  rfl

theorem atCommas_close {t : Token} (h : t.kind = .closeParen) (d : Nat) (rest : List Token) :
    atCommas (d + 1 : Nat) (t :: rest) = Parts.behind [t] (atCommas d rest) := by
  have hback : ((d + 1 : Nat) : Int) + -1 = d := by omega
  rw [atCommas_cons, if_neg (by simp [h]), turn_of_close h, hback]

theorem joined_atCommas (d : Int) (toks : List Token) : Parts.joined (atCommas d toks) = toks := by
  induction toks generalizing d with
  | nil => simp [atCommas, Parts.joined]
  | cons t rest ih =>
      rw [atCommas_cons]
      split
      · have hrest := ih d
        simp only [Parts.joined] at hrest ⊢
        simp [hrest]
      · rw [Parts.joined_behind, ih]
        rfl

theorem atCommas_kind (d : Int) (toks : List Token) :
    ∀ part ∈ (atCommas d toks).1, part.2.kind = .comma := by
  induction toks generalizing d with
  | nil => simp [atCommas]
  | cons t rest ih =>
      rw [atCommas_cons]
      split
      · rename_i hcomma
        intro part hpart
        rcases List.mem_cons.mp hpart with rfl | hmore
        · exact hcomma.1
        · exact ih d part hmore
      · have hrest := ih (d + turn t)
        revert hrest
        obtain ⟨_ | ⟨⟨run, comma⟩, more⟩, last⟩ := atCommas (d + turn t) rest <;>
          simp [Parts.behind]

/-- Up to the first comma the depth falls to zero, and between commas it stays there. -/
def Parts.Level (d : Int) (parts : Parts) : Prop :=
  match parts.1 with
  | [] => True
  | first :: more => d + depth first.1 = 0 ∧ ∀ part ∈ more, depth part.1 = 0

theorem level_atCommas (d : Int) (toks : List Token) : Parts.Level d (atCommas d toks) := by
  induction toks generalizing d with
  | nil => simp [atCommas, Parts.Level]
  | cons t rest ih =>
      rw [atCommas_cons]
      split
      · rename_i hcomma
        obtain ⟨-, rfl⟩ := hcomma
        have hrest := ih 0
        revert hrest
        obtain ⟨_ | ⟨⟨run, comma⟩, more⟩, last⟩ := atCommas 0 rest
        · simp [Parts.Level]
        · rintro ⟨hrun, hmore⟩
          refine ⟨by simp, ?_⟩
          intro part hpart
          rcases List.mem_cons.mp hpart with rfl | hin
          · simpa using hrun
          · exact hmore part hin
      · have hrest := ih (d + turn t)
        revert hrest
        obtain ⟨_ | ⟨⟨run, comma⟩, more⟩, last⟩ := atCommas (d + turn t) rest
        · simp [Parts.Level, Parts.behind]
        · rintro ⟨hrun, hmore⟩
          refine ⟨?_, hmore⟩
          simp only [List.cons_append, List.nil_append, depth_cons] at hrun ⊢
          omega

/-- Two commas part the tokens into three runs that leave the depth as it was. -/
theorem atCommas_two {toks first second last : List Token} {comma comma' : Token}
    (h : atCommas 0 toks = ([(first, comma), (second, comma')], last)) (hdepth : depth toks = 0) :
    toks = first ++ comma :: second ++ comma' :: last ∧
      comma.kind = .comma ∧ comma'.kind = .comma ∧
      depth first = 0 ∧ depth second = 0 ∧ depth last = 0 := by
  have hjoined := joined_atCommas 0 toks
  have hkind := atCommas_kind 0 toks
  have hlevel := level_atCommas 0 toks
  rw [h] at hjoined hkind hlevel
  have hcomma : comma.kind = .comma := hkind (first, comma) (by simp)
  have hcomma' : comma'.kind = .comma := hkind (second, comma') (by simp)
  have hfirst : depth first = 0 := by simpa using hlevel.1
  have hsecond : depth second = 0 := hlevel.2 (second, comma') (by simp)
  have htoks : toks = first ++ comma :: second ++ comma' :: last := by
    simpa [Parts.joined] using hjoined.symm
  have hlast : depth last = 0 := by
    simpa [htoks, hfirst, hsecond, turn, hcomma, hcomma'] using hdepth
  exact ⟨htoks, hcomma, hcomma', hfirst, hsecond, hlast⟩

end Backtick.Parse
