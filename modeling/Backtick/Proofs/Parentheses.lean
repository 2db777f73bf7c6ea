import Mathlib
import Backtick.Proofs.Placement
import Backtick.Session.Signature

/-!
# Open parentheses

The call that is open at the end of a text is found by walking back over its bytes,
without regard to strings and formulas. What the walk meets is a matter of heights:
a text whose tails all close what they open is passed, and it stops before one that
is balanced. The tokens have heights of their own, and where the strings among them
are balanced these are the heights of their bytes.
-/

namespace Backtick

open Scan

/-! ## Parentheses left open -/

/-- No tail of a list opens more than it closes: all that it opens is closed in it. -/
def ClosesAll {α : Type} (height : List α -> Int) (l : List α) : Prop :=
  ∀ tail ∈ l.tails, height tail ≤ 0

/-- A list that closes all that it opens, and nothing else. -/
structure Balanced {α : Type} (height : List α -> Int) (l : List α) : Prop where
  closes : ClosesAll height l
  height : height l = 0

instance {α : Type} (height : List α -> Int) (l : List α) : Decidable (ClosesAll height l) :=
  inferInstanceAs (Decidable (∀ tail ∈ l.tails, height tail ≤ 0))

instance {α : Type} (height : List α -> Int) (l : List α) : Decidable (Balanced height l) :=
  decidable_of_iff (ClosesAll height l ∧ height l = 0)
    ⟨fun h => ⟨h.1, h.2⟩, fun h => ⟨h.closes, h.height⟩⟩

theorem closesAll_iff {α : Type} {height : List α -> Int} {l : List α} :
    ClosesAll height l ↔ ∀ tail, tail <:+ l → height tail ≤ 0 := by
  simp only [ClosesAll, List.mem_tails]

theorem suffix_append_cases {α : Type} {tail first second : List α}
    (h : tail <:+ first ++ second) :
    tail <:+ second ∨ ∃ front, front <:+ first ∧ tail = front ++ second := by
  obtain ⟨rest, hrest⟩ := h
  rcases List.append_eq_append_iff.mp hrest with ⟨front, hfirst, htail⟩ | ⟨mid, -, hsecond⟩
  · exact .inr ⟨front, ⟨rest, hfirst.symm⟩, htail⟩
  · exact .inl ⟨mid, hsecond.symm⟩

theorem closesAll_cons {α : Type} {height : List α -> Int} {a : α} {l : List α} :
    ClosesAll height (a :: l) ↔ height (a :: l) ≤ 0 ∧ ClosesAll height l := by
  simp only [ClosesAll, List.tails_cons, List.forall_mem_cons]

namespace Bytes

def turn (b : UInt8) : Int :=
  if b = '('.toUInt8 then 1 else if b = ')'.toUInt8 then -1 else 0

/-- Opening parentheses less closing ones, wherever they stand. -/
def height (text : Bytes) : Int :=
  (text.map turn).sum

@[simp] theorem height_nil : height [] = 0 := rfl

@[simp] theorem height_cons (b : UInt8) (text : Bytes) :
    height (b :: text) = turn b + height text := by
  simp [height]

@[simp] theorem height_append (first second : Bytes) :
    height (first ++ second) = height first + height second := by
  simp [height]

theorem height_of_not_mark {text : Bytes} (h : ∀ b ∈ text, b ∉ marks) : height text = 0 := by
  induction text with
  | nil => rfl
  | cons b text ih =>
      obtain ⟨hb, htext⟩ := List.forall_mem_cons.mp h
      have hturn : turn b = 0 := by
        have hopen : b ≠ '('.toUInt8 := fun heq => hb (by rw [heq]; decide)
        have hclose : b ≠ ')'.toUInt8 := fun heq => hb (by rw [heq]; decide)
        rw [turn, if_neg hopen, if_neg hclose]
      rw [height_cons, hturn, ih htext, Int.add_zero]

theorem balanced_of_not_mark {text : Bytes} (h : ∀ b ∈ text, b ∉ marks) : Balanced height text := by
  refine ⟨closesAll_iff.mpr fun tail htail => ?_, height_of_not_mark h⟩
  exact (height_of_not_mark fun b hb => h b (htail.subset hb)).le

theorem closesAll_append {first second : Bytes} (hfirst : ClosesAll height first)
    (hsecond : ClosesAll height second) : ClosesAll height (first ++ second) := by
  rw [closesAll_iff] at *
  intro tail htail
  rcases suffix_append_cases htail with htail | ⟨front, hfront, rfl⟩
  · exact hsecond tail htail
  · rw [height_append]
    exact Int.add_nonpos (hfirst front hfront) (hsecond second List.suffix_rfl)

end Bytes

/-! ## The walk back -/

namespace OpenCall

open Bytes (height turn)

theorem lastOpen?_cons {depth : Nat} {b : UInt8} (h : turn b ≤ depth) (after before : Bytes) :
    lastOpen? depth after (b :: before) =
      lastOpen? (depth - turn b).toNat (b :: after) before := by
  unfold turn at h ⊢
  rw [lastOpen?.eq_def]
  dsimp only
  by_cases hclose : b = ')'.toUInt8
  · subst hclose
    rw [if_pos rfl, if_neg (by decide), if_pos rfl]
    rfl
  · rw [if_neg hclose]
    by_cases hopen : b = '('.toUInt8
    · rw [if_pos hopen] at h ⊢
      rw [if_pos hopen]
      cases depth with
      | zero => omega
      | succ depth =>
          have hless : (((depth + 1 : Nat) : Int) - 1).toNat = depth := by omega
          rw [hless]
    · rw [if_neg hopen, if_neg hopen, if_neg hclose, Int.sub_zero, Int.toNat_natCast]

/-- A text none of whose tails opens more than is to be passed is passed as a whole. -/
theorem lastOpen?_append {text : Bytes} {depth : Nat}
    (h : ∀ tail, tail <:+ text → height tail ≤ depth) (after before : Bytes) :
    lastOpen? depth after (text.reverse ++ before) =
      lastOpen? (depth - height text).toNat (text ++ after) before := by
  induction text using List.reverseRecOn generalizing depth after with
  | nil => simp
  | append_singleton init b ih =>
      have hb : turn b ≤ depth := by simpa using h [b] (List.suffix_append init [b])
      have hinit (tail : Bytes) (htail : tail <:+ init) :
          height tail ≤ ((depth - turn b).toNat : Nat) := by
        obtain ⟨front, rfl⟩ := htail
        have hheight := h (tail ++ [b]) ⟨front, (List.append_assoc ..).symm⟩
        simp only [Bytes.height_append, Bytes.height_cons, Bytes.height_nil] at hheight
        omega
      have hdepth : (((depth - turn b).toNat : Nat) - height init).toNat =
          (depth - height (init ++ [b])).toNat := by
        simp only [Bytes.height_append, Bytes.height_cons, Bytes.height_nil]
        omega
      rw [List.reverse_concat, List.cons_append, lastOpen?_cons hb, ih hinit, hdepth]
      simp

theorem lastOpen?_of_closesAll {text : Bytes} (h : ClosesAll height text) :
    lastOpen? 0 [] text.reverse = none := by
  have hwalk := @lastOpen?_append text 0 (closesAll_iff.mp h) [] []
  rwa [List.append_nil] at hwalk

theorem lastOpen?_of_balanced {arguments : Bytes} (h : Balanced height arguments) (before : Bytes) :
    lastOpen? 0 [] (before ++ '('.toUInt8 :: arguments).reverse =
      some (before.reverse, arguments) := by
  have hwalk := @lastOpen?_append arguments 0 (closesAll_iff.mp h.closes) []
    ('('.toUInt8 :: before.reverse)
  rw [h.height, List.append_nil] at hwalk
  rw [List.reverse_append, List.reverse_cons, List.append_assoc]
  exact hwalk

theorem at?_of_closesAll {text : Bytes} (h : ClosesAll height text) :
    at? text text.length = none := by
  rw [at?, List.take_length, lastOpen?_of_closesAll h]

/-- The call of an open parenthesis behind which everything is closed. -/
theorem at?_of_balanced {arguments : Bytes} (h : Balanced height arguments) (before : Bytes)
    (c : OpenCall) :
    let text := before ++ '('.toUInt8 :: arguments
    at? text text.length = some c ↔
      c = ⟨before.rtakeWhile isNameByte, commas arguments⟩ ∧ c.name ≠ [] := by
  intro text
  rw [at?, List.take_length, lastOpen?_of_balanced h]
  change (if (before.rtakeWhile isNameByte).isEmpty then none else _) = some c ↔ _
  split
  · rename_i hempty
    rw [List.isEmpty_iff] at hempty
    simp only [reduceCtorEq, false_iff, not_and, not_not]
    rintro rfl
    exact hempty
  · rename_i hempty
    rw [List.isEmpty_iff] at hempty
    rw [Option.some.injEq]
    constructor
    · rintro rfl
      exact ⟨rfl, hempty⟩
    · exact fun hc => hc.1.symm

end OpenCall

/-! ## The parenthesis that the tokens leave open -/

namespace Parse

/-- What follows an opening parenthesis closes it: a closing one stands there at its depth. -/
def ClosedBy (behind : List Token) : Prop :=
  ∃ inner close rest, behind = inner ++ close :: rest ∧ close.kind = .closeParen ∧ depth inner = 0

/-- The last opening parenthesis that is not closed, and the tokens before and behind it. -/
structure LastOpen (toks before : List Token) (o : Token) (args : List Token) : Prop where
  split : toks = before ++ o :: args
  paren : o.kind = .openParen
  unclosed : ¬ClosedBy args
  last : ∀ mid o' rest, args = mid ++ o' :: rest → o'.kind = .openParen → ClosedBy rest

theorem neg_one_le_turn (t : Token) : -1 ≤ turn t := by
  unfold turn
  split_ifs <;> omega

theorem turn_le_one (t : Token) : turn t ≤ 1 := by
  unfold turn
  split_ifs <;> omega

theorem kind_of_turn_eq_one {t : Token} (h : turn t = 1) : t.kind = .openParen := by
  by_contra hopen
  rw [turn, if_neg hopen] at h
  split_ifs at h
  omega

theorem kind_of_turn_neg {t : Token} (h : turn t < 0) : t.kind = .closeParen := by
  by_contra hclose
  rw [turn, if_neg hclose] at h
  split_ifs at h <;> omega

/-- The depth falls by one at a time, so below zero it has gone through a closing parenthesis. -/
theorem exists_close {d : Int} (hd : 0 ≤ d) {toks : List Token} (h : d + depth toks < 0) :
    ∃ inner close rest, toks = inner ++ close :: rest ∧ close.kind = .closeParen ∧
      d + depth inner = 0 := by
  induction toks generalizing d with
  | nil => simp only [depth_nil] at h; omega
  | cons t toks ih =>
      have hturn := neg_one_le_turn t
      rw [depth_cons] at h
      by_cases hstep : 0 ≤ d + turn t
      · obtain ⟨inner, close, rest, rfl, hclose, hdepth⟩ := ih hstep (by omega)
        exact ⟨t :: inner, close, rest, rfl, hclose, by rw [depth_cons]; omega⟩
      · exact ⟨[], t, toks, rfl, kind_of_turn_neg (by omega), by rw [depth_nil]; omega⟩

theorem closedBy_of_depth_neg {behind : List Token} (h : depth behind < 0) : ClosedBy behind := by
  obtain ⟨inner, close, rest, hsplit, hclose, hdepth⟩ := exists_close le_rfl (by simpa using h)
  exact ⟨inner, close, rest, hsplit, hclose, by simpa using hdepth⟩

theorem closesAll_of_last {args : List Token}
    (h : ∀ mid o' rest, args = mid ++ o' :: rest → o'.kind = .openParen → ClosedBy rest) :
    ClosesAll depth args := by
  rw [closesAll_iff]
  intro tail
  -- on the length: the part behind a closing parenthesis is a shorter tail
  induction hn : tail.length using Nat.strongRecOn generalizing tail with
  | ind n ih =>
      intro htail
      cases tail with
      | nil => exact le_rfl
      | cons t tail =>
          have hmore := ih tail.length (by simp [← hn]) tail rfl
            ((List.suffix_cons t tail).trans htail)
          rw [depth_cons]
          by_cases hopen : t.kind = .openParen
          · obtain ⟨mid, hmid⟩ := htail
            obtain ⟨inner, close, rest, rfl, hclose, hdepth⟩ := h mid t tail hmid.symm hopen
            have hrest := ih rest.length (by simp [← hn]; omega) rest rfl
              ⟨mid ++ t :: inner ++ [close], by simp [← hmid]⟩
            rw [depth_append, depth_cons, hdepth, turn_of_open hopen, turn_of_close hclose]
            omega
          · have hturn : turn t ≤ 0 := by
              by_contra hpos
              exact hopen (kind_of_turn_eq_one (by have := turn_le_one t; omega))
            omega

/-- Behind the last open parenthesis all that is opened is closed, and nothing else. -/
theorem lastOpen_iff {toks before : List Token} {o : Token} {args : List Token} :
    LastOpen toks before o args ↔
      toks = before ++ o :: args ∧ o.kind = .openParen ∧ Balanced depth args := by
  constructor
  · intro h
    have hcloses := closesAll_of_last h.last
    refine ⟨h.split, h.paren, hcloses, le_antisymm ?_ ?_⟩
    · exact closesAll_iff.mp hcloses args List.suffix_rfl
    · exact not_lt.mp fun hneg => h.unclosed (closedBy_of_depth_neg hneg)
  · rintro ⟨hsplit, hparen, hbalanced⟩
    refine ⟨hsplit, hparen, ?_, ?_⟩
    · rintro ⟨inner, close, rest, rfl, hclose, hdepth⟩
      have hrest := closesAll_iff.mp hbalanced.closes rest ⟨inner ++ [close], by simp⟩
      have hheight := hbalanced.height
      rw [depth_append, depth_cons, hdepth, turn_of_close hclose] at hheight
      omega
    · rintro mid o' rest rfl hopen
      have hrest := closesAll_iff.mp hbalanced.closes (o' :: rest) (List.suffix_append mid _)
      rw [depth_cons, turn_of_open hopen] at hrest
      exact closedBy_of_depth_neg (by omega)

/-- A list of tokens closes all that it opens, or has a last parenthesis that it leaves open. -/
theorem closesAll_or_balanced (toks : List Token) :
    ClosesAll depth toks ∨
      ∃ before o args, toks = before ++ o :: args ∧ o.kind = .openParen ∧ Balanced depth args := by
  induction toks with
  | nil => exact .inl (by simp [ClosesAll])
  | cons t toks ih =>
      rcases ih with hcloses | ⟨before, o, args, rfl, hopen, hbalanced⟩
      · by_cases hdepth : depth (t :: toks) ≤ 0
        · exact .inl (closesAll_cons.mpr ⟨hdepth, hcloses⟩)
        · have htoks := closesAll_iff.mp hcloses toks List.suffix_rfl
          have hturn := turn_le_one t
          rw [depth_cons] at hdepth
          exact .inr ⟨[], t, toks, rfl, kind_of_turn_eq_one (by omega), hcloses, by omega⟩
      · exact .inr ⟨t :: before, o, args, rfl, hopen, hbalanced⟩

/-- The commas that are inside no further parentheses, at a depth. -/
def outerCommas (d : Int) : List Token -> Nat
  | [] => 0
  | t :: rest => (if t.kind = .comma ∧ d = 0 then 1 else 0) + outerCommas (d + turn t) rest

/-! Blanks neither open, close nor part anything. -/

theorem turn_blank {t : Token} (h : t.kind = .whitespace) : turn t = 0 :=
  turn_of_other (by rw [h]; decide) (by rw [h]; decide)

theorem depth_significant (toks : List Token) : depth (significant toks) = depth toks := by
  induction toks with
  | nil => rfl
  | cons t toks ih =>
      by_cases hblank : t.kind = .whitespace
      · rw [significant, List.filter_cons_of_neg (by simpa using hblank), depth_cons,
          turn_blank hblank, Int.zero_add]
        exact ih
      · rw [significant, List.filter_cons_of_pos (by simpa using hblank), depth_cons, depth_cons]
        exact congrArg _ ih

theorem outerCommas_significant (d : Int) (toks : List Token) :
    outerCommas d (significant toks) = outerCommas d toks := by
  induction toks generalizing d with
  | nil => rfl
  | cons t toks ih =>
      by_cases hblank : t.kind = .whitespace
      · have hcomma : ¬(t.kind = .comma ∧ d = 0) := by simp [hblank]
        rw [significant, List.filter_cons_of_neg (by simpa using hblank), outerCommas,
          if_neg hcomma, turn_blank hblank, Int.add_zero, Nat.zero_add]
        exact ih d
      · rw [significant, List.filter_cons_of_pos (by simpa using hblank), outerCommas, outerCommas]
        exact congrArg _ (ih _)

theorem balanced_significant {toks : List Token} :
    Balanced depth (significant toks) ↔ Balanced depth toks := by
  constructor
  · intro h
    refine ⟨closesAll_iff.mpr ?_, by rw [← depth_significant]; exact h.height⟩
    rintro tail ⟨front, rfl⟩
    rw [← depth_significant]
    refine closesAll_iff.mp h.closes _ ?_
    rw [significant_append]
    exact List.suffix_append _ _
  · intro h
    refine ⟨closesAll_iff.mpr ?_, by rw [depth_significant]; exact h.height⟩
    rintro tail ⟨front, hsplit⟩
    obtain ⟨first, second, rfl, -, rfl⟩ := List.filter_eq_append_iff.mp hsplit.symm
    exact (depth_significant second).trans_le (closesAll_iff.mp h.closes _ (List.suffix_append _ _))

/-- The last open parenthesis of the tokens that count, among all tokens. -/
theorem lastOpen_significant {toks before : List Token} {o : Token} {args : List Token} :
    LastOpen (significant toks) before o args ↔
      ∃ front behind, toks = front ++ o :: behind ∧ o.kind = .openParen ∧
        significant front = before ∧ significant behind = args ∧ Balanced depth behind := by
  rw [lastOpen_iff]
  constructor
  · rintro ⟨hsplit, hopen, hbalanced⟩
    obtain ⟨front, rest, rfl, rfl, hrest⟩ := List.filter_eq_append_iff.mp hsplit
    obtain ⟨blanks, behind, rfl, hblanks, -, rfl⟩ := List.filter_eq_cons_iff.mp hrest
    refine ⟨front ++ blanks, behind, by simp, hopen, ?_, rfl, balanced_significant.mp hbalanced⟩
    rw [significant_append]
    exact (congrArg _ (List.filter_eq_nil_iff.mpr hblanks)).trans (List.append_nil _)
  · rintro ⟨front, behind, rfl, hopen, rfl, rfl, hbalanced⟩
    refine ⟨?_, hopen, balanced_significant.mpr hbalanced⟩
    rw [significant_append]
    refine congrArg _ (List.filter_cons_of_pos ?_)
    rw [hopen]
    decide

theorem not_lastOpen_of_closesAll {toks before : List Token} {o : Token} {args : List Token}
    (h : ClosesAll depth toks) : ¬LastOpen (significant toks) before o args := by
  intro hlast
  obtain ⟨front, behind, rfl, hopen, -, -, hbalanced⟩ := lastOpen_significant.mp hlast
  have hdepth := closesAll_iff.mp h (o :: behind) (List.suffix_append front _)
  rw [depth_cons, turn_of_open hopen, hbalanced.height] at hdepth
  omega

end Parse

/-! ## The bytes of tokens -/

namespace Token

open Bytes (height)

/-- The bytes of a token open and close what the token does, and no more. -/
structure Weighs (t : Token) : Prop where
  height : height t.lexeme = Parse.turn t
  tail : ∀ tail, tail <:+ t.lexeme → tail = t.lexeme ∨ Bytes.height tail ≤ 0

theorem weighs_of_balanced {t : Token} (hbalanced : Balanced height t.lexeme)
    (hopen : t.kind ≠ .openParen) (hclose : t.kind ≠ .closeParen) : t.Weighs :=
  ⟨by rw [hbalanced.height, Parse.turn_of_other hopen hclose],
    fun tail htail => .inr (closesAll_iff.mp hbalanced.closes tail htail)⟩

theorem weighs_of_singleton {t : Token} {b : UInt8} (hlexeme : t.lexeme = [b])
    (hturn : Bytes.turn b = Parse.turn t) : t.Weighs := by
  refine ⟨by rw [hlexeme, Bytes.height_cons, hturn, Bytes.height_nil, Int.add_zero], ?_⟩
  rw [hlexeme]
  intro tail htail
  rcases List.suffix_cons_iff.mp htail with rfl | hnil
  · exact .inl rfl
  · rw [List.suffix_nil.mp hnil]
    exact .inr le_rfl

theorem height_flatMap {toks : List Token} (h : ∀ t ∈ toks, t.Weighs) :
    height (toks.flatMap Token.lexeme) = Parse.depth toks := by
  induction toks with
  | nil => rfl
  | cons t toks ih =>
      obtain ⟨ht, htoks⟩ := List.forall_mem_cons.mp h
      rw [List.flatMap_cons, Bytes.height_append, Parse.depth_cons, ht.height, ih htoks]

theorem closesAll_flatMap {toks : List Token} (h : ∀ t ∈ toks, t.Weighs)
    (hcloses : ClosesAll Parse.depth toks) :
    ClosesAll height (toks.flatMap Token.lexeme) := by
  rw [closesAll_iff]
  induction toks with
  | nil =>
      intro tail htail
      rw [List.suffix_nil.mp htail]
      exact le_rfl
  | cons t toks ih =>
      obtain ⟨ht, htoks⟩ := List.forall_mem_cons.mp h
      obtain ⟨hdepth, hmore⟩ := closesAll_cons.mp hcloses
      intro tail htail
      rw [List.flatMap_cons] at htail
      rcases suffix_append_cases htail with htail | ⟨front, hfront, rfl⟩
      · exact ih htoks hmore tail htail
      · have hrest := ih htoks hmore _ List.suffix_rfl
        rw [Bytes.height_append]
        rcases ht.tail front hfront with rfl | hfront
        · rw [ht.height, height_flatMap htoks]
          exact hdepth
        · omega

theorem balanced_flatMap {toks : List Token} (h : ∀ t ∈ toks, t.Weighs)
    (hbalanced : Balanced Parse.depth toks) : Balanced height (toks.flatMap Token.lexeme) :=
  ⟨closesAll_flatMap h hbalanced.closes, (height_flatMap h).trans hbalanced.height⟩

end Token

namespace Scan

open Bytes (height)

theorem Lexeme.weighs {kind : TokenKind} {lexeme rest : Bytes} (h : Lexeme kind lexeme rest)
    (hstring : kind = .string → Balanced height lexeme) (column : Nat) :
    (tokenAt column kind lexeme).Weighs := by
  cases h.sign with
  | openParen | closeParen | comma | closeBrace => exact Token.weighs_of_singleton rfl rfl
  | quoted | unclosed =>
      exact Token.weighs_of_balanced (hstring rfl) (by rintro ⟨⟩) (by rintro ⟨⟩)
  | other hkind hbytes =>
      refine Token.weighs_of_balanced (Bytes.balanced_of_not_mark hbytes) ?_ ?_
      · exact fun hopen => hkind (by rw [show kind = .openParen from hopen]; decide)
      · exact fun hclose => hkind (by rw [show kind = .closeParen from hclose]; decide)

theorem Takes.weighs {inner rest : Bytes} {words : List (TokenKind × Bytes)}
    (h : Takes inner words rest) {column : Nat}
    (hstrings : ∀ t ∈ placed column words, t.kind = .string → Balanced height t.lexeme) :
    ∀ t ∈ placed column words, t.Weighs := by
  induction h generalizing column with
  | nil => nofun
  | cons hlexeme _ _ ih =>
      obtain ⟨hfirst, hmore⟩ := List.forall_mem_cons.mp hstrings
      exact List.forall_mem_cons.mpr ⟨hlexeme.weighs hfirst column, ih hmore⟩

end Scan

/-! ## Commas -/

namespace OpenCall.Count

theorem foldl_quoted {mark : UInt8} {value : Bytes} (h : mark ∉ value) (d : Int) (k : Nat) :
    value.foldl step ⟨some mark, d, k⟩ = ⟨some mark, d, k⟩ := by
  induction value with
  | nil => rfl
  | cons b value ih =>
      rw [List.mem_cons, not_or] at h
      have hstep : step ⟨some mark, d, k⟩ b = ⟨some mark, d, k⟩ := if_neg (Ne.symm h.1)
      rw [List.foldl_cons, hstep, ih h.2]

theorem step_mark {mark : UInt8} (h : mark = '"'.toUInt8 ∨ mark = '\''.toUInt8) (d : Int)
    (k : Nat) : step ⟨none, d, k⟩ mark = ⟨some mark, d, k⟩ := by
  rcases h with rfl | rfl <;> rfl

theorem step_comma (d : Int) (k : Nat) :
    step ⟨none, d, k⟩ ','.toUInt8 = ⟨none, d, k + if d = 0 then 1 else 0⟩ := by
  unfold step
  rw [if_neg (by decide), if_neg (by decide), if_neg (by decide)]
  by_cases hd : d = 0
  · rw [if_pos (by simp [hd]), if_pos hd]
  · rw [if_neg (by simp [hd]), if_neg hd, Nat.add_zero]

theorem foldl_of_not_mark {text : Bytes} (h : ∀ b ∈ text, b ∉ marks) (d : Int) (k : Nat) :
    text.foldl step ⟨none, d, k⟩ = ⟨none, d, k⟩ := by
  induction text with
  | nil => rfl
  | cons b text ih =>
      obtain ⟨hb, htext⟩ := List.forall_mem_cons.mp h
      simp only [marks, List.map_cons, List.map_nil, List.mem_cons, List.not_mem_nil, or_false,
        not_or] at hb
      have hstep : step ⟨none, d, k⟩ b = ⟨none, d, k⟩ := by simp [step, hb]
      rw [List.foldl_cons, hstep, ih htext]

/-- A lexeme that is no open string counts as its token does. -/
theorem foldl_lexeme {kind : TokenKind} {lexeme rest : Bytes} (h : Lexeme kind lexeme rest)
    (hclosed : kind = .string → ¬IsOpenString lexeme) (column : Nat) (d : Int) (k : Nat) :
    lexeme.foldl step ⟨none, d, k⟩ = ⟨none, d + Parse.turn (tokenAt column kind lexeme),
      k + if kind = .comma ∧ d = 0 then 1 else 0⟩ := by
  cases h.sign with
  | openParen => rfl
  | closeParen => rfl
  | comma => simp [step_comma, Parse.turn, tokenAt]
  | closeBrace =>
      rw [show Parse.turn (tokenAt column .closeBrace ['}'.toUInt8]) = 0 from rfl, Int.add_zero]
      rfl
  | quoted hmark hvalue =>
      rw [List.cons_append, List.foldl_cons, step_mark hmark, List.foldl_append,
        foldl_quoted hvalue]
      simp [step, Parse.turn, tokenAt]
  | unclosed hmark hvalue => exact absurd ⟨_, _, hmark, hvalue, rfl⟩ (hclosed rfl)
  | other hkind hbytes =>
      simp only [List.mem_cons, List.not_mem_nil, or_false, not_or] at hkind
      rw [foldl_of_not_mark hbytes]
      simp [Parse.turn, tokenAt, hkind]

end OpenCall.Count

namespace Scan

open OpenCall

/-- The commas counted in a text are those of its tokens, a string without an end at its end
included. -/
theorem Takes.commas {inner : Bytes} {words : List (TokenKind × Bytes)} (h : Takes inner words [])
    (column : Nat) (d : Int) (k : Nat) :
    (inner.foldl Count.step ⟨none, d, k⟩).commas =
      k + Parse.outerCommas d (placed column words) := by
  generalize hrest : ([] : Bytes) = rest at h
  induction h generalizing column d k with
  | nil => rfl
  | @cons kind lexeme inner rest more hlexeme hkind hmore ih =>
      subst hrest
      by_cases hopen : kind = .string ∧ IsOpenString lexeme
      · obtain ⟨rfl, hopen⟩ := hopen
        have hinner : inner ++ [] = [] := by
          by_contra hne
          exact hlexeme.not_isOpenString hne rfl hopen
        obtain rfl := List.append_eq_nil_iff.mp hinner |>.1
        obtain rfl := hmore.eq_nil
        obtain ⟨mark, value, hmark, hvalue, rfl⟩ := hopen
        rw [List.append_nil, List.foldl_cons, Count.step_mark hmark, Count.foldl_quoted hvalue]
        rfl
      · have hclosed : kind = .string → ¬IsOpenString lexeme := fun hk ho => hopen ⟨hk, ho⟩
        rw [List.foldl_append, Count.foldl_lexeme hlexeme hclosed column,
          ih (column + lexeme.length) _ _ rfl, placed, Parse.outerCommas, Nat.add_assoc]
        rfl

end Scan

end Backtick
