import Mathlib
import Backtick.Proofs.Positions

/-!
# What the scans for delimiters find

The scan for a closing parenthesis stops at the one position that closes the depth it began
with, and the scan for commas counts those with a depth of zero before them. Between the
parentheses of a call no part takes the depth below zero, so that a depth of zero means that
the tokens up to there are well nested, and so are the arguments between the commas.
-/

namespace Backtick.Parse

/-! ## Well nested tokens -/

/-- No part at the start closes more parentheses than it opens, and all of them together close
what they open. -/
structure WellNested (toks : List Token) : Prop where
  opens : ∀ front, front <+: toks → 0 ≤ depth front
  level : depth toks = 0

/-- A part at the start that leaves the depth at zero is well nested. -/
theorem WellNested.front {part toks : List Token} (h : WellNested toks) (hpart : part <+: toks)
    (hlevel : depth part = 0) : WellNested part :=
  ⟨fun front hfront => h.opens front (hfront.trans hpart), hlevel⟩

/-- So is a part that stands behind such a part and leaves the depth as it is. -/
theorem WellNested.inside {before part toks : List Token} (h : WellNested toks)
    (hsplit : before ++ part <+: toks) (hbefore : depth before = 0) (hlevel : depth part = 0) :
    WellNested part := by
  refine ⟨fun front hfront => ?_, hlevel⟩
  have hopens := h.opens (before ++ front)
    (((List.prefix_append_right_inj before).mpr hfront).trans hsplit)
  rwa [depth_append, hbefore, Int.zero_add] at hopens

/-- Tokens over which a depth comes down to zero, and not below. -/
structure Falls (d : Int) (toks : List Token) : Prop where
  opens : ∀ front, front <+: toks → 0 ≤ d + depth front
  level : d + depth toks = 0

theorem falls_zero_iff {toks : List Token} : Falls 0 toks ↔ WellNested toks := by
  constructor
  · exact fun h => ⟨by simpa using h.opens, by simpa using h.level⟩
  · exact fun h => ⟨by simpa using h.opens, by simpa using h.level⟩

theorem falls_nil_iff {d : Int} : Falls d [] ↔ d = 0 := by
  constructor
  · exact fun h => by simpa using h.level
  · rintro rfl
    exact falls_zero_iff.mpr ⟨fun front hfront => by simp [List.prefix_nil.mp hfront], rfl⟩

theorem falls_cons_iff {d : Int} (hd : 0 ≤ d) {t : Token} {toks : List Token} :
    Falls d (t :: toks) ↔ Falls (d + turn t) toks := by
  constructor
  · intro h
    refine ⟨fun front hfront => ?_, ?_⟩
    · have hcons := h.opens (t :: front) ((List.prefix_cons_inj t).mpr hfront)
      rwa [depth_cons, ← Int.add_assoc] at hcons
    · have hlevel := h.level
      rwa [depth_cons, ← Int.add_assoc] at hlevel
  · intro h
    refine ⟨fun front hfront => ?_, ?_⟩
    · obtain rfl | ⟨rest, rfl, hrest⟩ := List.prefix_cons_iff.mp hfront
      · rwa [depth_nil, Int.add_zero]
      · rw [depth_cons, ← Int.add_assoc]
        exact h.opens rest hrest
    · rw [depth_cons, ← Int.add_assoc]
      exact h.level

/-! ## The closing parenthesis -/

theorem behind_eq_some_iff {t close : Token} {inner after : List Token}
    {found : Option (List Token × Token × List Token)} :
    behind [t] found = some (inner, close, after) ↔
      ∃ rest, inner = t :: rest ∧ found = some (rest, close, after) := by
  cases found with
  | none => simp [behind]
  | some part =>
      obtain ⟨rest, close', after'⟩ := part
      simp [behind, eq_comm]

/-- A token that does not close the depth leaves one that is not below zero. -/
theorem add_turn_nonneg {d : Nat} {t : Token} (h : ¬(t.kind = .closeParen ∧ d = 0)) :
    0 ≤ (d : Int) + turn t := by
  by_cases hclose : t.kind = .closeParen
  · have hd : d ≠ 0 := fun hd => h ⟨hclose, hd⟩
    rw [turn_of_close hclose]
    omega
  · have hturn : 0 ≤ turn t := by
      rw [turn, if_neg hclose]
      split <;> decide
    omega

/-- The scan finds the parenthesis up to which the depth comes down to zero, and not below. -/
theorem closing?_eq_some_iff {d : Nat} {toks inner after : List Token} {close : Token} :
    closing? d toks = some (inner, close, after) ↔
      toks = inner ++ close :: after ∧ close.kind = .closeParen ∧ Falls d inner := by
  induction toks generalizing d inner with
  | nil => simp [closing?]
  | cons t rest ih =>
      rw [closing?_cons]
      by_cases hend : t.kind = .closeParen ∧ d = 0
      · obtain ⟨hclose, rfl⟩ := hend
        rw [if_pos ⟨hclose, rfl⟩]
        constructor
        · rintro ⟨⟩
          exact ⟨rfl, hclose, falls_nil_iff.mpr rfl⟩
        · rintro ⟨hsplit, -, hfalls⟩
          cases inner with
          | nil =>
              cases hsplit
              rfl
          | cons u inner =>
              -- inside, this token would take the depth below zero
              obtain ⟨rfl, -⟩ := List.cons_eq_cons.mp hsplit
              have hfirst := hfalls.opens [t] (by simp)
              simp [turn_of_close hclose] at hfirst
      · have hnext := add_turn_nonneg hend
        rw [if_neg hend, behind_eq_some_iff]
        constructor
        · rintro ⟨inner, rfl, hfound⟩
          obtain ⟨rfl, hclose, hfalls⟩ := ih.mp hfound
          rw [Int.toNat_of_nonneg hnext] at hfalls
          exact ⟨rfl, hclose, (falls_cons_iff (Int.natCast_nonneg d)).mpr hfalls⟩
        · rintro ⟨hsplit, hclose, hfalls⟩
          cases inner with
          | nil =>
              cases hsplit
              exact absurd ⟨hclose, by simpa using falls_nil_iff.mp hfalls⟩ hend
          | cons u inner =>
              obtain ⟨rfl, hrest⟩ := List.cons_eq_cons.mp hsplit
              rw [falls_cons_iff (Int.natCast_nonneg d), ← Int.toNat_of_nonneg hnext] at hfalls
              exact ⟨inner, rfl, ih.mpr ⟨hrest, hclose, hfalls⟩⟩

/-! ## The commas -/

theorem le_of_mem_marks {start i : Nat} {parts : List (List Token × Token)}
    (h : i ∈ Cursor.marks start parts) : start ≤ i := by
  induction parts generalizing start with
  | nil => cases h
  | cons part more ih =>
      obtain rfl | hmore := List.mem_cons.mp h
      · exact Nat.le_add_right _ _
      · have hle := ih hmore
        omega

theorem pairwise_marks (start : Nat) (parts : List (List Token × Token)) :
    (Cursor.marks start parts).Pairwise (· < ·) := by
  induction parts generalizing start with
  | nil => exact .nil
  | cons part more ih => exact .cons (fun i hi => le_of_mem_marks hi) (ih _)

/-- At a position of tokens that begin at `start` stands a comma, and before it a depth has come
to zero. -/
def CommaAt (d : Int) (start : Nat) (toks : List Token) (i : Nat) : Prop :=
  ∃ before comma after, toks = before ++ comma :: after ∧ i = start + before.length ∧
    comma.kind = .comma ∧ d + depth before = 0

theorem commaAt_cons_iff {d : Int} {start i : Nat} {t : Token} {rest : List Token} :
    CommaAt d start (t :: rest) i ↔
      (i = start ∧ t.kind = .comma ∧ d = 0) ∨ CommaAt (d + turn t) (start + 1) rest i := by
  constructor
  · rintro ⟨before, comma, after, hsplit, rfl, hcomma, hdepth⟩
    cases before with
    | nil =>
        cases hsplit
        exact .inl ⟨rfl, hcomma, by simpa using hdepth⟩
    | cons u before =>
        obtain ⟨rfl, hrest⟩ := List.cons_eq_cons.mp hsplit
        rw [depth_cons, ← Int.add_assoc] at hdepth
        exact .inr ⟨before, comma, after, hrest, by rw [List.length_cons]; omega, hcomma, hdepth⟩
  · rintro (⟨rfl, hcomma, rfl⟩ | ⟨before, comma, after, rfl, rfl, hcomma, hdepth⟩)
    · exact ⟨[], t, rest, rfl, rfl, hcomma, rfl⟩
    · refine ⟨t :: before, comma, after, rfl, by rw [List.length_cons]; omega, hcomma, ?_⟩
      rwa [depth_cons, ← Int.add_assoc]

/-- The scan counts the commas before which the depth is zero. -/
theorem mem_marks_atCommas_iff {d : Int} {start i : Nat} {toks : List Token} :
    i ∈ Cursor.marks start (atCommas d toks).1 ↔ CommaAt d start toks i := by
  induction toks generalizing d start with
  | nil => simp [atCommas, Cursor.marks, CommaAt]
  | cons t rest ih =>
      rw [commaAt_cons_iff, ← ih, atCommas_cons]
      by_cases hhere : t.kind = .comma ∧ d = 0
      · have hturn : turn t = 0 := turn_of_other (by simp [hhere.1]) (by simp [hhere.1])
        rw [if_pos hhere, hturn, Int.add_zero]
        simp [Cursor.marks, hhere]
      · rw [if_neg hhere, Cursor.marks_behind]
        simp [hhere]

/-! ## Positions -/

/-- The tokens from one position up to another. -/
def tokensIn (toks : List Token) (start stop : Nat) : List Token :=
  (toks.drop start).take (stop - start)

def kindAt? (toks : List Token) (i : Nat) : Option TokenKind :=
  toks[i]?.map Token.kind

/-- The position of the parenthesis that closes the one at a position, found before a limit. -/
def closingAt? (toks : List Token) (opening limit : Nat) : Option Nat :=
  (closing? 0 (tokensIn toks (opening + 1) limit)).map fun part => opening + 1 + part.1.length

/-- The positions of the commas that are found from one position up to another. -/
def commasAt (toks : List Token) (start stop : Nat) : List Nat :=
  Cursor.marks start (atCommas 0 (tokensIn toks start stop)).1

/-- At a position stands the parenthesis that closes the one at another: what is between them is
well nested. -/
structure ClosesAt (toks : List Token) (opening j : Nat) : Prop where
  behind : opening < j
  paren : kindAt? toks j = some .closeParen
  nested : WellNested (tokensIn toks (opening + 1) j)

section Ranges

variable {toks : List Token} {start mid stop : Nat}

theorem tokensIn_append (hstart : start ≤ mid) (hstop : mid ≤ stop) :
    tokensIn toks start mid ++ tokensIn toks mid stop = tokensIn toks start stop := by
  have hlength : stop - start = (mid - start) + (stop - mid) := by omega
  rw [tokensIn, tokensIn, tokensIn, hlength, List.take_add, List.drop_drop,
    Nat.add_sub_cancel' hstart]

theorem tokensIn_isPrefix (hstart : start ≤ mid) (hstop : mid ≤ stop) :
    tokensIn toks start mid <+: tokensIn toks start stop :=
  ⟨_, tokensIn_append hstart hstop⟩

theorem tokensIn_self : tokensIn toks start start = [] := by
  rw [tokensIn, Nat.sub_self, List.take_zero]

theorem tokensIn_succ {t : Token} (h : toks[mid]? = some t) :
    tokensIn toks mid (mid + 1) = [t] := by
  rw [tokensIn, Nat.add_sub_cancel_left, List.take_one, List.head?_drop, h]
  rfl

theorem length_tokensIn (hstop : stop ≤ toks.length) :
    (tokensIn toks start stop).length = stop - start := by
  rw [tokensIn, List.length_take, List.length_drop]
  omega

/-- A range is parted by the token at a position inside it. -/
theorem tokensIn_eq_append {t : Token} (hstart : start ≤ mid) (hstop : mid < stop)
    (h : toks[mid]? = some t) :
    tokensIn toks start stop = tokensIn toks start mid ++ t :: tokensIn toks (mid + 1) stop ∧
      mid = start + (tokensIn toks start mid).length := by
  have hmid : mid < toks.length := (List.getElem?_eq_some_iff.mp h).1
  refine ⟨?_, by rw [length_tokensIn hmid.le]; omega⟩
  rw [← tokensIn_append hstart hstop.le, ← tokensIn_append (Nat.le_succ mid) hstop,
    tokensIn_succ h, List.singleton_append]

/-- A token that parts a range stands at a position inside it. -/
theorem of_tokensIn_eq_append {before after : List Token} {t : Token}
    (h : tokensIn toks start stop = before ++ t :: after) :
    start + before.length < stop ∧ toks[start + before.length]? = some t ∧
      before = tokensIn toks start (start + before.length) := by
  have hinside : before.length < stop - start := by
    have hlength := congrArg List.length h
    rw [tokensIn, List.length_take, List.length_append, List.length_cons] at hlength
    omega
  have hget := congrArg (·[before.length]?) h
  have htake := congrArg (·.take before.length) h
  simp only [tokensIn, List.getElem?_take_of_lt hinside, List.getElem?_drop,
    List.getElem?_append_right le_rfl, Nat.sub_self, List.getElem?_cons_zero] at hget
  simp only [tokensIn, List.take_take, Nat.min_eq_left hinside.le, List.take_left] at htake
  refine ⟨by omega, hget, ?_⟩
  rw [tokensIn, Nat.add_sub_cancel_left, htake]

end Ranges

theorem kindAt?_eq_some_iff {toks : List Token} {i : Nat} {kind : TokenKind} :
    kindAt? toks i = some kind ↔ ∃ t, toks[i]? = some t ∧ t.kind = kind :=
  Option.map_eq_some_iff

/-- There is no second position that closes a parenthesis. -/
theorem ClosesAt.le {toks : List Token} {opening i j : Nat} (hi : ClosesAt toks opening i)
    (hj : ClosesAt toks opening j) : j ≤ i := by
  by_contra hlt
  obtain ⟨t, ht, hclose⟩ := kindAt?_eq_some_iff.mp hi.paren
  have hbehind := hi.behind
  obtain ⟨hsplit, -⟩ :=
    @tokensIn_eq_append toks (opening + 1) i j t hbehind (Nat.lt_of_not_le hlt) ht
  -- otherwise the first one would be inside the second one, where it takes the depth below zero
  have hopens := hj.nested.opens (tokensIn toks (opening + 1) i ++ [t]) (by rw [hsplit]; simp)
  rw [depth_append, hi.nested.level, depth_cons, turn_of_close hclose, depth_nil] at hopens
  omega

theorem closingAt?_eq_some_iff {toks : List Token} {opening limit j : Nat} :
    closingAt? toks opening limit = some j ↔ j < limit ∧ ClosesAt toks opening j := by
  rw [closingAt?, Option.map_eq_some_iff]
  constructor
  · rintro ⟨⟨inner, close, after⟩, hfound, rfl⟩
    obtain ⟨hsplit, hclose, hfalls⟩ := closing?_eq_some_iff.mp hfound
    obtain ⟨hlimit, hget, hinner⟩ := of_tokensIn_eq_append hsplit
    refine ⟨hlimit, by omega, kindAt?_eq_some_iff.mpr ⟨close, hget, hclose⟩, ?_⟩
    rw [← hinner]
    exact falls_zero_iff.mp hfalls
  · rintro ⟨hlimit, hbehind, hparen, hnested⟩
    obtain ⟨close, hget, hclose⟩ := kindAt?_eq_some_iff.mp hparen
    obtain ⟨hsplit, hlength⟩ :=
      @tokensIn_eq_append toks (opening + 1) j limit close hbehind hlimit hget
    exact ⟨_, closing?_eq_some_iff.mpr ⟨hsplit, hclose, falls_zero_iff.mpr hnested⟩, hlength.symm⟩

/-- The commas that are found have a depth of zero before them. -/
theorem mem_commasAt_iff {toks : List Token} {start stop i : Nat} :
    i ∈ commasAt toks start stop ↔ start ≤ i ∧ i < stop ∧ kindAt? toks i = some .comma ∧
      depth (tokensIn toks start i) = 0 := by
  rw [commasAt, mem_marks_atCommas_iff]
  constructor
  · rintro ⟨before, comma, after, hsplit, rfl, hcomma, hdepth⟩
    obtain ⟨hstop, hget, hbefore⟩ := of_tokensIn_eq_append hsplit
    refine ⟨Nat.le_add_right _ _, hstop, kindAt?_eq_some_iff.mpr ⟨comma, hget, hcomma⟩, ?_⟩
    rwa [← hbefore, ← Int.zero_add (depth before)]
  · rintro ⟨hstart, hstop, hkind, hdepth⟩
    obtain ⟨comma, hget, hcomma⟩ := kindAt?_eq_some_iff.mp hkind
    obtain ⟨hsplit, hlength⟩ := tokensIn_eq_append hstart hstop hget
    exact ⟨_, comma, _, hsplit, hlength, hcomma, by rwa [Int.zero_add]⟩

section Arguments

variable {toks : List Token} {opening j : Nat}

theorem depth_up_to_comma {i : Nat} (h : i ∈ commasAt toks (opening + 1) j) :
    depth (tokensIn toks (opening + 1) (i + 1)) = 0 := by
  obtain ⟨hstart, -, hkind, hdepth⟩ := mem_commasAt_iff.mp h
  obtain ⟨comma, hget, hcomma⟩ := kindAt?_eq_some_iff.mp hkind
  rw [← tokensIn_append hstart (Nat.le_succ i), tokensIn_succ hget, depth_append, hdepth,
    depth_cons, turn_of_other (by simp [hcomma]) (by simp [hcomma]), depth_nil]
  rfl

theorem pairwise_lt_boundaries (h : opening < j) :
    (opening :: commasAt toks (opening + 1) j ++ [j]).Pairwise (· < ·) := by
  have hinside : ∀ i ∈ commasAt toks (opening + 1) j, opening < i ∧ i < j := fun i hi =>
    ⟨(mem_commasAt_iff.mp hi).1, (mem_commasAt_iff.mp hi).2.1⟩
  rw [List.cons_append, List.pairwise_cons, List.pairwise_append]
  refine ⟨fun i hi => ?_, pairwise_marks _ _, List.pairwise_singleton _ _, fun i hi k hk => ?_⟩
  · obtain hi | hi := List.mem_append.mp hi
    · exact (hinside i hi).1
    · rwa [List.mem_singleton.mp hi]
  · rw [List.mem_singleton.mp hk]
    exact (hinside i hi).2

/-- Between two of the parentheses of a call and its commas the tokens are well nested. -/
theorem ClosesAt.pairwise_boundaries (h : ClosesAt toks opening j) :
    (opening :: commasAt toks (opening + 1) j ++ [j]).Pairwise fun a b =>
      a < b ∧ WellNested (tokensIn toks (a + 1) b) := by
  have hcases {i : Nat} (hi : i ∈ opening :: commasAt toks (opening + 1) j ++ [j]) :
      i = opening ∨ i ∈ commasAt toks (opening + 1) j ∨ i = j := by
    simpa only [List.cons_append, List.mem_cons, List.mem_append, List.not_mem_nil,
      or_false] using hi
  refine (pairwise_lt_boundaries h.behind).imp_of_mem fun {a b} ha hb hlt => ⟨hlt, ?_⟩
  -- the depth is zero behind the one and before the other
  have hbehind : opening ≤ a ∧ (a < j → depth (tokensIn toks (opening + 1) (a + 1)) = 0) := by
    obtain rfl | hcomma | rfl := hcases ha
    · exact ⟨le_rfl, fun _ => by rw [tokensIn_self, depth_nil]⟩
    · have hstart : opening < a := (mem_commasAt_iff.mp hcomma).1
      exact ⟨hstart.le, fun _ => depth_up_to_comma hcomma⟩
    · exact ⟨h.behind.le, fun hself => absurd hself (Nat.lt_irrefl _)⟩
  have hbefore : b ≤ j ∧ (opening < b → depth (tokensIn toks (opening + 1) b) = 0) := by
    obtain rfl | hcomma | rfl := hcases hb
    · exact ⟨h.behind.le, fun hself => absurd hself (Nat.lt_irrefl _)⟩
    · obtain ⟨-, hstop, -, hdepth⟩ := mem_commasAt_iff.mp hcomma
      exact ⟨hstop.le, fun _ => hdepth⟩
    · exact ⟨le_rfl, fun _ => h.nested.level⟩
  have hfirst := hbehind.2 (hlt.trans_le hbefore.1)
  have hsecond := hbefore.2 (hbehind.1.trans_lt hlt)
  rw [← tokensIn_append (Nat.succ_le_succ hbehind.1) hlt] at hsecond
  refine h.nested.inside ?_ hfirst ?_
  · rw [tokensIn_append (Nat.succ_le_succ hbehind.1) hlt]
    exact tokensIn_isPrefix (hbehind.1.trans_lt hlt) hbefore.1
  · rwa [depth_append, hfirst, Int.zero_add] at hsecond

end Arguments

/-! ## The scans over positions -/

section Cursors

variable {toks : List Token} {opening limit start stop : Nat} (template : Bytes)

theorem stretch_tokensIn (hstart : start ≤ stop) (hstop : stop ≤ toks.length) :
    Cursor.Stretch ⟨template, toks⟩ start stop (tokensIn toks start stop) := by
  refine ⟨?_, (toks.drop start).drop (stop - start), (List.take_append_drop _ _).symm⟩
  rw [tokensIn, List.length_take, List.length_drop]
  omega

/-- Up to the end of the list, the scan over positions finds what there is to find. -/
theorem matchParen_eq_closingAt? (hlimit : limit ≤ toks.length) :
    ∃ found, Cursor.matchParen ⟨template, toks⟩ 0 (opening + 1) limit = .ok found ∧
      found.map Fin.val = closingAt? toks opening limit := by
  by_cases hopen : opening + 1 ≤ limit
  · exact Cursor.matchParen_eq (stretch_tokensIn template hopen hlimit) 0
  · have hnone : tokensIn toks (opening + 1) limit = [] := by
      rw [tokensIn, Nat.sub_eq_zero_of_le (Nat.le_of_not_le hopen), List.take_zero]
    refine ⟨none, ?_, ?_⟩
    · rw [Cursor.matchParen, dif_neg (by omega)]
    · rw [closingAt?, hnone]
      rfl

theorem commas_eq_commasAt (hstart : start ≤ stop) (hstop : stop ≤ toks.length) :
    ∃ found, Cursor.commas ⟨template, toks⟩ 0 start stop = .ok found ∧
      found.map Fin.val = commasAt toks start stop :=
  Cursor.commas_eq (stretch_tokensIn template hstart hstop) 0

end Cursors

/--
The scan for a closing parenthesis finds the first position, before its limit, that closes the
parenthesis, and finds none exactly if there is none. For the parenthesis that it finds, the
scan for commas finds, in order, the commas before which the tokens of the call are well nested,
and what stands between them and the two parentheses is well nested, too. Up to any limit in the
list, this is what the scans over the positions of the list answer, without reading outside it.
-/
theorem scans_find_delimiters (toks : List Token) (opening limit : Nat) :
    (∀ template, limit ≤ toks.length →
      ∃ found, Cursor.matchParen ⟨template, toks⟩ 0 (opening + 1) limit = .ok found ∧
        found.map Fin.val = closingAt? toks opening limit ∧
        ∀ j ∈ found, ∃ commas,
          Cursor.commas ⟨template, toks⟩ 0 (opening + 1) j = .ok commas ∧
            commas.map Fin.val = commasAt toks (opening + 1) j) ∧
    (∀ j, closingAt? toks opening limit = some j ↔
      j < limit ∧ ClosesAt toks opening j ∧ ∀ i, ClosesAt toks opening i → j ≤ i) ∧
    (closingAt? toks opening limit = none ↔ ∀ j < limit, ¬ClosesAt toks opening j) ∧
    ∀ j, closingAt? toks opening limit = some j →
      (∀ i, i ∈ commasAt toks (opening + 1) j ↔ opening < i ∧ i < j ∧
        kindAt? toks i = some .comma ∧ WellNested (tokensIn toks (opening + 1) i)) ∧
      (opening :: commasAt toks (opening + 1) j ++ [j]).Pairwise fun a b =>
        a < b ∧ WellNested (tokensIn toks (a + 1) b) := by
  refine ⟨fun template hlimit => ?_, fun j => ?_, ?_, fun j hfound => ?_⟩
  · obtain ⟨found, hfound, heq⟩ := matchParen_eq_closingAt? template hlimit
    refine ⟨found, hfound, heq, ?_⟩
    rintro j rfl
    have hcloses := (closingAt?_eq_some_iff.mp heq.symm).2
    exact commas_eq_commasAt template hcloses.behind (j.isLt.le.trans hlimit)
  · rw [closingAt?_eq_some_iff]
    exact and_congr_right fun _ => ⟨fun h => ⟨h, fun i hi => hi.le h⟩, And.left⟩
  · rw [Option.eq_none_iff_forall_ne_some]
    exact forall_congr' fun j => by rw [ne_eq, closingAt?_eq_some_iff, not_and]
  · have hcloses := (closingAt?_eq_some_iff.mp hfound).2
    refine ⟨fun i => ?_, hcloses.pairwise_boundaries⟩
    rw [mem_commasAt_iff]
    constructor
    · rintro ⟨hstart, hstop, hkind, hdepth⟩
      have hfront := @tokensIn_isPrefix toks (opening + 1) i j hstart hstop.le
      exact ⟨hstart, hstop, hkind, hcloses.nested.front hfront hdepth⟩
    · rintro ⟨hstart, hstop, hkind, hnested⟩
      exact ⟨hstart, hstop, hkind, hnested.level⟩

/-- The tokens of a call with a call in its first argument, and one more parenthesis. -/
def nestedCall : List Token :=
  [TokenKind.ifWord, .openParen, .getWord, .openParen, .comma, .closeParen, .comma, .number,
    .closeParen, .closeParen].map fun kind => ⟨[], kind, 0, 0⟩

/-- The comma of the inner call is none of the outer one, and the last parenthesis is left. -/
theorem scans_find_delimiters_sample :
    (∃ j commas, Cursor.matchParen ⟨[], nestedCall⟩ 0 2 10 = .ok (some j) ∧
      Cursor.commas ⟨[], nestedCall⟩ 0 2 j = .ok commas ∧ commas.map Fin.val = [6]) ∧
    closingAt? nestedCall 1 10 = some 8 ∧ ClosesAt nestedCall 1 8 ∧
      6 ∈ commasAt nestedCall 2 8 ∧ 4 ∉ commasAt nestedCall 2 8 ∧
        WellNested (tokensIn nestedCall 2 6) ∧ WellNested (tokensIn nestedCall 7 8) := by
  obtain ⟨hcursor, hclosing, -, hcommas⟩ := scans_find_delimiters nestedCall 1 10
  have hfound : closingAt? nestedCall 1 10 = some 8 := by decide
  obtain ⟨hmem, hbetween⟩ := hcommas 8 hfound
  have hcomma : 6 ∈ commasAt nestedCall 2 8 := by decide
  have hboundaries : 1 :: commasAt nestedCall 2 8 ++ [8] = [1, 6, 8] := by decide
  rw [hboundaries] at hbetween
  obtain ⟨found, hmatch, heq, hscan⟩ := hcursor [] (by decide)
  rw [hfound] at heq
  obtain ⟨j, rfl, hj⟩ := Option.map_eq_some_iff.mp heq
  obtain ⟨commas, hscan, hpositions⟩ := hscan j rfl
  have hone : commasAt nestedCall 2 j = [6] := by
    rw [hj]
    decide
  refine ⟨⟨j, commas, hmatch, hscan, hpositions.trans hone⟩, hfound,
    ((hclosing 8).mp hfound).2.1, hcomma, by decide, ((hmem 6).mp hcomma).2.2.2, ?_⟩
  exact (List.pairwise_pair.mp (List.pairwise_cons.mp hbetween).2).2

end Backtick.Parse
