import Mathlib
import Backtick.Proofs.CursorBounds

/-!
# Walks through the history

The keys that recall earlier lines walk through a list of entries, the newest first: all
of them, or those of the present mode. A walk stays at the oldest entry, and behind the
newest one it shows an empty line.
-/

namespace Backtick

/-! ## What a field makes of a line -/

namespace Field

/-- The characters that a field takes over from a text. -/
def taken (text : Bytes) : List Char :=
  (clean (Utf8.chars text)).take limit

def stored (text : Bytes) : Bytes :=
  Utf8.ofChars (taken text)

theorem length_taken_le (text : Bytes) : (taken text).length ≤ text.length :=
  (List.length_take_le' _ _).trans ((length_clean_chars_le text).trans (Utf8.count_le_length text))

theorem Clean.taken_text {f : Field} (h : f.Clean) : taken f.text = f.value := by
  rw [taken, text, Utf8.chars_ofChars, clean_of_isHeld h.held, List.take_of_length_le h.short]

/-- A field stores its own text as it is. -/
theorem Clean.stored_text {f : Field} (h : f.Clean) : stored f.text = f.text :=
  congrArg Utf8.ofChars h.taken_text

theorem taken_text_of_stored {f : Field} (h : stored f.text = f.text) : taken f.text = f.value := by
  have hchars := congrArg Utf8.chars h
  rwa [stored, Utf8.chars_ofChars, text, Utf8.chars_ofChars] at hchars

end Field

namespace Draft

def placed (d : Draft) : Draft :=
  ⟨Field.stored d.text, min d.cursor (Field.taken d.text).length⟩

/-- A line as a field stores it, with the cursor at its end. -/
def ofLine (line : Bytes) : Draft :=
  ⟨Field.stored line, (Field.taken line).length⟩

theorem placed_line (line : Bytes) : placed ⟨line, line.length⟩ = ofLine line :=
  congrArg (Draft.mk _) (Nat.min_eq_right (Field.length_taken_le line))

theorem placed_empty : placed .empty = .empty := by
  have htaken : Field.taken Draft.empty.text = [] := by
    rw [Draft.empty, Field.taken, Utf8.chars, Utf8.pieces_nil]
    rfl
  rw [placed, Field.stored, htaken]
  rfl

end Draft

namespace Session

variable (s : Session)

theorem draft_setInput (d : Draft) : (s.setInput d).draft = d.placed := by
  have hfield : (s.setInput d).field = (s.field.setText d.text).moveTo d.cursor := rfl
  rw [draft, input, hfield, Field.text, Field.value_moveTo, Field.cursor_moveTo,
    Field.value_setText]
  rfl

/-- A text that the field stores, put back with its cursor, is the same input. -/
theorem placed_draft {s : Session} (hcursor : s.field.CursorIn)
    (hstored : Field.stored s.input = s.input) : s.draft.placed = s.draft := by
  have htaken : Field.taken s.draft.text = s.field.value := Field.taken_text_of_stored hstored
  rw [Draft.placed, htaken]
  exact congrArg₂ Draft.mk hstored (Nat.min_eq_left hcursor)

/-! ## What else a change of the input changes -/

@[simp] theorem mode_setInput (d : Draft) : (s.setInput d).mode = s.mode := rfl

@[simp] theorem history_setInput (d : Draft) : (s.setInput d).history = s.history := rfl

@[simp] theorem historyAt_setInput (d : Draft) : (s.setInput d).historyAt = s.historyAt := rfl

@[simp] theorem aside_setInput (d : Draft) : (s.setInput d).aside = s.aside := rfl

@[simp] theorem mode_switchTo (mode : Mode) : (s.switchTo mode).mode = mode := rfl

@[simp] theorem history_switchTo (mode : Mode) : (s.switchTo mode).history = s.history := by
  cases hmode : s.mode <;> simp [switchTo, keep, hmode]

@[simp] theorem historyAt_switchTo (mode : Mode) :
    (s.switchTo mode).historyAt = s.historyAt := by
  cases hmode : s.mode <;> simp [switchTo, keep, hmode]

@[simp] theorem aside_switchTo (mode : Mode) : (s.switchTo mode).aside = s.aside := by
  cases hmode : s.mode <;> simp [switchTo, keep, hmode]

/-- Only the mode and the drafts differ after a switch to a mode, if it is another one. -/
theorem switch_spec (mode : Mode) {t : Session}
    (h : t = if mode = s.mode then s else s.switchTo mode) :
    t.mode = mode ∧ t.history = s.history ∧ t.historyAt = s.historyAt ∧ t.aside = s.aside := by
  subst h
  split
  · rename_i hmode
    exact ⟨hmode.symm, rfl, rfl, rfl⟩
  · simp

theorem draft_showEntry (i : Nat) (e : HistoryEntry) :
    (s.showEntry i e).draft = .ofLine e.line :=
  (draft_setInput _ _).trans (Draft.placed_line e.line)

theorem draft_leaveHistory (d : Draft) : (s.leaveHistory d).draft = d.placed :=
  draft_setInput _ d

end Session

/-! ## The nearest entry -/

def Direction.Ahead : Direction -> Nat -> Nat -> Prop
  | .older, i, j => j < i
  | .newer, i, j => i < j

namespace History

variable {h : History} {p : HistoryEntry -> Bool} {d : Direction} {i j : Nat} {e : HistoryEntry}

/-- The first entry with a property ahead of an index. -/
structure Nearest (h : History) (d : Direction) (p : HistoryEntry -> Bool) (i j : Nat)
    (e : HistoryEntry) : Prop where
  ahead : d.Ahead i j
  found : h.entries[j]? = some e
  wanted : p e = true
  between : ∀ k e, d.Ahead i k → d.Ahead k j → h.entries[k]? = some e → p e = false

def NoneAhead (h : History) (d : Direction) (p : HistoryEntry -> Bool) (i : Nat) : Prop :=
  ∀ k e, d.Ahead i k → h.entries[k]? = some e → p e = false

/-- Going back, an entry is passed unless it has the property. -/
theorem before?_succ (h : History) (p : HistoryEntry -> Bool) (i : Nat) :
    (∃ e, h.entries[i]? = some e ∧ p e = true ∧ h.before? p (i + 1) = some (i, e)) ∨
      (∀ e, h.entries[i]? = some e → p e = false) ∧ h.before? p (i + 1) = h.before? p i := by
  cases hentry : h.entries[i]? with
  | none => exact .inr ⟨by rintro e ⟨⟩, by rw [before?, hentry]⟩
  | some e =>
      cases hp : p e with
      | true => exact .inl ⟨e, rfl, hp, by simp [before?, hentry, hp]⟩
      | false =>
          refine .inr ⟨?_, by simp [before?, hentry, hp]⟩
          rintro e ⟨⟩
          exact hp

theorem nearest_of_before? (hfound : h.before? p i = some (j, e)) : h.Nearest .older p i j e := by
  induction i with
  | zero => cases hfound
  | succ i ih =>
      rcases h.before?_succ p i with ⟨e', hentry, hp, hbefore⟩ | ⟨hpassed, hbefore⟩
      · rw [hbefore] at hfound
        cases hfound
        exact ⟨Nat.lt_succ_self _, hentry, hp, fun k _ hk hjk =>
          absurd (Nat.lt_of_lt_of_le hjk (Nat.le_of_lt_succ hk)) (Nat.lt_irrefl _)⟩
      · obtain ⟨hahead, hentry, hp, hbetween⟩ := ih (hbefore ▸ hfound)
        refine ⟨Nat.lt_succ_of_lt hahead, hentry, hp, fun k e hk hjk he => ?_⟩
        rcases Nat.lt_succ_iff_lt_or_eq.mp hk with hk | rfl
        · exact hbetween k e hk hjk he
        · exact hpassed e he

theorem noneAhead_of_before? (hfound : h.before? p i = none) : h.NoneAhead .older p i := by
  induction i with
  | zero => exact fun k e hk => absurd hk (Nat.not_lt_zero k)
  | succ i ih =>
      rcases h.before?_succ p i with ⟨e', -, -, hbefore⟩ | ⟨hpassed, hbefore⟩
      · rw [hbefore] at hfound
        cases hfound
      · intro k e hk he
        rcases Nat.lt_succ_iff_lt_or_eq.mp hk with hk | rfl
        · exact ih (hbefore ▸ hfound) k e hk he
        · exact hpassed e he

/-- An entry behind an index, among the entries there with their indices. -/
theorem getElem?_behind_iff (h : History) (i k : Nat) (e : HistoryEntry) :
    (h.entries.zipIdx.drop (i + 1))[k]? = some (e, j) ↔
      h.entries[j]? = some e ∧ j = i + 1 + k := by
  rw [List.getElem?_drop, List.getElem?_zipIdx, Option.map_eq_some_iff, Nat.zero_add]
  constructor
  · rintro ⟨e', he', hpair⟩
    obtain ⟨rfl, rfl⟩ := Prod.mk.inj hpair
    exact ⟨he', rfl⟩
  · rintro ⟨he, rfl⟩
    exact ⟨e, he, rfl⟩

theorem nearest_of_after? (hfound : h.after? p i = some (j, e)) : h.Nearest .newer p i j e := by
  obtain ⟨passed, ⟨e', j'⟩, rest, hbehind, hentry, hpassed⟩ :=
    List.findSome?_eq_some_iff.mp hfound
  obtain ⟨hp, rfl, rfl⟩ : p e' = true ∧ j' = j ∧ e' = e := by simpa using hentry
  obtain ⟨hj, hindex⟩ := (h.getElem?_behind_iff i passed.length e').mp (by
    rw [hbehind, List.getElem?_append_right (Nat.le_refl _), Nat.sub_self, List.getElem?_cons_zero])
  refine ⟨by simp only [Direction.Ahead]; omega, hj, hp, fun k e hik hkj hk => ?_⟩
  simp only [Direction.Ahead] at hik hkj
  -- an entry in between stands among those that were passed
  have hmem : (e, k) ∈ passed := by
    have hat := (h.getElem?_behind_iff i (k - (i + 1)) e).mpr ⟨hk, by omega⟩
    rw [hbehind, List.getElem?_append_left (by omega)] at hat
    exact List.mem_of_getElem? hat
  simpa using hpassed (e, k) hmem

theorem noneAhead_of_after? (hfound : h.after? p i = none) : h.NoneAhead .newer p i := by
  intro k e hik hk
  simp only [Direction.Ahead] at hik
  have hat := (h.getElem?_behind_iff i (k - (i + 1)) e).mpr ⟨hk, by omega⟩
  simpa using List.findSome?_eq_none_iff.mp hfound (e, k) (List.mem_of_getElem? hat)

theorem nearest_of_next? (hnext : h.next? d p i = some (j, e)) : h.Nearest d p i j e := by
  cases d
  · exact nearest_of_before? hnext
  · exact nearest_of_after? hnext

theorem noneAhead_of_next? (hnext : h.next? d p i = none) : h.NoneAhead d p i := by
  cases d
  · exact noneAhead_of_before? hnext
  · exact noneAhead_of_after? hnext

/-! ## Entries by the number of newer ones -/

/-- The entries with a property and their indices, the newest first. -/
def listed (h : History) (p : HistoryEntry -> Bool) : List (HistoryEntry × Nat) :=
  (h.entries.zipIdx.filter fun x => p x.1).reverse

def countFrom (h : History) (p : HistoryEntry -> Bool) (i : Nat) : Nat :=
  (h.entries.drop i).countP p

theorem countFrom_of_wanted (hentry : h.entries[i]? = some e) (hp : p e = true) :
    h.countFrom p i = h.countFrom p (i + 1) + 1 := by
  obtain ⟨hi, rfl⟩ := List.getElem?_eq_some_iff.mp hentry
  rw [countFrom, countFrom, List.drop_eq_getElem_cons hi, List.countP_cons_of_pos hp]

theorem countFrom_of_passed (hpassed : ∀ e, h.entries[i]? = some e → p e = false) :
    h.countFrom p i = h.countFrom p (i + 1) := by
  rw [countFrom, countFrom]
  by_cases hi : i < h.entries.length
  · have hnot : ¬ p h.entries[i] = true := by
      rw [hpassed _ (List.getElem?_eq_getElem hi)]
      exact Bool.false_ne_true
    rw [List.drop_eq_getElem_cons hi, List.countP_cons_of_neg hnot]
  · rw [List.drop_of_length_le (by omega), List.drop_of_length_le (by omega)]

/-- Entries without the property count for nothing. -/
theorem countFrom_eq_of_passed (hij : i ≤ j)
    (hpassed : ∀ k, i ≤ k → k < j → ∀ e, h.entries[k]? = some e → p e = false) :
    h.countFrom p i = h.countFrom p j := by
  induction j, hij using Nat.le_induction with
  | base => rfl
  | succ j hij ih =>
      rw [ih fun k hik hkj => hpassed k hik (Nat.lt_succ_of_lt hkj),
        countFrom_of_passed (hpassed j hij (Nat.lt_succ_self j))]

theorem countFrom_of_le (hi : h.size ≤ i) : h.countFrom p i = 0 := by
  rw [countFrom, List.drop_of_length_le hi, List.countP_nil]

theorem length_filter_drop_zipIdx (h : History) (p : HistoryEntry -> Bool) (i : Nat) :
    ((h.entries.zipIdx.drop i).filter fun x => p x.1).length = h.countFrom p i := by
  have hentries : (h.entries.zipIdx.drop i).map Prod.fst = h.entries.drop i := by
    rw [List.map_drop, List.zipIdx_map_fst]
  rw [← List.countP_eq_length_filter, countFrom, ← hentries, List.countP_map]
  rfl

theorem length_listed (h : History) (p : HistoryEntry -> Bool) :
    (h.listed p).length = h.countFrom p 0 := by
  rw [listed, List.length_reverse, ← length_filter_drop_zipIdx, List.drop_zero]

theorem nodup_listed (h : History) (p : HistoryEntry -> Bool) : (h.listed p).Nodup :=
  List.nodup_reverse.mpr ((List.nodup_zipIdx_map_snd h.entries).of_map.filter _)

/-- An entry is listed behind those that are newer. -/
theorem getElem?_listed (hentry : h.entries[i]? = some e) (hp : p e = true) :
    (h.listed p)[h.countFrom p (i + 1)]? = some (e, i) := by
  obtain ⟨hi, rfl⟩ := List.getElem?_eq_some_iff.mp hentry
  have hsplit : h.entries.zipIdx =
      h.entries.zipIdx.take i ++ (h.entries[i], i) :: h.entries.zipIdx.drop (i + 1) := by
    conv_lhs => rw [← List.take_append_drop i h.entries.zipIdx]
    rw [List.drop_eq_getElem_cons (by rwa [List.length_zipIdx]), List.getElem_zipIdx, Nat.zero_add]
  rw [listed, hsplit, List.filter_append, List.filter_cons, if_pos hp, List.reverse_append,
    List.reverse_cons, List.append_assoc, List.singleton_append,
    ← length_filter_drop_zipIdx, List.getElem?_append_right, List.length_reverse, Nat.sub_self,
    List.getElem?_cons_zero]
  rw [List.length_reverse]

theorem getElem?_listed_iff (k : Nat) :
    (h.listed p)[k]? = some (e, i) ↔
      h.entries[i]? = some e ∧ p e = true ∧ h.countFrom p (i + 1) = k := by
  constructor
  · intro hk
    obtain ⟨hmem, hp⟩ := List.mem_filter.mp (List.mem_reverse.mp (List.mem_of_getElem? hk))
    have hentry : h.entries[i]? = some e := List.mem_zipIdx_iff_getElem?.mp hmem
    have hat := getElem?_listed hentry hp
    have hbound := (List.getElem?_eq_some_iff.mp hat).1
    exact ⟨hentry, hp, (List.getElem?_inj hbound (h.nodup_listed p)).mp (hat.trans hk.symm)⟩
  · rintro ⟨hentry, hp, rfl⟩
    exact getElem?_listed hentry hp

/-- The next older entry is listed behind all that stand from the index on. -/
theorem getElem?_listed_of_older (hnext : h.next? .older p i = some (j, e)) :
    (h.listed p)[h.countFrom p i]? = some (e, j) := by
  have hnear := nearest_of_next? hnext
  have hcount : h.countFrom p (j + 1) = h.countFrom p i :=
    countFrom_eq_of_passed hnear.ahead fun k hjk hki e => hnear.between k e hki hjk
  exact (getElem?_listed_iff _).mpr ⟨hnear.found, hnear.wanted, hcount⟩

theorem length_listed_of_older (hnext : h.next? .older p i = none) :
    (h.listed p).length = h.countFrom p i := by
  have hnone := noneAhead_of_next? hnext
  rw [length_listed]
  exact countFrom_eq_of_passed (Nat.zero_le i) fun k _ hki e => hnone k e hki

/-- The next newer entry is listed before the last of those that stand behind the index. -/
theorem getElem?_listed_of_newer (hnext : h.next? .newer p i = some (j, e)) :
    ∃ k, h.countFrom p (i + 1) = k + 1 ∧ (h.listed p)[k]? = some (e, j) := by
  have hnear := nearest_of_next? hnext
  have hcount : h.countFrom p (i + 1) = h.countFrom p j :=
    countFrom_eq_of_passed hnear.ahead fun k hik hkj e => hnear.between k e hik hkj
  exact ⟨h.countFrom p (j + 1), hcount.trans (countFrom_of_wanted hnear.found hnear.wanted),
    getElem?_listed hnear.found hnear.wanted⟩

theorem countFrom_of_newer (hnext : h.next? .newer p i = none) : h.countFrom p (i + 1) = 0 := by
  have hnone := noneAhead_of_next? hnext
  rw [countFrom_eq_of_passed (Nat.le_max_left (i + 1) h.size) fun k hik _ e => hnone k e hik,
    countFrom_of_le (Nat.le_max_right _ _)]

end History

/-! ## A walk through listed entries -/

/--
What a walk shows: what was there before it, an empty line, or an entry, which is given by
the number of newer ones.
-/
inductive Shown
  | before
  | nothing
  | entry (newer : Nat)
deriving DecidableEq, Repr

namespace Shown

def back : Shown -> Nat
  | .before | .nothing => 0
  | .entry newer => newer + 1

/-- One step through a number of entries: it stays at the oldest, and behind the newest. -/
def step (size : Nat) (shown : Shown) : Direction -> Shown
  | .older => if shown.back < size then .entry shown.back else shown
  | .newer =>
      match shown.back with
      | 0 => shown
      | 1 => .nothing
      | newer + 2 => .entry newer

def after (size : Nat) (ds : List Direction) : Shown :=
  ds.foldl (step size) .before

end Shown

namespace Session

/-- A session in which a walk through listed entries, begun in another, shows something. -/
inductive Shows (s : Session) (listed : List (HistoryEntry × Nat)) : Shown -> Session -> Prop
  | before : Shows s listed .before s
  /-- The mode is still that of the newest entry, from which the walk came. -/
  | nothing {t : Session} {newest : HistoryEntry} {i : Nat} (history : t.history = s.history)
      (place : t.historyAt = s.history.size) (passed : listed[0]? = some (newest, i))
      (mode : t.mode = newest.mode) (draft : t.draft = .empty) : Shows s listed .nothing t
  | entry {t : Session} {e : HistoryEntry} {newer : Nat} (history : t.history = s.history)
      (found : listed[newer]? = some (e, t.historyAt)) (mode : t.mode = e.mode)
      (draft : t.draft = .ofLine e.line) : Shows s listed (.entry newer) t

/-- The entries that a walk goes through: those of the mode, or all. -/
def wanted (s : Session) (sameMode : Bool) (e : HistoryEntry) : Bool :=
  !sameMode || e.mode = s.mode

variable {s t : Session} {sameMode : Bool} {d : Direction}

theorem walk_of_some {i : Nat} {e : HistoryEntry}
    (hnext : t.history.next? d (t.wanted sameMode) t.historyAt = some (i, e)) :
    (t.walk d sameMode).history = t.history ∧ (t.walk d sameMode).historyAt = i ∧
      (t.walk d sameMode).mode = e.mode ∧ (t.walk d sameMode).draft = .ofLine e.line := by
  have hwalk : t.walk d sameMode =
      (if e.mode = t.mode then t else t.switchTo e.mode).showEntry i e := by
    unfold wanted at hnext
    simp only [walk, hnext]
  obtain ⟨hmode, hhistory, -, -⟩ := t.switch_spec e.mode rfl
  rw [hwalk]
  exact ⟨hhistory, rfl, hmode, draft_showEntry _ i e⟩

theorem walk_of_none (hnext : t.history.next? d (t.wanted sameMode) t.historyAt = none) :
    t.walk d sameMode =
      if d = .newer ∧ t.historyAt < t.history.size then t.leaveHistory .empty else t := by
  unfold wanted at hnext
  simp only [walk, hnext, Bool.and_eq_true, decide_eq_true_eq]

/-- The mode is the one the walk began in, or that of a listed entry. -/
theorem Shows.mode_cases {p : HistoryEntry -> Bool} {shown : Shown}
    (h : s.Shows (s.history.listed p) shown t) :
    t.mode = s.mode ∨ ∃ e, p e = true ∧ t.mode = e.mode := by
  cases h with
  | before => exact .inl rfl
  | nothing _ _ passed mode =>
      exact .inr ⟨_, ((History.getElem?_listed_iff 0).mp passed).2.1, mode⟩
  | entry _ found mode => exact .inr ⟨_, ((History.getElem?_listed_iff _).mp found).2.1, mode⟩

theorem Shows.mode_eq {shown : Shown} (h : s.Shows (s.history.listed (s.wanted true)) shown t) :
    t.mode = s.mode := by
  rcases h.mode_cases with hmode | ⟨e, he, hmode⟩
  · exact hmode
  · exact hmode.trans (of_decide_eq_true he)

/-- While a walk goes on, it goes through the entries that it began with. -/
theorem Shows.wanted_eq {shown : Shown}
    (h : s.Shows (s.history.listed (s.wanted sameMode)) shown t) :
    t.wanted sameMode = s.wanted sameMode := by
  cases sameMode with
  | false => rfl
  | true =>
      funext e
      rw [wanted, wanted, h.mode_eq]

theorem Shows.history_eq {listed : List (HistoryEntry × Nat)} {shown : Shown}
    (h : s.Shows listed shown t) : t.history = s.history := by
  cases h with
  | before => rfl
  | nothing history | entry history => exact history

/-- A walk stands behind the newest entry, or at one with as many entries as it is back. -/
theorem Shows.place_cases {p : HistoryEntry -> Bool} {shown : Shown}
    (hstart : s.historyAt = s.history.size) (h : s.Shows (s.history.listed p) shown t) :
    (shown.back = 0 ∧ t.historyAt = s.history.size) ∨
      ∃ newer e, shown.back = newer + 1 ∧ t.mode = e.mode ∧
        (s.history.listed p)[newer]? = some (e, t.historyAt) := by
  cases h with
  | before => exact .inl ⟨rfl, hstart⟩
  | nothing _ place => exact .inl ⟨rfl, place⟩
  | entry _ found mode => exact .inr ⟨_, _, rfl, mode, found⟩

theorem Shows.countFrom_eq {p : HistoryEntry -> Bool} {shown : Shown}
    (hstart : s.historyAt = s.history.size) (h : s.Shows (s.history.listed p) shown t) :
    s.history.countFrom p t.historyAt = shown.back ∧
      s.history.countFrom p (t.historyAt + 1) = shown.back - 1 := by
  rcases h.place_cases hstart with ⟨hback, hplace⟩ | ⟨newer, e, hback, -, hfound⟩
  · rw [hplace, hback, History.countFrom_of_le (Nat.le_refl _),
      History.countFrom_of_le (Nat.le_succ _)]
    exact ⟨rfl, rfl⟩
  · obtain ⟨hentry, hp, hcount⟩ := (History.getElem?_listed_iff newer).mp hfound
    rw [History.countFrom_of_wanted hentry hp, hcount, hback]
    exact ⟨rfl, rfl⟩

/-- A step of a walk is a step through the listed entries. -/
theorem Shows.walk {shown : Shown} (hstart : s.historyAt = s.history.size)
    (h : s.Shows (s.history.listed (s.wanted sameMode)) shown t) (d : Direction) :
    s.Shows (s.history.listed (s.wanted sameMode))
      (shown.step (s.history.listed (s.wanted sameMode)).length d) (t.walk d sameMode) := by
  obtain ⟨hcount, hcount'⟩ := h.countFrom_eq hstart
  cases hnext : t.history.next? d (t.wanted sameMode) t.historyAt with
  | some found =>
      obtain ⟨i, e⟩ := found
      obtain ⟨hhistory, hplace, hmode, hdraft⟩ := walk_of_some hnext
      rw [h.wanted_eq, h.history_eq] at hnext
      rw [h.history_eq] at hhistory
      cases d with
      | older =>
          have hlisted := History.getElem?_listed_of_older hnext
          rw [hcount, ← hplace] at hlisted
          have hroom := (List.getElem?_eq_some_iff.mp hlisted).1
          rw [Shown.step, if_pos hroom]
          exact .entry hhistory hlisted hmode hdraft
      | newer =>
          obtain ⟨newer, hnewer, hlisted⟩ := History.getElem?_listed_of_newer hnext
          have hback : shown.back = newer + 2 := by omega
          rw [← hplace] at hlisted
          rw [Shown.step, hback]
          exact .entry hhistory hlisted hmode hdraft
  | none =>
      rw [walk_of_none hnext]
      rw [h.wanted_eq, h.history_eq] at hnext
      cases d with
      | older =>
          have hlength := History.length_listed_of_older hnext
          rw [if_neg (by rintro ⟨⟨⟩, -⟩), Shown.step, if_neg (by omega)]
          exact h
      | newer =>
          have hnone := History.countFrom_of_newer hnext
          rcases h.place_cases hstart with ⟨hback, hplace⟩ | ⟨newer, e, hback, hmode, hfound⟩
          · have hout : ¬ t.historyAt < t.history.size := by
              rw [hplace, h.history_eq]
              exact Nat.lt_irrefl _
            rw [if_neg fun hin => hout hin.2, Shown.step, hback]
            exact h
          · obtain rfl : newer = 0 := by omega
            have hin : t.historyAt < t.history.size := by
              have hentry := ((History.getElem?_listed_iff 0).mp hfound).1
              rw [h.history_eq]
              exact (List.getElem?_eq_some_iff.mp hentry).1
            rw [if_pos ⟨rfl, hin⟩, Shown.step, hback]
            exact .nothing h.history_eq (congrArg History.size h.history_eq) hfound hmode
              ((draft_leaveHistory _ _).trans Draft.placed_empty)

theorem Shows.foldl_walk (hstart : s.historyAt = s.history.size) (ds : List Direction) :
    s.Shows (s.history.listed (s.wanted sameMode))
      (.after (s.history.listed (s.wanted sameMode)).length ds)
      (ds.foldl (fun t d => t.walk d sameMode) s) := by
  induction ds using List.reverseRecOn with
  | nil => exact .before
  | append_singleton ds d ih =>
      rw [Shown.after, List.foldl_concat, List.foldl_concat]
      exact ih.walk hstart d

theorem Shows.historyAt_le {p : HistoryEntry -> Bool} {shown : Shown}
    (hstart : s.historyAt = s.history.size) (h : s.Shows (s.history.listed p) shown t) :
    t.historyAt ≤ t.history.size := by
  rw [h.history_eq]
  rcases h.place_cases hstart with ⟨-, hplace⟩ | ⟨newer, e, -, -, hfound⟩
  · exact hplace.le
  · have hentry := ((History.getElem?_listed_iff newer).mp hfound).1
    exact (List.getElem?_eq_some_iff.mp hentry).1.le

end Session

/-! ## The keys that walk -/

/-- The key that walks through all entries. -/
def KeyPress.plain : Direction -> KeyPress
  | .older => ⟨.up, false⟩
  | .newer => ⟨.down, false⟩

/-- The key that walks through the entries of the mode. -/
def KeyPress.shifted : Direction -> KeyPress
  | .older => ⟨.shiftUp, false⟩
  | .newer => ⟨.shiftDown, false⟩

/-- The key that walks through the commands. -/
def KeyPress.withAlt : Direction -> KeyPress
  | .older => ⟨.up, true⟩
  | .newer => ⟨.down, true⟩

namespace Session

def walked (s : Session) (key : Direction -> KeyPress) (ds : List Direction) : Session :=
  s.afterAll (ds.map fun d => .key (key d))

theorem walked_eq_foldl {key : Direction -> KeyPress} {f : Session -> Direction -> Session}
    (h : ∀ t d, (t.press (key d)).1 = f t d) (s : Session) (ds : List Direction) :
    s.walked key ds = ds.foldl f s := by
  rw [walked, afterAll, List.foldl_map]
  exact congrArg (fun g => ds.foldl g s) (funext₂ h)

theorem press_plain (t : Session) (d : Direction) :
    (t.press (.plain d)).1 = t.walk d false := by
  cases d <;> rfl

theorem press_shifted (t : Session) (d : Direction) :
    (t.press (.shifted d)).1 = t.walk d true := by
  cases d <;> rfl

theorem press_withAlt (t : Session) (d : Direction) :
    (t.press (.withAlt d)).1 = t.walkCommands d := by
  cases d <;> rfl

/--
From behind the newest entry, the keys with Shift walk through the entries of the mode, which
stays the same, and the plain keys through all entries, with the mode of the entry that is
shown. No key leaves the history.
-/
theorem keys_walk_listed (s : Session) (hstart : s.historyAt = s.history.size)
    (ds : List Direction) :
    (s.Shows (s.history.listed fun e => e.mode = s.mode)
        (.after (s.history.listed fun e => e.mode = s.mode).length ds) (s.walked .shifted ds) ∧
      (s.walked .shifted ds).mode = s.mode ∧
      (s.walked .shifted ds).historyAt ≤ (s.walked .shifted ds).history.size) ∧
    (s.Shows (s.history.listed fun _ => true)
        (.after (s.history.listed fun _ => true).length ds) (s.walked .plain ds) ∧
      (s.walked .plain ds).historyAt ≤ (s.walked .plain ds).history.size) := by
  rw [walked_eq_foldl press_shifted, walked_eq_foldl press_plain]
  have hown : s.Shows (s.history.listed (s.wanted true)) _ _ := Shows.foldl_walk hstart ds
  have hall : s.Shows (s.history.listed (s.wanted false)) _ _ := Shows.foldl_walk hstart ds
  exact ⟨⟨hown, hown.mode_eq, hown.historyAt_le hstart⟩, hall, hall.historyAt_le hstart⟩

/-- A session whose history has a command between two templates. -/
def recalling : Session :=
  new ⟨[], .error⟩ ⟨[⟨"a", .template⟩, ⟨"vars", .command⟩, ⟨"b", .template⟩], .nowhere⟩ .tree

/-- The walk stays at the oldest template; the command is passed, unless all entries count. -/
theorem keys_walk_listed_sample :
    recalling.historyAt = recalling.history.size ∧
      (recalling.walked .shifted [.older, .older, .older]).input = "a" ∧
      (recalling.walked .plain [.older, .older, .older, .newer]).mode = .command := by
  refine ⟨rfl, ?_, ?_⟩
  · have hown : recalling.Shows [(⟨"b", .template⟩, 2), (⟨"a", .template⟩, 0)] (.entry 1) _ :=
      (keys_walk_listed recalling rfl [.older, .older, .older]).1.1
    cases hown with
    | entry _ found _ draft =>
        obtain ⟨rfl, -⟩ := Prod.mk.inj (Option.some.inj found)
        exact (congrArg Draft.text draft).trans (by decide +kernel)
  · have hall : recalling.Shows
        [(⟨"b", .template⟩, 2), (⟨"vars", .command⟩, 1), (⟨"a", .template⟩, 0)] (.entry 1) _ :=
      (keys_walk_listed recalling rfl [.older, .older, .older, .newer]).2.1
    cases hall with
    | entry _ found mode _ =>
        obtain ⟨rfl, -⟩ := Prod.mk.inj (Option.some.inj found)
        exact mode

end Session

end Backtick
