import Mathlib
import Backtick.Proofs.Characters
import Backtick.Session.Completion
import Backtick.Session.Field

/-!
# What an input field holds

Whatever is typed into a field or put there, the field holds at most `Field.limit`
characters, and no control characters. A text of such characters is taken over as
it is, up to the limit. The word at a position begins and ends between characters
of the field.
-/

namespace Backtick

namespace Field

def isHeld (c : Char) : Bool :=
  !(isControl c || c.toNat = 0xFFFD)

theorem isHeld_of_mem_clean {c : Char} {cs : List Char} (h : c ∈ clean cs) : isHeld c = true := by
  obtain ⟨d, -, hd⟩ := List.mem_filterMap.mp h
  split at hd
  · cases hd
    decide
  · split at hd
    · cases hd
    · cases hd
      rw [isHeld, Bool.not_eq_true', Bool.eq_false_iff]
      assumption

theorem clean_of_isHeld {cs : List Char} (h : ∀ c ∈ cs, isHeld c = true) : clean cs = cs := by
  unfold clean
  rw [List.filterMap_congr (g := some), List.filterMap_some]
  intro c hc
  have hheld := h c hc
  rw [isHeld, Bool.not_eq_true'] at hheld
  split
  · -- a line break or a tab is a control character
    rename_i hspace
    simp only [Bool.or_eq_true, decide_eq_true_eq] at hspace
    rcases hspace with (rfl | rfl) | rfl <;> exact absurd hheld (by decide)
  · rw [hheld]
    rfl

theorem clean_append (cs ds : List Char) : clean (cs ++ ds) = clean cs ++ clean ds :=
  List.filterMap_append

theorem length_clean_chars_le (text : Bytes) :
    (clean (Utf8.chars text)).length ≤ Utf8.count text := by
  refine (List.length_filterMap_le _ _).trans ?_
  rw [Utf8.chars, List.length_map, Utf8.count]

/-- The characters of a field are held, and not more than the limit. -/
structure Clean (f : Field) : Prop where
  held : ∀ c ∈ f.value, isHeld c = true
  short : f.value.length ≤ limit

theorem clean_new (width : Int) : (new width).Clean :=
  ⟨fun _ hc => absurd hc List.not_mem_nil, Nat.zero_le _⟩

/-- Fewer characters are held as well. -/
theorem Clean.of_sublist {f g : Field} (h : f.Clean) (hsub : g.value.Sublist f.value) : g.Clean :=
  ⟨fun c hc => h.held c (hsub.subset hc), hsub.length_le.trans h.short⟩

/-! ## Moving and removing -/

@[simp] theorem value_scroll (f : Field) : f.scroll.value = f.value := by
  unfold scroll
  dsimp only
  split_ifs <;> rfl

@[simp] theorem value_moveTo (f : Field) (position : Nat) : (f.moveTo position).value = f.value :=
  value_scroll _

@[simp] theorem cursor_scroll (f : Field) : f.scroll.cursor = f.cursor := by
  unfold scroll
  dsimp only
  split_ifs <;> rfl

@[simp] theorem cursor_moveTo (f : Field) (position : Nat) :
    (f.moveTo position).cursor = min position f.value.length :=
  cursor_scroll _

theorem take_append_drop_sublist (cs : List Char) {start stop : Nat} (h : start ≤ stop) :
    (cs.take start ++ cs.drop stop).Sublist cs := by
  have hrest := (List.Sublist.refl (cs.take start)).append (List.drop_sublist_drop_left cs h)
  rwa [List.take_append_drop] at hrest

@[simp] theorem value_remove (f : Field) (start stop : Nat) :
    (f.remove start stop).value = f.value.take start ++ f.value.drop stop :=
  value_moveTo _ _

theorem downTo_le (p : Nat -> Bool) (n : Nat) : downTo p n ≤ n := by
  induction n with
  | zero => exact Nat.le_refl 0
  | succ n ih =>
      rw [downTo]
      split
      · exact Nat.le_refl _
      · exact ih.trans (Nat.le_succ n)

theorem length_dropWord_le (cs : List Char) : (dropWord cs).length ≤ cs.length :=
  ((List.dropWhile_sublist _).trans (List.dropWhile_sublist _)).length_le

theorem value_removeWordBack_sublist (f : Field) : f.removeWordBack.value.Sublist f.value := by
  unfold removeWordBack
  split
  · exact List.Sublist.refl _
  · rename_i near hcursor
    rw [value_scroll]
    apply take_append_drop_sublist
    rw [hcursor]
    split
    · exact Nat.zero_le _
    · exact Nat.succ_le_succ ((downTo_le _ _).trans (downTo_le _ _))

theorem value_removeWordAhead_sublist (f : Field) : f.removeWordAhead.value.Sublist f.value := by
  unfold removeWordAhead
  split
  · dsimp only
    rw [value_remove, value_moveTo]
    apply take_append_drop_sublist
    have hword := length_dropWord_le (f.value.drop (f.cursor + 1))
    rw [List.length_drop] at hword
    omega
  · exact List.Sublist.refl _

/-- An action that is bound to a key only moves the cursor or removes characters. -/
theorem value_act_sublist (f : Field) (action : Action) :
    (f.act action).value.Sublist f.value := by
  cases action with
  | left | right | wordLeft | wordRight | home | finish =>
      rw [act, value_moveTo]
  | removeBack =>
      rw [act]
      split
      · exact List.Sublist.refl _
      · rw [value_remove]
        exact take_append_drop_sublist _ (Nat.sub_le _ _)
  | removeAhead =>
      rw [act, value_scroll]
      exact take_append_drop_sublist _ (Nat.le_succ _)
  | removeWordBack => exact f.value_removeWordBack_sublist
  | removeWordAhead => exact f.value_removeWordAhead_sublist
  | removeRest =>
      rw [act, value_remove, List.drop_length, List.append_nil]
      exact List.take_sublist _ _
  | removeStart =>
      rw [act, value_remove]
      exact take_append_drop_sublist _ (Nat.zero_le _)
  | nothing => exact List.Sublist.refl _

/-! ## Inserting and replacing -/

theorem Clean.insert {f : Field} (h : f.Clean) (cs : List Char) : (f.insert cs).Clean := by
  have hvalue : (f.insert cs).value =
      f.value.take f.cursor ++ (clean cs).take (limit - f.value.length) ++
        f.value.drop f.cursor :=
    value_scroll _
  constructor
  · intro c hc
    rw [hvalue, List.mem_append, List.mem_append] at hc
    rcases hc with (hc | hc) | hc
    · exact h.held c (List.mem_of_mem_take hc)
    · exact isHeld_of_mem_clean (List.mem_of_mem_take hc)
    · exact h.held c (List.mem_of_mem_drop hc)
  · have hshort := h.short
    simp only [hvalue, List.length_append, List.length_take, List.length_drop]
    omega

theorem Clean.press {f : Field} (h : f.Clean) (name : Bytes) (cs : List Char) :
    (f.press name cs).Clean := by
  unfold Field.press
  split
  · refine h.of_sublist ?_
    rw [value_scroll]
    exact f.value_act_sublist _
  · refine (h.insert cs).of_sublist ?_
    rw [value_scroll]

/-- A text that is put into a field is cleaned, and cut at the limit. -/
@[simp] theorem value_setText (f : Field) (text : Bytes) :
    (f.setText text).value = (clean (Utf8.chars text)).take limit := by
  unfold setText setChars
  dsimp only
  split <;> simp only [value_scroll, value_moveTo]

theorem clean_setText (f : Field) (text : Bytes) : (f.setText text).Clean := by
  constructor
  · intro c hc
    rw [value_setText] at hc
    exact isHeld_of_mem_clean (List.mem_of_mem_take hc)
  · rw [value_setText]
    exact List.length_take_le _ _

theorem Clean.moveTo {f : Field} (h : f.Clean) (position : Nat) : (f.moveTo position).Clean :=
  h.of_sublist (by rw [value_moveTo])

/-! ## Texts that are kept -/

def isKept (text : Bytes) : Bool :=
  Utf8.ofChars (clean (Utf8.chars text)) = text

theorem exists_of_isKept {text : Bytes} (h : isKept text = true) :
    ∃ cs, text = Utf8.ofChars cs ∧ ∀ c ∈ cs, isHeld c = true :=
  ⟨_, (of_decide_eq_true h).symm, fun _ hc => isHeld_of_mem_clean hc⟩

/-- Characters are all there in a text cut behind a number of characters if that is large enough. -/
theorem length_ofChars_le_take_iff (cs ds : List Char) (n : Nat) :
    (Utf8.ofChars cs).length ≤ (Utf8.ofChars ((cs ++ ds).take n)).length ↔ cs.length ≤ n := by
  constructor
  · intro hle
    by_contra hcut
    have hcut := Nat.not_le.mp hcut
    obtain ⟨c, rest, hrest⟩ := List.exists_cons_of_ne_nil
      (List.ne_nil_of_length_pos (l := cs.drop n) (by rw [List.length_drop]; omega))
    have hparts : Utf8.ofChars cs = Utf8.ofChars (cs.take n) ++ Utf8.ofChars (cs.drop n) := by
      rw [← Utf8.ofChars_append, List.take_append_drop]
    have hchar := String.length_utf8EncodeChar c
    rw [List.take_append_of_le_length hcut.le, hparts, List.length_append, hrest, Utf8.ofChars,
      Utf8.ofChars, List.flatMap_cons, List.length_append] at hle
    have hpos := c.utf8Size_pos
    omega
  · intro hle
    rw [List.take_append, List.take_of_length_le hle, Utf8.ofChars_append, List.length_append]
    exact Nat.le_add_right _ _

/-! ## Words between characters -/

/-- An offset of the text of a field that lies between two characters, or at an end. -/
def SplitsAt (f : Field) (offset : Nat) : Prop :=
  ∃ before after, f.value = before ++ after ∧ (Utf8.ofChars before).length = offset

end Field

namespace Word

theorem run_le (text : Bytes) : run text ≤ text.length :=
  (List.takeWhile_sublist _).length_le

/-- The word at a position lies in the text. -/
theorem around_bounds (text : Bytes) (cursor : Nat) :
    (around text cursor).start ≤ (around text cursor).stop ∧
      (around text cursor).stop ≤ text.length := by
  have hahead := run_le (text.drop cursor)
  rw [List.length_drop] at hahead
  have hbefore := List.length_take_le' cursor text
  simp only [around, List.length_take]
  omega

/-- What ends a word is a character of one byte. -/
theorem lt_of_isBoundary {b : UInt8} (h : isBoundary b = true) : b < 0x80 := by
  revert b
  decide +kernel

def front (text : Bytes) (cursor : Nat) : Bytes :=
  (text.take cursor).rdropWhile fun b => !isBoundary b

theorem length_front (text : Bytes) (cursor : Nat) :
    (front text cursor).length = (around text cursor).start := by
  have hparts : (text.take cursor).rdropWhile (fun b => !isBoundary b) ++
      (text.take cursor).rtakeWhile (fun b => !isBoundary b) = text.take cursor :=
    List.rdropWhile_append_rtakeWhile
  have hlength := congrArg List.length hparts
  have hrun : ((text.take cursor).rtakeWhile fun b => !isBoundary b).length =
      run (text.take cursor).reverse := by
    rw [List.rtakeWhile, List.length_reverse, run]
  rw [List.length_append, hrun] at hlength
  rw [front, around]
  dsimp only
  omega

/-- Unless it begins the text, a word follows a byte that ends words. -/
theorem front_cases (text : Bytes) (cursor : Nat) :
    front text cursor = [] ∨ ∃ before b, front text cursor = before ++ [b] ∧ isBoundary b := by
  by_cases hnil : front text cursor = []
  · exact .inl hnil
  · refine .inr ⟨_, _, (List.dropLast_append_getLast hnil).symm, ?_⟩
    have hnot := List.rdropWhile_last_not _ _ hnil
    rwa [Bool.not_eq_true', Bool.not_eq_false] at hnot

/-- A word begins between two characters of a field, or where the field begins. -/
theorem splitsAt_start (f : Field) (cursor : Nat) :
    f.SplitsAt (around f.text cursor).start := by
  rw [← length_front]
  rcases front_cases f.text cursor with hnil | ⟨bytes, b, hfront, hb⟩
  · exact ⟨[], f.value, rfl, by rw [hnil]; rfl⟩
  · obtain ⟨rest, hrest⟩ : front f.text cursor <+: f.text :=
      (List.rdropWhile_prefix _ _).trans (List.take_prefix _ _)
    rw [hfront, List.append_assoc, List.singleton_append] at hrest
    have hsmall := lt_of_isBoundary hb
    obtain ⟨before, after, hvalue, hbefore, -⟩ := Utf8.exists_split_of_ofChars hsmall hrest.symm
    refine ⟨before ++ [Char.ofNat b.toNat], after, ?_, ?_⟩
    · rw [hvalue, List.append_assoc, List.singleton_append]
    · rw [Utf8.ofChars_append, hbefore, Utf8.ofChars, List.flatMap_singleton,
        Utf8.encode_one (UInt8.lt_iff_toNat_lt.mp hsmall), hfront]

end Word

end Backtick
