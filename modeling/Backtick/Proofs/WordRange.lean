import Mathlib
import Backtick.Proofs.Turns

/-!
# The word that is completed

A session keeps the offsets of the word at the cursor from one event to the next.
Looking for names sets them anew, and other events leave them with the line that they
belong to, except one: trying out a name puts the end of the word behind the name,
whatever the field keeps of it. So the word begins in the line in every session, and
ends in it exactly as long as the names that are tried out fit.
-/

namespace Backtick

namespace Session

/-! ## Sessions whose word begins in the line -/

/-- The word on offer begins between characters of a field that holds only what it may. -/
structure Anchored (s : Session) : Prop where
  clean : s.field.Clean
  selected : s.cycling = true → 0 ≤ s.selected
  start : s.found ≠ [] → s.field.SplitsAt s.word.start
  start_le_stop : s.found ≠ [] → s.word.start ≤ s.word.stop

/-- The word on offer, if there is one, lies in the line. -/
def InRange (s : Session) : Prop :=
  s.found ≠ [] → s.word.start ≤ s.word.stop ∧ s.word.stop ≤ s.input.length

theorem anchored_new (store : Store) (history : History) (engine : Engine) :
    (new store history engine).Anchored :=
  ⟨Field.clean_new _, fun h => absurd h Bool.false_ne_true, fun h => absurd rfl h,
    fun h => absurd rfl h⟩

theorem inRange_new (store : Store) (history : History) (engine : Engine) :
    (new store history engine).InRange :=
  fun h => absurd rfl h

theorem Anchored.start_le {s : Session} (h : s.Anchored) (hfound : s.found ≠ []) :
    s.word.start ≤ s.input.length := by
  obtain ⟨before, after, hvalue, hstart⟩ := h.start hfound
  rw [input, Field.text, hvalue, Utf8.ofChars_append, List.length_append, hstart]
  exact Nat.le_add_right _ _

/-- The bounds of the word that is taken when names are looked for. -/
theorem refresh_bounds (s : Session) (confirming : Bool) :
    (s.refresh confirming).word.start ≤ (s.refresh confirming).word.stop ∧
      (s.refresh confirming).word.stop ≤ (s.refresh confirming).input.length := by
  rw [word_refresh, input_refresh]
  exact Word.around_bounds s.input s.field.cursor

theorem Turn.anchored {s t : Session} (hturn : s.Turn t) (h : s.Anchored) : t.Anchored := by
  have hselected : t.cycling = true → 0 ≤ t.selected := by
    intro hcycling
    obtain ⟨hbefore, heq⟩ := hturn.goesOn hcycling
    rw [heq]
    exact h.selected hbefore
  cases hturn with
  | same keeps =>
      refine ⟨keeps.clean h.clean, hselected, ?_, ?_⟩
      · rw [keeps.found, keeps.word, Field.SplitsAt, keeps.value]
        exact h.start
      · rw [keeps.found, keeps.word]
        exact h.start_le_stop
  | closed clean found =>
      exact ⟨clean, hselected, fun hfound => absurd found hfound,
        fun hfound => absurd found hfound⟩
  | looked confirming clean =>
      refine ⟨?_, hselected, fun _ => ?_, fun _ => (refresh_bounds _ confirming).1⟩
      · rw [field_refresh]
        exact clean h.clean
      · rw [field_refresh, word_refresh]
        exact Word.splitsAt_start _ _

theorem Turn.inRange {s t : Session} (hturn : s.Turn t) (h : s.InRange) : t.InRange := by
  cases hturn with
  | same keeps =>
      rw [InRange, keeps.found, keeps.word, input, Field.text, keeps.value]
      exact h
  | closed _ found => exact fun hfound => absurd found hfound
  | looked confirming => exact fun _ => refresh_bounds _ confirming

/-! ## Trying out a name -/

/-- The name that is tried out next is one of those on offer. -/
theorem Anchored.nextSelected_bounds {s : Session} (h : s.Anchored) (htwo : 2 ≤ s.found.length)
    (forward : Bool) :
    0 ≤ s.nextSelected forward ∧ s.nextSelected forward < s.found.length := by
  unfold nextSelected
  dsimp only
  split
  · -- from an index that is not negative, a step back does not lead below `-1`
    rename_i hcycling
    have hselected := h.selected hcycling
    have hstep : -1 ≤ (if forward then (1 : Int) else -1) := by split <;> omega
    constructor
    · exact Int.tmod_nonneg _ (by omega)
    · exact Int.tmod_lt_of_pos _ (by omega)
  · split <;> omega

theorem Anchored.exists_next {s : Session} (h : s.Anchored) (htwo : 2 ≤ s.found.length)
    (forward : Bool) : ∃ m, s.found[(s.nextSelected forward).toNat]? = some m := by
  have hbounds := h.nextSelected_bounds htwo forward
  exact ⟨_, List.getElem?_eq_getElem (by omega)⟩

theorem found_ne_nil {s : Session} (htwo : 2 ≤ s.found.length) : s.found ≠ [] :=
  List.ne_nil_of_length_pos (Nat.lt_of_lt_of_le Nat.two_pos htwo)

/-- Where several names are on offer, the next one is put in place of the word. -/
theorem cycle_eq_replaceWord {s : Session} {forward : Bool} {m : Text.Match}
    (htwo : 2 ≤ s.found.length) (hm : s.found[(s.nextSelected forward).toNat]? = some m) :
    s.cycle forward =
      { s with
        cycling := true
        beforeCycling := if s.cycling then s.beforeCycling else s.draft
        selected := s.nextSelected forward }.replaceWord m.text := by
  unfold cycle
  split
  · simp_all
  · simp_all
  · dsimp only
    rw [hm]

theorem clean_replaceWord (s : Session) (name : Bytes) : (s.replaceWord name).field.Clean :=
  (Field.clean_setText _ _).moveTo _

/-- A name that is alone is taken, and none is on offer then. -/
theorem turn_cycle (s : Session) (forward : Bool) (h : s.found.length < 2) :
    s.Turn (s.cycle forward) := by
  unfold cycle
  split
  · exact .same (.refl s)
  · exact .closed (s.clean_replaceWord _) rfl fun hcycling => absurd hcycling Bool.false_ne_true
  · rename_i hnone hone
    rcases hfound : s.found with _ | ⟨m, _ | ⟨n, rest⟩⟩
    · exact absurd hfound hnone
    · exact absurd hfound (hone m)
    · rw [hfound] at h
      exact absurd h (Nat.not_lt.mpr (Nat.le_add_left 2 _))

theorem take_start {s : Session} {before after : List Char}
    (hvalue : s.field.value = before ++ after)
    (hstart : (Utf8.ofChars before).length = s.word.start) :
    s.input.take s.word.start = Utf8.ofChars before := by
  rw [input, Field.text, hvalue, Utf8.ofChars_append, ← hstart, List.take_left]

/-- A line with a name in place of the word keeps what stood before the word. -/
theorem value_replaceWord (s : Session) (name : Bytes) {before after : List Char}
    (hclean : s.field.Clean) (hvalue : s.field.value = before ++ after)
    (hstart : (Utf8.ofChars before).length = s.word.start) :
    (s.replaceWord name).field.value =
      before ++ (Field.clean (Utf8.chars (name ++ s.input.drop s.word.stop))).take
        (Field.limit - before.length) := by
  have hheld : ∀ c ∈ before, Field.isHeld c = true := fun c hc =>
    hclean.held c (hvalue ▸ List.mem_append_left after hc)
  have hshort : before.length ≤ Field.limit := by
    refine Nat.le_trans ?_ hclean.short
    rw [hvalue, List.length_append]
    exact Nat.le_add_right _ _
  rw [replaceWord]
  dsimp only
  rw [Field.value_moveTo, Field.value_setText, take_start hvalue hstart, List.append_assoc,
    Utf8.chars_ofChars_append, Field.clean_append, Field.clean_of_isHeld hheld, List.take_append,
    List.take_of_length_le hshort]

theorem splitsAt_replaceWord {s : Session} (name : Bytes) (hclean : s.field.Clean)
    (hsplit : s.field.SplitsAt s.word.start) :
    (s.replaceWord name).field.SplitsAt s.word.start := by
  obtain ⟨before, after, hvalue, hstart⟩ := hsplit
  exact ⟨before, _, value_replaceWord s name hclean hvalue hstart, hstart⟩

/-- Trying out a name moves the end of the word, and leaves its start in the line. -/
theorem Anchored.cycle {s : Session} (h : s.Anchored) (forward : Bool) :
    (s.cycle forward).Anchored := by
  by_cases htwo : 2 ≤ s.found.length
  · obtain ⟨m, hm⟩ := h.exists_next htwo forward
    rw [cycle_eq_replaceWord htwo hm]
    exact ⟨clean_replaceWord _ _, fun _ => (h.nextSelected_bounds htwo forward).1,
      fun _ => splitsAt_replaceWord m.text h.clean (h.start (found_ne_nil htwo)),
      fun _ => Nat.le_add_right _ _⟩
  · exact (s.turn_cycle forward (Nat.not_le.mp htwo)).anchored h

theorem Anchored.after {s : Session} (h : s.Anchored) (e : Event) : (s.after e).Anchored := by
  cases htries : e.tries? with
  | none => exact (s.turn_after htries).anchored h
  | some forward =>
      rw [s.after_of_tries htries]
      exact h.cycle forward

theorem Anchored.afterAll {s : Session} (h : s.Anchored) (events : List Event) :
    (s.afterAll events).Anchored := by
  induction events generalizing s with
  | nil => exact h
  | cons e events ih => exact ih (h.after e)

/-! ## Names for which the field has room -/

/-- What the field holds behind the start of the word when a name is put in its place. -/
def keptBehind (s : Session) (name : Bytes) : Bytes :=
  let room := Field.limit - Utf8.count (s.input.take s.word.start)
  Utf8.ofChars ((Field.clean (Utf8.chars (name ++ s.input.drop s.word.stop))).take room)

/-- Behind the start of the word the field holds as many bytes as a name has. -/
def Fits (s : Session) (name : Bytes) : Prop :=
  name.length ≤ (s.keptBehind name).length

instance (s : Session) (name : Bytes) : Decidable (s.Fits name) :=
  inferInstanceAs (Decidable (_ ≤ _))

/-- Put in place of the word, a name ends in the line exactly if it fits. -/
theorem replaceWord_stop_le_iff {s : Session} (name : Bytes) (hclean : s.field.Clean)
    (hsplit : s.field.SplitsAt s.word.start) :
    (s.replaceWord name).word.stop ≤ (s.replaceWord name).input.length ↔ s.Fits name := by
  obtain ⟨before, after, hvalue, hstart⟩ := hsplit
  have hinput : (s.replaceWord name).input = Utf8.ofChars before ++ s.keptBehind name := by
    rw [input, Field.text, value_replaceWord s name hclean hvalue hstart, Utf8.ofChars_append,
      keptBehind, take_start hvalue hstart, Utf8.count_ofChars]
  have hstop : (s.replaceWord name).word.stop = (Utf8.ofChars before).length + name.length :=
    congrArg (· + name.length) hstart.symm
  -- both ends are counted from the same start
  rw [hinput, hstop, List.length_append, Nat.add_le_add_iff_left, Fits]

/-- A name that the field does not change fits exactly if there is room for its characters. -/
theorem fits_iff {s : Session} {name : Bytes} (hclean : s.field.Clean)
    (hsplit : s.field.SplitsAt s.word.start) (hkept : Field.isKept name = true) :
    s.Fits name ↔
      Utf8.count (s.input.take s.word.start) + Utf8.count name ≤ Field.limit := by
  obtain ⟨before, after, hvalue, hstart⟩ := hsplit
  obtain ⟨cs, rfl, hheld⟩ := Field.exists_of_isKept hkept
  have hshort := hclean.short
  rw [hvalue, List.length_append] at hshort
  rw [Fits, keptBehind, take_start hvalue hstart, Utf8.chars_ofChars_append, Field.clean_append,
    Field.clean_of_isHeld hheld, Field.length_ofChars_le_take_iff, Utf8.count_ofChars,
    Utf8.count_ofChars]
  omega

/-- Of several names on offer, the one that an event tries out fits. -/
def RoomFor (s : Session) (e : Event) : Prop :=
  ∀ forward ∈ e.tries?, 2 ≤ s.found.length →
    ∀ m ∈ s.found[(s.nextSelected forward).toNat]?, s.Fits m.text

instance (s : Session) (e : Event) : Decidable (s.RoomFor e) :=
  inferInstanceAs (Decidable (∀ forward ∈ e.tries?, 2 ≤ s.found.length →
    ∀ m ∈ s.found[(s.nextSelected forward).toNat]?, s.Fits m.text))

/-- Every name that is tried out in the course of some events fits. -/
def RoomForAll (s : Session) : List Event -> Prop
  | [] => True
  | e :: events => s.RoomFor e ∧ (s.after e).RoomForAll events

instance decidableRoomForAll (s : Session) :
    (events : List Event) -> Decidable (s.RoomForAll events)
  | [] => isTrue trivial
  | e :: events =>
      have := decidableRoomForAll (s.after e) events
      inferInstanceAs (Decidable (s.RoomFor e ∧ (s.after e).RoomForAll events))

theorem Anchored.inRange_cycle_iff {s : Session} (h : s.Anchored) (htwo : 2 ≤ s.found.length)
    {forward : Bool} {m : Text.Match} (hm : s.found[(s.nextSelected forward).toNat]? = some m) :
    (s.cycle forward).InRange ↔ s.Fits m.text := by
  have hne := found_ne_nil htwo
  have hfits := replaceWord_stop_le_iff m.text h.clean (h.start hne)
  rw [cycle_eq_replaceWord htwo hm]
  exact ⟨fun hrange => hfits.mp (hrange hne).2,
    fun hroom _ => ⟨Nat.le_add_right _ _, hfits.mpr hroom⟩⟩

/-- An event keeps the word in the line exactly if a name that it tries out fits. -/
theorem InRange.after_iff {s : Session} (h : s.InRange) (hs : s.Anchored) (e : Event) :
    (s.after e).InRange ↔ s.RoomFor e := by
  cases htries : e.tries? with
  | none =>
      refine ⟨fun _ forward hforward => ?_, fun _ => (s.turn_after htries).inRange h⟩
      rw [htries] at hforward
      cases hforward
  | some forward =>
      rw [s.after_of_tries htries, RoomFor, htries]
      by_cases htwo : 2 ≤ s.found.length
      · -- the event tries out one name, so `RoomFor` speaks of that name only
        obtain ⟨m, hm⟩ := hs.exists_next htwo forward
        rw [hs.inRange_cycle_iff htwo hm]
        refine ⟨?_, fun hroom => hroom forward rfl htwo m hm⟩
        intro hfits other hother _ m' hm'
        cases hother
        cases hm.symm.trans hm'
        exact hfits
      · exact ⟨fun _ _ _ htwo' => absurd htwo' htwo,
          fun _ => (s.turn_cycle forward (Nat.not_le.mp htwo)).inRange h⟩

/-- The word stays in the line all along exactly if every name that is tried out fits. -/
theorem InRange.afterAll_iff {s : Session} (h : s.InRange) (hs : s.Anchored)
    (events : List Event) :
    (∀ k, (s.afterAll (events.take k)).InRange) ↔ s.RoomForAll events := by
  induction events generalizing s with
  | nil => exact ⟨fun _ => trivial, fun _ k => by rwa [List.take_nil]⟩
  | cons e events ih =>
      rw [RoomForAll, ← h.after_iff hs e]
      constructor
      · intro hall
        have hafter : (s.after e).InRange := hall 1
        exact ⟨hafter, (ih hafter (hs.after e)).mp fun k => hall (k + 1)⟩
      · rintro ⟨hafter, hroom⟩ k
        cases k with
        | zero => exact h
        | succ k => exact (ih hafter (hs.after e)).mpr hroom k

/--
In every session, the name that is tried out next is one of those on offer, the word
on offer begins in the line, and looking for names takes a word that lies in it. The
word ends in the line all along exactly if every name that is tried out fits: if it is
made of characters that a field holds, this says that the line up to the word and the
name have not more characters than a field can take.
-/
theorem word_in_range_iff_names_fit (store : Store) (history : History) (engine : Engine)
    (events : List Event) :
    ((∀ k, ((new store history engine).afterAll (events.take k)).InRange) ↔
      (new store history engine).RoomForAll events) ∧
    let s := (new store history engine).afterAll events
    (∀ forward, 2 ≤ s.found.length →
      0 ≤ s.nextSelected forward ∧ s.nextSelected forward < s.found.length) ∧
    (s.found ≠ [] → s.word.start ≤ s.word.stop ∧ s.word.start ≤ s.input.length) ∧
    (∀ confirming, (s.refresh confirming).word.start ≤ (s.refresh confirming).word.stop ∧
      (s.refresh confirming).word.stop ≤ (s.refresh confirming).input.length) ∧
    (s.found ≠ [] → ∀ name, Field.isKept name = true →
      (s.Fits name ↔
        Utf8.count (s.input.take s.word.start) + Utf8.count name ≤ Field.limit)) := by
  have hstart := anchored_new store history engine
  refine ⟨(inRange_new store history engine).afterAll_iff hstart events, ?_⟩
  intro s
  have hs : s.Anchored := hstart.afterAll events
  exact ⟨fun forward htwo => hs.nextSelected_bounds htwo forward,
    fun hfound => ⟨hs.start_le_stop hfound, hs.start_le hfound⟩, s.refresh_bounds,
    fun hfound _ hkept => fits_iff hs.clean (hs.start hfound) hkept⟩

/-- A line that asks for a variable, and a name that is tried out in it. -/
def asking : List Event :=
  [.key ⟨.typed (Utf8.chars "$\x7bGET('"), false⟩, .key ⟨.tab, false⟩]

def twoNames (first second : Bytes) : Session :=
  new ⟨[(first, .null), (second, .null)], .error⟩ (.new .nowhere) .tree

theorem word_in_range_iff_names_fit_sample :
    (twoNames "a" "bc").RoomForAll asking ∧ ((twoNames "a" "bc").afterAll asking).found ≠ [] ∧
      ((twoNames "a" "bc").afterAll asking).InRange := by
  have hroom : (twoNames "a" "bc").RoomForAll asking := of_decide_eq_true (by cbv)
  have hfound : ((twoNames "a" "bc").afterAll asking).found ≠ [] :=
    List.isEmpty_eq_false_iff.mp (by cbv)
  exact ⟨hroom, hfound, (word_in_range_iff_names_fit _ _ _ asking).1.mpr hroom 2⟩

/-- Of a name of replacement characters the field keeps nothing, and the word ends behind it. -/
theorem word_out_of_range_behind_dropped :
    ((twoNames "\uFFFD" "\uFFFD\uFFFD").afterAll asking).found ≠ [] ∧
      ((twoNames "\uFFFD" "\uFFFD\uFFFD").afterAll asking).input.length <
        ((twoNames "\uFFFD" "\uFFFD\uFFFD").afterAll asking).word.stop := by
  refine ⟨List.isEmpty_eq_false_iff.mp ?_, ?_⟩ <;> cbv

end Session

end Backtick
