import Mathlib
import Backtick.Proofs.Persistence

/-!
# Which entries a history has

Lines that are added one after another leave the entries they make, each at the place
of its last addition, and of these the newest up to the limit. An entry that moves to
the end makes no room for one that was dropped before: whatever was dropped is older
than all that stayed, so it would be dropped again.
-/

namespace Backtick.History

/-! ## The last of distinct elements -/

section

variable {α : Type}

theorem rtake_of_length_le {xs : List α} {n : Nat} (h : xs.length ≤ n) : xs.rtake n = xs := by
  rw [List.rtake, Nat.sub_eq_zero_of_le h, List.drop_zero]

theorem length_rtake_le (xs : List α) (n : Nat) : (xs.rtake n).length ≤ n := by
  rw [List.rtake, List.length_drop]
  omega

theorem rtake_sublist (xs : List α) (n : Nat) : (xs.rtake n).Sublist xs :=
  List.drop_sublist _ _

variable [DecidableEq α]

theorem erase_concat_self {xs : List α} {x : α} (h : x ∉ xs) : (xs ++ [x]).erase x = xs := by
  rw [List.erase_append_right _ h, List.erase_cons_head, List.append_nil]

theorem erase_concat_of_ne {x y : α} (h : y ≠ x) (xs : List α) :
    (xs ++ [y]).erase x = xs.erase x ++ [y] := by
  by_cases hx : x ∈ xs
  · exact List.erase_append_left _ hx
  · have hxy : x ∉ xs ++ [y] := by
      rw [List.mem_append, List.mem_singleton]
      exact not_or.mpr ⟨hx, h.symm⟩
    rw [List.erase_of_not_mem hxy, List.erase_of_not_mem hx]

/-- One more element comes last among the distinct ones, and stands nowhere else. -/
theorem dedup_concat (xs : List α) (x : α) :
    (xs ++ [x]).dedup = xs.dedup.erase x ++ [x] := by
  induction xs with
  | nil => rfl
  | cons y xs ih =>
      rw [List.cons_append]
      by_cases hy : y ∈ xs
      · rw [List.dedup_cons_of_mem (List.mem_append_left _ hy), List.dedup_cons_of_mem hy, ih]
      · rw [List.dedup_cons_of_notMem hy]
        by_cases hyx : y = x
        · subst hyx
          rw [List.dedup_cons_of_mem (List.mem_append_right _ (List.mem_singleton_self y)), ih,
            List.erase_cons_head, List.erase_of_not_mem (mt List.mem_dedup.mp hy)]
        · have hmem : y ∉ xs ++ [x] := by
            rw [List.mem_append, List.mem_singleton]
            exact not_or.mpr ⟨hy, hyx⟩
          rw [List.dedup_cons_of_notMem hmem, ih, List.erase_cons_tail (by simpa using hyx),
            List.cons_append]

/-- Among distinct elements, one place more than is kept is room enough for the one erased. -/
theorem rtake_erase_rtake {xs : List α} (h : xs.Nodup) (x : α) (n : Nat) :
    ((xs.rtake (n + 1)).erase x).rtake n = (xs.erase x).rtake n := by
  -- from the newest element on, up to the one that is erased
  induction xs using List.reverseRecOn generalizing n with
  | nil => rw [List.rtake_nil]
  | append_singleton xs y ih =>
      rw [List.rtake_concat_succ]
      obtain ⟨hxs, -, hdisjoint⟩ := List.nodup_append.mp h
      by_cases hyx : y = x
      · subst hyx
        have hy : y ∉ xs := fun hmem => hdisjoint y hmem y (List.mem_singleton_self y) rfl
        have hy' : y ∉ xs.rtake n := fun hmem => hy ((rtake_sublist xs n).subset hmem)
        rw [erase_concat_self hy, erase_concat_self hy', rtake_of_length_le (length_rtake_le xs n)]
      · rw [erase_concat_of_ne hyx, erase_concat_of_ne hyx]
        cases n with
        | zero => rw [List.rtake_zero, List.rtake_zero]
        | succ n => rw [List.rtake_concat_succ, List.rtake_concat_succ, ih hxs]

/-- Moving an element to the end among the last ones moves it among all of them. -/
theorem rtake_dedup_concat (xs : List α) (x : α) {n : Nat} (h : 0 < n) :
    (xs ++ [x]).dedup.rtake n = ((xs.dedup.rtake n).erase x ++ [x]).rtake n := by
  obtain ⟨n, rfl⟩ := Nat.exists_eq_succ_of_ne_zero h.ne'
  rw [dedup_concat, List.rtake_concat_succ, List.rtake_concat_succ,
    rtake_erase_rtake (List.nodup_dedup xs)]

end

/-! ## Lines added one after another -/

def trimmed (e : HistoryEntry) : HistoryEntry :=
  ⟨Text.trim e.line, e.mode⟩

def entered (added : List HistoryEntry) : List HistoryEntry :=
  (added.map trimmed).filter fun e => !e.line.isEmpty

/-- The last of the distinct entries, up to the limit, each at its last occurrence. -/
def latest (es : List HistoryEntry) : List HistoryEntry :=
  es.dedup.rtake limit

theorem entered_concat (added : List HistoryEntry) (e : HistoryEntry) :
    entered (added ++ [e]) = entered added ++ entered [e] := by
  rw [entered, entered, entered, List.map_append, List.filter_append]

theorem entries_push (h : History) (e : HistoryEntry) :
    (h.push e).entries = (h.entries.erase e ++ [e]).rtake limit := by
  simp only [push, List.rtake]

/-- Adding the newest entry again is no different from moving it to the end. -/
theorem rtake_erase_concat_of_getLast? {es : List HistoryEntry} {e : HistoryEntry}
    (hdistinct : es.Nodup) (hshort : es.length ≤ limit) (hlast : es.getLast? = some e) :
    (es.erase e ++ [e]).rtake limit = es := by
  obtain ⟨older, rfl⟩ := List.getLast?_eq_some_iff.mp hlast
  have hnew : e ∉ older := fun hmem =>
    (List.nodup_append.mp hdistinct).2.2 e hmem e (List.mem_singleton_self e) rfl
  rw [erase_concat_self hnew, rtake_of_length_le hshort]

theorem nodup_latest (es : List HistoryEntry) : (latest es).Nodup :=
  (List.nodup_dedup es).sublist (rtake_sublist _ _)

theorem length_latest_le (es : List HistoryEntry) : (latest es).length ≤ limit :=
  length_rtake_le _ _

theorem getLast?_latest (es : List HistoryEntry) : (latest es).getLast? = es.getLast? := by
  rcases List.eq_nil_or_concat' es with rfl | ⟨es, e, rfl⟩
  · rfl
  · rw [latest, dedup_concat, limit, List.rtake_concat_succ, List.getLast?_concat,
      List.getLast?_concat]

/-- One line more: the history goes on with the last of the distinct entries. -/
theorem entries_add {h : History} {es : List HistoryEntry} (hentries : h.entries = latest es)
    (e : HistoryEntry) : (h.add e.line e.mode).entries = latest (es ++ entered [e]) := by
  change (if (trimmed e).line.isEmpty || h.entries.getLast? = some (trimmed e) then h
    else h.push (trimmed e)).entries = _
  by_cases hblank : (trimmed e).line.isEmpty = true
  · have hnone : entered [e] = [] := by simp [entered, hblank]
    rw [hnone, List.append_nil, hblank, Bool.true_or, if_pos rfl, hentries]
  · have hone : entered [e] = [trimmed e] := by simp [entered, hblank]
    have hmoved : latest (es ++ [trimmed e]) =
        ((latest es).erase (trimmed e) ++ [trimmed e]).rtake limit :=
      rtake_dedup_concat es _ (by decide)
    rw [hone, hmoved]
    split
    · rename_i hsame
      have hlast : (latest es).getLast? = some (trimmed e) := by
        rw [← hentries]
        simpa [hblank] using hsame
      rw [rtake_erase_concat_of_getLast? (nodup_latest es) (length_latest_le es) hlast, hentries]
    · rw [entries_push, hentries]

theorem entries_addAll (file : HistoryFile) (added : List HistoryEntry) :
    ((new file).addAll added).entries = latest (entered added) := by
  induction added using List.reverseRecOn with
  | nil => rfl
  | append_singleton added e ih =>
      rw [addAll, List.foldl_concat, ← addAll, entries_add ih, entered_concat]

/--
A history without entries to which lines are added has the last of the distinct entries
that these make, up to the limit. So its entries are distinct, trimmed and not blank, no
more than the limit, and the last line that was not blank is the newest of them.
-/
theorem entries_are_latest (file : HistoryFile) (added : List HistoryEntry) :
    ((new file).addAll added).entries = (entered added).dedup.rtake limit ∧
      ((new file).addAll added).entries.Nodup ∧
      (∀ e ∈ ((new file).addAll added).entries, Text.trim e.line = e.line ∧ e.line ≠ []) ∧
      ((new file).addAll added).entries.length ≤ limit ∧
      ((new file).addAll added).entries.getLast? = (entered added).getLast? := by
  rw [entries_addAll]
  refine ⟨rfl, nodup_latest _, ?_, length_latest_le _, getLast?_latest _⟩
  intro e he
  have hentered : e ∈ entered added :=
    List.mem_dedup.mp ((rtake_sublist _ _).subset he)
  obtain ⟨hmade, hfilled⟩ := List.mem_filter.mp hentered
  obtain ⟨line, -, rfl⟩ := List.mem_map.mp hmade
  exact ⟨(Text.trimmed_trim line.line).trim_eq, by simpa using hfilled⟩

end Backtick.History
