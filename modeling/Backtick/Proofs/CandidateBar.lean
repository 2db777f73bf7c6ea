import Mathlib
import Backtick.Proofs.Persistence
import Backtick.Session.Bar

/-!
# How wide the bar of candidates is

The bar shows the first candidates of a list, in order, and an ellipsis behind them exactly
if some are left out. Each candidate but the first and the last is shown only if three cells
are left behind it. But the ellipsis, with the separator before it, takes five, and
the last candidate is shown wherever the one before it is: the bar may be wider than the
room by two cells, or by the last candidate.
-/

namespace Backtick

/-! ## Printable characters -/

/-- Whether a byte is a printable character, which takes one cell. -/
def Bytes.isOneCell (b : UInt8) : Bool :=
  0x20 ≤ b && b < 0x7F

namespace Text

open Bytes

theorem step_of_isOneCell {b : UInt8} (h : isOneCell b = true) :
    Phase.text.step b = (.text, .print) := by
  revert b
  decide +kernel

theorem toNat_lt_of_isOneCell {b : UInt8} (h : isOneCell b = true) : b.toNat < 0x80 := by
  revert b
  decide +kernel

theorem pieces_cons_of_isOneCell {b : UInt8} (h : isOneCell b = true) (rest : Bytes) :
    Utf8.pieces (b :: rest) = .char (Char.ofNat b.toNat) :: Utf8.pieces rest := by
  rw [Utf8.pieces_char (Utf8.lead?_one (toNat_lt_of_isOneCell h) rest), List.drop_zero]

/-- A printable byte is the code of its character. -/
theorem ofNat_of_isOneCell {b : UInt8} (h : isOneCell b = true) :
    (Char.ofNat b.toNat).toNat < 0x80 ∧ (Char.ofNat b.toNat).toUInt8 = b := by
  revert b
  decide +kernel

/-- A printable character takes one cell, and text goes on behind it. -/
theorem glyphsFrom_cons_of_isOneCell {b : UInt8} (h : isOneCell b = true) (rest : Bytes) :
    glyphsFrom .text (Utf8.pieces (b :: rest)) =
      ⟨[b], some 1, false⟩ :: glyphsFrom .text (Utf8.pieces rest) := by
  obtain ⟨hsmall, hbyte⟩ := ofNat_of_isOneCell h
  rw [pieces_cons_of_isOneCell h, glyphsFrom, if_pos hsmall, hbyte, step_of_isOneCell h]
  rfl

theorem terminalCells_of_isOneCell {text : Bytes} (h : ∀ b ∈ text, isOneCell b = true) :
    terminalCells text = text.length := by
  induction text with
  | nil =>
      rw [terminalCells, glyphs, Utf8.pieces_nil, glyphsFrom]
      rfl
  | cons b text ih =>
      obtain ⟨hb, htext⟩ := List.forall_mem_cons.mp h
      have hrest := ih htext
      rw [terminalCells, glyphs] at hrest
      rw [terminalCells, glyphs, glyphsFrom_cons_of_isOneCell hb, glyphCells, hrest,
        List.length_cons, Option.getD_some, Nat.add_comm]

theorem lineFeed_not_mem_of_isOneCell {text : Bytes} (h : ∀ b ∈ text, isOneCell b = true) :
    '\n'.toUInt8 ∉ text :=
  fun hmem => absurd (h _ hmem) (by decide)

/-- A text on one line is not padded. -/
theorem padLines_of_not_mem {text : Bytes} (h : '\n'.toUInt8 ∉ text) : padLines text = text := by
  rw [padLines, splitOn_of_not_mem h]
  simp [join, blanks]

theorem styled_of_isOneCell {b : UInt8} (h : isOneCell b = true) : styled [b] = [b] := by
  have htab : b ≠ '\t'.toUInt8 := by
    rintro rfl
    exact absurd h (by decide)
  have hline : '\n'.toUInt8 ∉ [b] := lineFeed_not_mem_of_isOneCell (by simpa using h)
  have hexpanded : expandTabs [b] = [b] := by
    rw [expandTabs, List.flatMap_singleton, if_neg htab]
  have hreturns : dropReturns [b] = [b] := by simp [dropReturns]
  rw [styled, hexpanded, hreturns, padLines_of_not_mem hline]

end Text

namespace Bar

open Bytes

theorem shown_of_isOneCell {name : Bytes} (h : ∀ b ∈ name, isOneCell b = true) :
    ∀ b ∈ shown name, isOneCell b = true := by
  have hletters : (Utf8.chars name).flatMap (fun c => Text.styled (String.utf8EncodeChar c)) =
      name := by
    induction name with
    | nil => rw [Utf8.chars, Utf8.pieces_nil]; rfl
    | cons b name ih =>
        obtain ⟨hb, hname⟩ := List.forall_mem_cons.mp h
        have hsmall := Text.toNat_lt_of_isOneCell hb
        rw [Utf8.chars, Text.pieces_cons_of_isOneCell hb, List.map_cons, List.flatMap_cons,
          ← Utf8.chars, ih hname, Utf8.Piece.shown, Utf8.encode_one hsmall,
          Text.styled_of_isOneCell hb, List.singleton_append]
  unfold shown
  rw [hletters]
  split
  · intro b hb
    rcases List.mem_append.mp hb with hb | hb
    · exact h b hb
    · exact (show ∀ b ∈ Bytes.ofString "()", isOneCell b = true by decide +kernel) b hb
  · exact h

theorem width_of_isOneCell {text : Bytes} (h : ∀ b ∈ text, isOneCell b = true) :
    width text = text.length := by
  rw [width, splitOn_of_not_mem (Text.lineFeed_not_mem_of_isOneCell h)]
  simp [Text.terminalCells_of_isOneCell h]

@[simp] theorem width_separator : width separator = 2 :=
  width_of_isOneCell (by decide +kernel)

@[simp] theorem width_ellipsis : width ellipsis = 3 :=
  width_of_isOneCell (by decide +kernel)

/-! ## What is shown -/

/-- The texts behind the first candidate: the others that are shown, an ellipsis for the rest. -/
def further (names : List Bytes) (count : Nat) : List Bytes :=
  (names.take count).flatMap (fun name => [separator, shown name]) ++
    if count < names.length then [separator, ellipsis] else []

theorem further_cons (name : Bytes) (names : List Bytes) (count : Nat) :
    further (name :: names) (count + 1) = separator :: shown name :: further names count := by
  simp only [further, List.take_succ_cons, List.flatMap_cons, List.length_cons,
    Nat.add_lt_add_iff_right, List.cons_append, List.nil_append]

def cellsBehind (used : Nat) (names : List Bytes) : Nat :=
  used + (names.map fun name => width separator + width (shown name)).sum

theorem cellsBehind_cons (used : Nat) (name : Bytes) (names : List Bytes) :
    cellsBehind used (name :: names) =
      cellsBehind (used + width (shown name) + width separator) names := by
  simp only [cellsBehind, List.map_cons, List.sum_cons]
  omega

/-- How many candidates are shown behind others, which used some cells of the room. -/
structure Shows (room used : Nat) (names : List Bytes) (count : Nat) : Prop where
  le : count ≤ names.length
  /-- Those that are shown leave three cells, unless they are all there are. -/
  fits : ∀ i < count, i + 1 < names.length → cellsBehind used (names.take (i + 1)) + 3 ≤ room
  /-- The first that is left out is not the last one, and would not leave three cells. -/
  stops : count < names.length →
    count + 1 < names.length ∧ room < cellsBehind used (names.take (count + 1)) + 3

/-- One more candidate is shown in front if it leaves three cells or is the last one. -/
theorem Shows.cons {room used count : Nat} {name : Bytes} {names : List Bytes}
    (h : Shows room (used + width (shown name) + width separator) names count)
    (hfits : names ≠ [] → cellsBehind used [name] + 3 ≤ room) :
    Shows room used (name :: names) (count + 1) := by
  refine ⟨Nat.succ_le_succ h.le, ?_, ?_⟩
  · rintro (_ | i) hi hlast
    · exact hfits (List.ne_nil_of_length_pos (Nat.lt_of_succ_lt_succ hlast))
    · rw [List.take_succ_cons, cellsBehind_cons]
      exact h.fits i (Nat.lt_of_succ_lt_succ hi) (Nat.lt_of_succ_lt_succ hlast)
  · intro hless
    obtain ⟨hnext, hroom⟩ := h.stops (Nat.lt_of_succ_lt_succ hless)
    rw [List.take_succ_cons, cellsBehind_cons]
    exact ⟨Nat.succ_lt_succ hnext, hroom⟩

/-- The rest is left out before a candidate that leaves too little room and is not the last one. -/
theorem more_cons (room used : Nat) (name : Bytes) (names : List Bytes) :
    more room used (name :: names) =
      if room < cellsBehind used [name] + 3 ∧ names ≠ [] then separator ++ ellipsis
      else separator ++ shown name ++
        more room (used + width (shown name) + width separator) names := by
  have hcells : cellsBehind used [name] = used + width (shown name) + width separator := by
    rw [cellsBehind_cons]
    rfl
  rw [more, hcells]
  simp only [width_ellipsis, Bool.and_eq_true, decide_eq_true_eq, Bool.not_eq_true',
    List.isEmpty_eq_false_iff]

/-- Behind others, as many candidates are shown as there is room for. -/
theorem exists_shows (room used : Nat) (names : List Bytes) :
    ∃ count, Shows room used names count ∧
      more room used names = (further names count).flatten := by
  induction names generalizing used with
  | nil => exact ⟨0, ⟨Nat.le_refl 0, by simp, by simp⟩, rfl⟩
  | cons name names ih =>
      rw [more_cons]
      by_cases hstop : room < cellsBehind used [name] + 3 ∧ names ≠ []
      · have hlength : 0 < names.length := List.length_pos_of_ne_nil hstop.2
        rw [if_pos hstop]
        exact ⟨0, ⟨Nat.zero_le _, by simp, fun _ => ⟨Nat.succ_lt_succ hlength, hstop.1⟩⟩, rfl⟩
      · obtain ⟨count, hshows, hmore⟩ := ih (used + width (shown name) + width separator)
        have hfits : names ≠ [] → cellsBehind used [name] + 3 ≤ room :=
          fun hne => Nat.not_lt.mp fun hroom => hstop ⟨hroom, hne⟩
        refine ⟨count + 1, hshows.cons hfits, ?_⟩
        rw [if_neg hstop, further_cons, List.flatten_cons, List.flatten_cons, hmore,
          List.append_assoc]

/-! ## How wide it is -/

/-- Display width adds up over the texts that a bar of candidates is made of. -/
def Additive (names : List Bytes) : Prop :=
  ∀ texts : List Bytes,
    (∀ text ∈ texts, text = separator ∨ text = ellipsis ∨ ∃ name ∈ names, text = shown name) →
      width texts.flatten = (texts.map width).sum

theorem additive_of_isOneCell {names : List Bytes}
    (h : ∀ name ∈ names, ∀ b ∈ name, isOneCell b = true) : Additive names := by
  intro texts htexts
  have hprintable : ∀ text ∈ texts, ∀ b ∈ text, isOneCell b = true := by
    intro text htext
    rcases htexts text htext with rfl | rfl | ⟨name, hname, rfl⟩
    · decide +kernel
    · decide +kernel
    · exact shown_of_isOneCell (h name hname)
  have hwidths : texts.map width = texts.map List.length :=
    List.map_congr_left fun text htext => width_of_isOneCell (hprintable text htext)
  have hall : ∀ b ∈ texts.flatten, isOneCell b = true := by
    intro b hb
    obtain ⟨text, htext, hmem⟩ := List.mem_flatten.mp hb
    exact hprintable text htext b hmem
  rw [width_of_isOneCell hall, hwidths, List.length_flatten]

theorem mem_further {text : Bytes} {names : List Bytes} {count : Nat}
    (h : text ∈ further names count) :
    text = separator ∨ text = ellipsis ∨ ∃ name ∈ names, text = shown name := by
  rcases List.mem_append.mp h with hshown | hdots
  · obtain ⟨name, hname, htext⟩ := List.mem_flatMap.mp hshown
    rcases List.mem_pair.mp htext with rfl | rfl
    · exact .inl rfl
    · exact .inr (.inr ⟨name, List.mem_of_mem_take hname, rfl⟩)
  · split at hdots
    · rcases List.mem_pair.mp hdots with rfl | rfl
      · exact .inl rfl
      · exact .inr (.inl rfl)
    · exact absurd hdots List.not_mem_nil

theorem sum_width_shown (names : List Bytes) :
    ((names.flatMap fun name => [separator, shown name]).map width).sum =
      (names.map fun name => width separator + width (shown name)).sum := by
  induction names with
  | nil => rfl
  | cons name names ih =>
      simp only [List.flatMap_cons, List.map_append, List.sum_append, ih, List.map_cons,
        List.sum_cons, List.map_nil, List.sum_nil, Nat.add_zero]

/-- The ellipsis takes five cells, with the separator before it. -/
theorem width_flatten {name : Bytes} {names : List Bytes} (hadd : Additive (name :: names))
    (count : Nat) :
    width (shown name :: further names count).flatten =
      cellsBehind (width (shown name)) (names.take count) +
        if count < names.length then 5 else 0 := by
  have htexts : ∀ text ∈ shown name :: further names count,
      text = separator ∨ text = ellipsis ∨ ∃ other ∈ name :: names, text = shown other := by
    intro text htext
    rcases List.mem_cons.mp htext with rfl | htext
    · exact .inr (.inr ⟨name, List.mem_cons_self, rfl⟩)
    · rcases mem_further htext with h | h | ⟨other, hother, h⟩
      · exact .inl h
      · exact .inr (.inl h)
      · exact .inr (.inr ⟨other, List.mem_cons_of_mem _ hother, h⟩)
  rw [hadd _ htexts, List.map_cons, List.sum_cons, further, List.map_append, List.sum_append,
    sum_width_shown, cellsBehind, Nat.add_assoc]
  congr 2
  split
  · simp
  · rfl

/--
The bar shows the first candidates, in order, and an ellipsis exactly if some are left out. It
fits the room exactly if, where some are left out, those that are shown leave five cells, and
else all candidates fit. Where some are left out, it is at most two cells too wide.
-/
theorem bar_fits_iff (name : Bytes) (names : List Bytes) (room : Int)
    (hroom : width (shown name) + 5 ≤ room) (hadd : Additive (name :: names)) :
    let bar := render room (name :: names)
    let used := width (shown name)
    ∃ count, Shows room.toNat used names count ∧
      bar = (shown name :: further names count).flatten ∧
      (width bar ≤ room ↔
        if count < names.length then cellsBehind used (names.take count) + 5 ≤ room
        else cellsBehind used names ≤ room) ∧
      (count < names.length → width bar ≤ room + 2) := by
  intro bar used
  obtain ⟨count, hshows, hmore⟩ := exists_shows room.toNat used names
  have hbar : bar = (shown name :: further names count).flatten := by
    have hpos : ¬ room ≤ 0 := by omega
    rw [List.flatten_cons, ← hmore]
    exact if_neg hpos
  have hwidth : width bar = _ := (congrArg width hbar).trans (width_flatten hadd count)
  refine ⟨count, hshows, hbar, ?_, ?_⟩
  · rw [hwidth]
    split
    · rfl
    · rename_i hall
      rw [List.take_of_length_le (Nat.not_lt.mp hall), Nat.add_zero]
  · intro hleft
    rw [hwidth, if_pos hleft]
    -- the last one that is shown has left three cells, or it is the first of all
    cases count with
    | zero =>
        simp only [cellsBehind, List.take_zero, List.map_nil, List.sum_nil]
        omega
    | succ i =>
        have hfits : cellsBehind (width (shown name)) (names.take (i + 1)) + 3 ≤ room.toNat :=
          hshows.fits i (Nat.lt_succ_self i) hleft
        omega

/-- Two candidates are shown, and leave just the five cells of the ellipsis. -/
theorem bar_fits_iff_sample :
    (width (shown "a") + 5 ≤ (9 : Int) ∧ Additive ["a", "b", "cccc", "d"]) ∧
      render 9 ["a", "b", "cccc", "d"] = (["a", "  ", "b", "  ", "..."] : List Bytes).flatten ∧
      width (render 9 ["a", "b", "cccc", "d"]) ≤ (9 : Int) := by
  have hroom : width (shown "a") + 5 ≤ (9 : Int) := by decide +kernel
  have hadd : Additive ["a", "b", "cccc", "d"] := additive_of_isOneCell (by decide +kernel)
  obtain ⟨count, hshows, hbar, hfits, -⟩ := bar_fits_iff "a" ["b", "cccc", "d"] 9 hroom hadd
  have hcount : count = 1 := by
    rcases Nat.lt_trichotomy count 1 with hless | hone | hmore
    · obtain rfl : count = 0 := Nat.lt_one_iff.mp hless
      exact absurd (hshows.stops (by decide)).2 (by decide +kernel)
    · exact hone
    · exact absurd (hshows.fits 1 hmore (by decide)) (by decide +kernel)
  subst hcount
  exact ⟨⟨hroom, hadd⟩, hbar.trans (by decide +kernel), hfits.mpr (by decide +kernel)⟩

/--
The last candidate is shown although it does not fit, and an ellipsis although only its own
three cells are left.
-/
theorem bar_wider_than_room :
    (width (shown "a") + 5 ≤ (6 : Int) ∧ (6 : Int) < width (render 6 ["a", "bbbbbbbbbb"])) ∧
      (width (shown "a") + 5 ≤ (7 : Int) ∧
        (7 : Int) < width (render 7 ["a", "b", "cccc", "d"])) := by
  decide +kernel

end Bar

end Backtick
