import Mathlib
import Backtick.Fault.Snippet
import Backtick.Proofs.FaultBuilding
import Backtick.Proofs.Persistence

/-!
# Where snippets point

A column parts a template in two. The line around it is what stands behind the last line feed
of the first part and before the first line feed of the second, and the snippet shows this
line with a caret below the byte at the column.
-/

namespace Backtick

namespace Snippet

def lineFeed : UInt8 := '\n'.toUInt8

def stretch (text : Bytes) (start stop : Nat) : Bytes :=
  (text.drop start).take (stop - start)

/-- The line around an offset: the largest stretch with the offset in it, or at an end of it,
that has no line feed. It begins behind the last line feed before the offset. -/
structure IsLineAt (text : Bytes) (offset start stop : Nat) : Prop where
  start_le : start ≤ offset
  le_stop : offset ≤ stop
  stop_le : stop ≤ text.length
  free : lineFeed ∉ stretch text start stop
  largest : ∀ first last, first ≤ offset → offset ≤ last → last ≤ text.length →
    lineFeed ∉ stretch text first last → start ≤ first ∧ last ≤ stop
  behind_feed : start = 0 ∨ text[start - 1]? = some lineFeed

/-! ## The parts of a text -/

theorem mem_stretch {text : Bytes} {start stop i : Nat} {b : UInt8} (hstart : start ≤ i)
    (hstop : i < stop) (h : text[i]? = some b) : b ∈ stretch text start stop := by
  refine List.mem_of_getElem? (i := i - start) ?_
  rw [stretch, List.getElem?_take_of_lt (by omega), List.getElem?_drop,
    Nat.add_sub_cancel' hstart, h]

theorem stretch_append (head line tail : Bytes) :
    stretch (head ++ line ++ tail) head.length (head.length + line.length) = line := by
  rw [stretch, List.append_assoc, List.drop_left, Nat.add_sub_cancel_left, List.take_left]

theorem not_mem_firstLine (text : Bytes) : lineFeed ∉ firstLine text := by
  intro hmem
  have hfree := List.mem_takeWhile_imp hmem
  simp [isLineFeed, lineFeed] at hfree

theorem not_mem_lastLine (text : Bytes) : lineFeed ∉ lastLine text := by
  rw [lastLine, List.mem_reverse]
  exact not_mem_firstLine text.reverse

/-- Behind the first line there is nothing, or a line feed. -/
theorem exists_firstLine_append (text : Bytes) :
    ∃ tail, text = firstLine text ++ tail ∧ (tail = [] ∨ tail.head? = some lineFeed) := by
  refine ⟨text.dropWhile fun b => !isLineFeed b, List.takeWhile_append_dropWhile.symm, ?_⟩
  cases htail : text.dropWhile fun b => !isLineFeed b with
  | nil => exact .inl rfl
  | cons b rest =>
      have hstop := List.head?_dropWhile_not (fun b => !isLineFeed b) text
      rw [htail, List.head?_cons] at hstop
      exact .inr (congrArg some (by simpa [isLineFeed, lineFeed] using hstop))

/-- Before the last line there is nothing, or a line feed. -/
theorem exists_append_lastLine (text : Bytes) :
    ∃ head, text = head ++ lastLine text ∧ (head = [] ∨ head.getLast? = some lineFeed) := by
  obtain ⟨tail, htext, htail⟩ := exists_firstLine_append text.reverse
  refine ⟨tail.reverse, ?_, ?_⟩
  · rw [lastLine, ← List.reverse_append]
    exact List.reverse_eq_iff.mp htext
  · rwa [List.reverse_eq_nil_iff, List.getLast?_reverse]

theorem getElem?_append_of_getLast? {head : Bytes} {b : UInt8} (h : head.getLast? = some b)
    (rest : Bytes) : (head ++ rest)[head.length - 1]? = some b := by
  have hpos : 0 < head.length := by
    rw [List.length_pos_iff]
    rintro rfl
    cases h
  rw [List.getElem?_append_left (by omega), ← List.getLast?_eq_getElem?, h]

/-- A line between line feeds, or ends of the text, is the line around each of its offsets. -/
theorem isLineAt_append {head line tail : Bytes} (hfree : lineFeed ∉ line)
    (hhead : head = [] ∨ head.getLast? = some lineFeed)
    (htail : tail = [] ∨ tail.head? = some lineFeed) {offset : Nat}
    (hstart : head.length ≤ offset) (hstop : offset ≤ head.length + line.length) :
    IsLineAt (head ++ line ++ tail) offset head.length (head.length + line.length) where
  start_le := hstart
  le_stop := hstop
  stop_le := by
    simp only [List.length_append]
    omega
  free := by rwa [stretch_append]
  behind_feed := by
    rw [List.append_assoc]
    exact hhead.imp List.length_eq_zero_iff.mpr fun hfeed => getElem?_append_of_getLast? hfeed _
  largest := by
    intro first last hfirst hlast hlength hnone
    constructor
    · -- a stretch that begins further left has the line feed before the line in it
      obtain rfl | hfeed := hhead
      · exact Nat.zero_le _
      · by_contra hless
        refine hnone (mem_stretch (i := head.length - 1) (by omega) (by omega) ?_)
        rw [List.append_assoc]
        exact getElem?_append_of_getLast? hfeed _
    · -- and one that ends further right has the one behind it
      obtain rfl | hfeed := htail
      · simpa using hlength
      · by_contra hmore
        refine hnone (mem_stretch (i := head.length + line.length) (by omega) (by omega) ?_)
        rw [← List.length_append, List.getElem?_append_right le_rfl, Nat.sub_self,
          ← List.head?_eq_getElem?, hfeed]

namespace IsLineAt

variable {text : Bytes} {offset start stop : Nat}

/-- A byte that does not end a line is inside the line around it. -/
theorem lt_stop (h : IsLineAt text offset start stop) {b : UInt8} (hb : text[offset]? = some b)
    (hfeed : b ≠ lineFeed) : offset < stop := by
  have hstart := h.start_le
  by_contra hend
  have hlast : offset = stop := Nat.le_antisymm h.le_stop (Nat.le_of_not_lt hend)
  -- otherwise the line with this byte behind it would be a larger one
  have hlength : offset < text.length := (List.getElem?_eq_some_iff.mp hb).1
  have hlonger : stretch text start (offset + 1) = stretch text start stop ++ [b] := by
    rw [stretch, Nat.succ_sub hstart, List.take_add_one, List.getElem?_drop,
      Nat.add_sub_cancel' hstart, hb, stretch, ← hlast]
    rfl
  have hfree : lineFeed ∉ stretch text start (offset + 1) := by
    rw [hlonger]
    exact List.not_mem_append h.free (by simpa using Ne.symm hfeed)
  have hmore := (h.largest start (offset + 1) hstart (Nat.le_succ _) hlength hfree).2
  omega

theorem getElem?_stretch (h : IsLineAt text offset start stop) (hstop : offset < stop) :
    (stretch text start stop)[offset - start]? = text[offset]? := by
  have hstart := h.start_le
  rw [stretch, List.getElem?_take_of_lt (by omega), List.getElem?_drop,
    Nat.add_sub_cancel' hstart]

/-- There is one line around an offset. -/
theorem unique (h : IsLineAt text offset start stop) {start' stop' : Nat}
    (h' : IsLineAt text offset start' stop') : start = start' ∧ stop = stop' := by
  have hle := h.largest start' stop' h'.start_le h'.le_stop h'.stop_le h'.free
  have hge := h'.largest start stop h.start_le h.le_stop h.stop_le h.free
  exact ⟨Nat.le_antisymm hle.1 hge.1, Nat.le_antisymm hge.2 hle.2⟩

end IsLineAt

/-! ## The two lines of a snippet -/

def margin : Bytes := "  | "

def shownLine (part : Bytes) : Bytes :=
  margin ++ part

def caretLine (indent : Nat) : Bytes :=
  margin ++ Bytes.blanks indent ++ ['^'.toUInt8]

theorem not_mem_shownLine {part : Bytes} (h : lineFeed ∉ part) : lineFeed ∉ shownLine part :=
  List.not_mem_append (by decide) h

theorem not_mem_caretLine (indent : Nat) : lineFeed ∉ caretLine indent := by
  refine List.not_mem_append (List.not_mem_append (by decide) fun hmem => ?_) (by decide)
  exact absurd (List.eq_of_mem_replicate hmem) (by decide)

theorem getElem?_shownLine (part : Bytes) (i : Nat) :
    (shownLine part)[margin.length + i]? = part[i]? := by
  rw [shownLine, List.getElem?_append_right (Nat.le_add_right _ _), Nat.add_sub_cancel_left]

/-- The caret stands behind the margin and the blanks, and nowhere before. -/
theorem idxOf_caretLine (indent : Nat) :
    (caretLine indent).idxOf '^'.toUInt8 = margin.length + indent := by
  have hmargin : '^'.toUInt8 ∉ margin ++ Bytes.blanks indent := by
    refine List.not_mem_append (by decide) fun hmem => ?_
    exact absurd (List.eq_of_mem_replicate hmem) (by decide)
  rw [caretLine, List.idxOf_append_of_notMem hmargin, List.idxOf_cons_self, Nat.add_zero,
    List.length_append, Bytes.blanks, List.length_replicate]

/-- The line around an offset is shown, with the caret as far behind its start as the offset. -/
theorem around_eq {template : Bytes} {offset : Nat} (h : offset ≤ template.length) :
    ∃ start stop, IsLineAt template offset start stop ∧
      around template offset = shownLine (stretch template start stop) ++
        lineFeed :: (caretLine (offset - start) ++ [lineFeed]) := by
  obtain ⟨head, hbefore, hhead⟩ := exists_append_lastLine (template.take offset)
  obtain ⟨tail, hbehind, htail⟩ := exists_firstLine_append (template.drop offset)
  have hfree : lineFeed ∉ lastLine (template.take offset) ++ firstLine (template.drop offset) :=
    List.not_mem_append (not_mem_lastLine _) (not_mem_firstLine _)
  have hoffset : head.length + (lastLine (template.take offset)).length = offset := by
    rw [← List.length_append, ← hbefore, List.length_take_of_le h]
  have htemplate : template = head ++
      (lastLine (template.take offset) ++ firstLine (template.drop offset)) ++ tail := by
    rw [← List.append_assoc, ← hbefore, List.append_assoc, ← hbehind, List.take_append_drop]
  unfold around
  generalize lastLine (template.take offset) = before at *
  generalize firstLine (template.drop offset) = behind at *
  subst htemplate
  refine ⟨_, _, isLineAt_append hfree hhead htail (by omega)
    (by rw [List.length_append]; omega), ?_⟩
  have hindent : offset - head.length = before.length := by omega
  rw [stretch_append, hindent]
  simp only [shownLine, caretLine, List.append_assoc]
  rfl

end Snippet

/-! ## The snippet of a fault -/

namespace Fault

open Snippet

theorem snippet_of_column {template : Bytes} {f : Fault} {column : Nat}
    (hcolumn : f.column = column) (hpos : 0 < column) (hinside : column ≤ template.length) :
    f.snippet template = around template column := by
  have hcond : ¬(decide ((column : Int) ≤ 0) ||
      decide ((template.length : Int) < column)) = true := by
    simp only [Bool.or_eq_true, decide_eq_true_eq, not_or]
    omega
  simp only [snippet, hcolumn]
  rw [if_neg hcond, Int.toNat_natCast]

theorem snippet_eq_nil_iff (template : Bytes) (f : Fault) :
    f.snippet template = [] ↔ f.column ≤ 0 ∨ (template.length : Int) < f.column := by
  constructor
  · intro hnil
    by_contra hinside
    obtain ⟨column, hcolumn⟩ := Int.eq_ofNat_of_zero_le (a := f.column) (by omega)
    rw [snippet_of_column hcolumn (by omega) (by omega)] at hnil
    obtain ⟨start, stop, -, haround⟩ := @around_eq template column (by omega)
    rw [haround] at hnil
    cases hnil
  · intro houtside
    simp only [snippet]
    rw [if_pos (by simpa using houtside)]

/--
A fault has a snippet exactly if its column is inside the template. The snippet has two lines:
the first one shows the line of the template around the column, and the second one has a caret
as far behind its margin as the column is behind the start of that line. So the caret stands
below the byte at the column, unless that ends the line.
-/
theorem snippet_points_at_column (template : Bytes) (f : Fault) :
    (f.snippet template = [] ↔ f.column ≤ 0 ∨ (template.length : Int) < f.column) ∧
    ∀ column : Nat, f.column = column → 0 < column → column ≤ template.length →
      ∃ start stop, IsLineAt template column start stop ∧
        let shown := shownLine (stretch template start stop)
        let caret := caretLine (column - start)
        f.snippet template = shown ++ lineFeed :: (caret ++ [lineFeed]) ∧
        Bytes.splitOn lineFeed (f.snippet template) = [shown, caret, []] ∧
        ∀ b, template[column]? = some b → b ≠ lineFeed →
          let offset := margin.length + (column - start)
          column < stop ∧ shown[offset]? = some b ∧ caret.idxOf '^'.toUInt8 = offset := by
  refine ⟨snippet_eq_nil_iff template f, fun column hcolumn hpos hinside => ?_⟩
  obtain ⟨start, stop, hline, haround⟩ := around_eq hinside
  rw [snippet_of_column hcolumn hpos hinside, haround]
  refine ⟨start, stop, hline, rfl, ?_, ?_⟩
  · rw [Bytes.splitOn_append (not_mem_shownLine hline.free),
      Bytes.splitOn_append (not_mem_caretLine _)]
    rfl
  · intro b hb hfeed
    have hstop : column < stop := hline.lt_stop hb hfeed
    refine ⟨hstop, ?_, idxOf_caretLine _⟩
    rw [getElem?_shownLine, hline.getElem?_stretch hstop, hb]

def wrappedFault : Fault :=
  sayingOf "render" (built .evaluation [.wrap (some (built .grammar [.withColumn 4]))])

/-- The caret stands below the last byte of the second line. -/
theorem snippet_points_at_column_sample :
    wrappedFault.column = (4 : Nat) ∧
    Bytes.splitOn lineFeed (wrappedFault.snippet "a\nbcd\ne") = [↑"  | bcd", ↑"  |   ^", []] ∧
    (shownLine "bcd")[6]? = some 'd'.toUInt8 ∧ (caretLine 2).idxOf '^'.toUInt8 = 6 := by
  have hcolumn : wrappedFault.column = (4 : Nat) := rfl
  obtain ⟨start, stop, hline, -, hlines, hcaret⟩ :=
    (snippet_points_at_column "a\nbcd\ne" wrappedFault).2 4 hcolumn (by decide) (by decide)
  have hsecond : IsLineAt "a\nbcd\ne" 4 2 5 :=
    @isLineAt_append "a\n" "bcd" "\ne" (by decide) (.inr (by decide)) (.inr (by decide)) 4
      (by decide) (by decide)
  obtain ⟨rfl, rfl⟩ := hline.unique hsecond
  obtain ⟨-, hbyte, hindex⟩ := hcaret 'd'.toUInt8 (by decide) (by decide)
  exact ⟨hcolumn, hlines, hbyte, hindex⟩

end Fault

end Backtick
