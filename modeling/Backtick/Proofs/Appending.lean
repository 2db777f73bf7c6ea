import Mathlib
import Backtick.Proofs.Persistence

/-!
# Lines written at the end of a file

A new entry is written behind whatever a history file holds. If the file ends with a
line feed, or with nothing but white space behind one, its lines are read as before,
and the new entry after them. Behind a last line that no line feed ends, the entry
becomes a part of that line, and the two are read as one.
-/

namespace Backtick

namespace Text

/-! ## Lines that are ended and one that is not -/

/-- The lines of a text that are ended, with their line feeds. -/
def endedLines (text : Bytes) : Bytes :=
  text.rdropWhile (· ≠ '\n'.toUInt8)

/-- What stands behind the last line feed of a text. -/
def openLine (text : Bytes) : Bytes :=
  text.rtakeWhile (· ≠ '\n'.toUInt8)

theorem endedLines_append_openLine (text : Bytes) : endedLines text ++ openLine text = text :=
  List.rdropWhile_append_rtakeWhile

theorem lineFeed_not_mem_openLine (text : Bytes) : '\n'.toUInt8 ∉ openLine text :=
  fun hmem => absurd (List.mem_rtakeWhile_imp hmem) (by decide)

theorem endedLines_cases (text : Bytes) :
    endedLines text = [] ∨ ∃ before, endedLines text = before ++ ['\n'.toUInt8] := by
  by_cases hnil : endedLines text = []
  · exact .inl hnil
  · have hlast := List.rdropWhile_last_not _ _ hnil
    rw [decide_eq_true_eq, not_not] at hlast
    refine .inr ⟨(endedLines text).dropLast, ?_⟩
    rw [← hlast]
    exact (List.dropLast_append_getLast hnil).symm

/-- What follows ended lines does not change them. -/
theorem lines_endedLines_append (text rest : Bytes) :
    lines (endedLines text ++ rest) = lines (endedLines text) ++ lines rest := by
  rcases endedLines_cases text with hnil | ⟨before, hbefore⟩
  · rw [hnil, lines_nil, List.nil_append, List.nil_append]
  · rw [hbefore, List.append_assoc, List.singleton_append, lines_append_cons, lines_append_cons,
      lines_nil, List.append_nil]

theorem isReadable_parts {text : Bytes} (h : isReadable text = true) :
    isReadable (endedLines text) = true ∧ (openLine text).length < lineLimit := by
  rw [← endedLines_append_openLine text, isReadable, lines_endedLines_append, List.all_append,
    Bool.and_eq_true, lines_of_not_mem (lineFeed_not_mem_openLine text)] at h
  refine ⟨h.1, ?_⟩
  by_cases hnil : openLine text = []
  · rw [hnil]
    decide
  · simpa [hnil] using h.2

/-! ## White space in front of a text -/

open Utf8

theorem trim_eq_nil_iff (text : Bytes) :
    trim text = [] ↔ ∀ p ∈ pieces text, isBlankPiece p = true := by
  rw [← List.dropWhile_eq_nil_iff]
  constructor
  · intro hnil
    have hpieces : ((pieces text).dropWhile isBlankPiece).rdropWhile isBlankPiece = [] := by
      rw [← pieces_trimLeft, ← pieces_trimRight, ← trim, hnil, pieces_nil]
    -- nothing but white space is left, but what is left does not begin with any
    have hblank := List.rdropWhile_eq_nil_iff.mp hpieces
    rw [← List.dropWhile_eq_nil_iff, List.dropWhile_idempotent] at hblank
    exact hblank
  · intro hnil
    have hleft : trimLeft text = [] := by rw [trimLeft, hnil]; rfl
    rw [trim, hleft, trimRight, pieces_nil]
    rfl

/-- White space in front of a text without any is trimmed, and no more. -/
theorem trim_append_of_blank {blank rest : Bytes} {a : UInt8} (hblank : trim blank = [])
    (ha : a < 0x80) (hrest : Trimmed (a :: rest)) : trim (blank ++ a :: rest) = a :: rest := by
  have hleft : trimLeft (blank ++ a :: rest) = a :: rest := by
    have hall := (trim_eq_nil_iff blank).mp hblank
    rw [trimLeft, pieces_append ha, List.dropWhile_append_of_pos hall, hrest.left, join_pieces]
  rw [trim, hleft, trimRight]
  exact (congrArg join hrest.right).trans (join_pieces _)

end Text

/-! ## Entries of ended lines and of an open one -/

theorem HistoryEntry.exists_text_eq_cons (e : HistoryEntry) :
    ∃ a rest, e.text = a :: rest ∧ a < 0x80 ∧ Text.isBlank (Char.ofNat a.toNat) = false := by
  obtain ⟨line, mode⟩ := e
  cases mode
  · exact ⟨'E'.toUInt8, ':'.toUInt8 :: line, rfl, by decide, by decide⟩
  · exact ⟨'C'.toUInt8, ':'.toUInt8 :: line, rfl, by decide, by decide⟩

/-- A record is not blank, whatever stands before it in its line. -/
theorem HistoryEntry.trim_append_text_ne_nil (before : Bytes) (e : HistoryEntry) :
    Text.trim (before ++ e.text) ≠ [] := by
  obtain ⟨a, rest, htext, ha, hfilled⟩ := e.exists_text_eq_cons
  intro hnil
  have hblank := (Text.trim_eq_nil_iff _).mp hnil (.char (Char.ofNat a.toNat)) (by
    rw [htext, Utf8.pieces_append ha,
      Utf8.pieces_char (Utf8.lead?_one (UInt8.lt_iff_toNat_lt.mp ha) rest)]
    exact List.mem_append_right _ List.mem_cons_self)
  rw [Text.isBlankPiece, hfilled] at hblank
  cases hblank

namespace History

/-- The entry that a line of a file is read as; none for a blank line. -/
def entryOf? (line : Bytes) : Option HistoryEntry :=
  if Text.trim line = [] then none else some (HistoryEntry.ofText (Text.trim line))

theorem entriesOf_eq_filterMap (text : Bytes) :
    entriesOf text = (Text.readableLines text).filterMap entryOf? := by
  rw [entriesOf]
  induction Text.readableLines text with
  | nil => rfl
  | cons line lines ih =>
      rw [List.map_cons, List.filter_cons, List.filterMap_cons, entryOf?]
      by_cases hblank : Text.trim line = []
      · rw [if_pos hblank, hblank]
        exact ih
      · have hfilled : (!(Text.trim line).isEmpty) = true := by simpa using hblank
        rw [if_neg hblank, if_pos hfilled, List.map_cons, ih]

theorem entriesOf_endedLines_append {text : Bytes}
    (h : Text.isReadable (Text.endedLines text) = true) (rest : Bytes) :
    entriesOf (Text.endedLines text ++ rest) =
      entriesOf (Text.endedLines text) ++ entriesOf rest := by
  have hall := List.all_eq_true.mp h
  rw [entriesOf_eq_filterMap, entriesOf_eq_filterMap, entriesOf_eq_filterMap,
    Text.readableLines, Text.readableLines, Text.readableLines, Text.lines_endedLines_append,
    List.takeWhile_append_of_pos hall, List.filterMap_append, List.takeWhile_eq_self_iff.mpr hall]

/-- A single line is read as its entry, if it is within the limit. -/
theorem filterMap_takeWhile_singleton (line : Bytes) :
    ([line].takeWhile fun line => line.length < Text.lineLimit).filterMap entryOf? =
      if line.length < Text.lineLimit then (entryOf? line).toList else [] := by
  by_cases hshort : line.length < Text.lineLimit
  · rw [List.takeWhile_cons, decide_eq_true hshort, if_pos hshort]
    cases hentry : entryOf? line <;> simp [hentry]
  · rw [List.takeWhile_cons, decide_eq_false hshort, if_neg hshort]
    rfl

theorem entriesOf_concat_lineFeed {line : Bytes} (h : '\n'.toUInt8 ∉ line) :
    entriesOf (line ++ ['\n'.toUInt8]) =
      if line.length < Text.lineLimit then (entryOf? line).toList else [] := by
  rw [entriesOf_eq_filterMap, Text.readableLines, Text.lines_append h, Text.lines_nil,
    filterMap_takeWhile_singleton]

theorem entriesOf_of_not_mem {line : Bytes} (h : '\n'.toUInt8 ∉ line)
    (hshort : line.length < Text.lineLimit) : entriesOf line = (entryOf? line).toList := by
  rw [entriesOf_eq_filterMap, Text.readableLines, Text.lines_of_not_mem h]
  by_cases hnil : line = []
  · have hnone : entryOf? [] = none := if_pos Text.trimmed_nil.trim_eq
    rw [if_pos hnil, hnil, hnone]
    rfl
  · rw [if_neg hnil, filterMap_takeWhile_singleton, if_pos hshort]

/-! ## An entry behind them -/

/-- A new entry is written at the end of the file, as long as there is room for it. -/
theorem add_of_not_mem {h : History} {line : Bytes} {mode : Mode} (hfilled : Text.trim line ≠ [])
    (hnew : ⟨Text.trim line, mode⟩ ∉ h.entries) (hroom : h.entries.length < limit) :
    h.add line mode =
      ⟨h.entries ++ [⟨Text.trim line, mode⟩], h.file.append (record ⟨Text.trim line, mode⟩)⟩ := by
  have hchange : ¬ ((Text.trim line).isEmpty ||
      decide (h.entries.getLast? = some ⟨Text.trim line, mode⟩)) = true := by
    rw [Bool.or_eq_true, decide_eq_true_eq, List.isEmpty_iff]
    exact not_or.mpr ⟨hfilled, fun hlast => hnew (List.mem_of_getLast? hlast)⟩
  have hlength : (h.entries ++ [(⟨Text.trim line, mode⟩ : HistoryEntry)]).length ≤ limit := by
    rw [List.length_append, List.length_singleton]
    exact hroom
  rw [add, if_neg hchange, push, List.erase_of_not_mem hnew,
    Nat.sub_eq_zero_of_le hlength, List.drop_zero, if_neg]
  rw [Bool.or_eq_true, decide_eq_true_eq, List.contains_iff_mem]
  exact not_or.mpr ⟨hnew, Nat.not_lt.mpr hlength⟩

/-- The entries that a new history reads after a line was added to a file with some content. -/
def readBack (text line : Bytes) (mode : Mode) : List HistoryEntry :=
  (new ((new (.content text)).load.add line mode).file).load.entries

section

variable {text line : Bytes} {mode : Mode}

theorem readBack_eq (hfilled : Text.trim line ≠ [])
    (hnew : ⟨Text.trim line, mode⟩ ∉ entriesOf text) (hroom : (entriesOf text).length < limit) :
    readBack text line mode = entriesOf (text ++ record ⟨Text.trim line, mode⟩) := by
  rw [readBack, load_content, add_of_not_mem hfilled hnew hroom]
  rfl

/-- The record of an entry goes on with the open line of a text, and ends it. -/
theorem entriesOf_append_record (h : Text.isReadable (Text.endedLines text) = true)
    {e : HistoryEntry} (he : '\n'.toUInt8 ∉ e.line) :
    entriesOf (text ++ record e) =
      entriesOf (Text.endedLines text) ++
        if (Text.openLine text ++ e.text).length < Text.lineLimit then
          (entryOf? (Text.openLine text ++ e.text)).toList
        else [] := by
  have hline : '\n'.toUInt8 ∉ Text.openLine text ++ e.text := by
    rw [List.mem_append, HistoryEntry.lineFeed_mem_text]
    exact not_or.mpr ⟨Text.lineFeed_not_mem_openLine text, he⟩
  have hparts : text ++ record e =
      Text.endedLines text ++ ((Text.openLine text ++ e.text) ++ ['\n'.toUInt8]) := by
    conv_lhs => rw [← Text.endedLines_append_openLine text]
    rw [record, List.append_assoc, List.append_assoc]
    rfl
  rw [hparts, entriesOf_endedLines_append h, entriesOf_concat_lineFeed hline]

theorem entryOf?_append_text (before : Bytes) (e : HistoryEntry) :
    entryOf? (before ++ e.text) = some (HistoryEntry.ofText (Text.trim (before ++ e.text))) :=
  if_neg (e.trim_append_text_ne_nil before)

theorem entryOf?_append_text_of_blank {blank : Bytes} (hblank : Text.trim blank = [])
    {e : HistoryEntry} (he : Text.Trimmed e.line) : entryOf? (blank ++ e.text) = some e := by
  obtain ⟨a, rest, htext, ha, -⟩ := e.exists_text_eq_cons
  have htrimmed := HistoryEntry.trimmed_text he
  rw [entryOf?_append_text, htext, Text.trim_append_of_blank hblank ha (htext ▸ htrimmed),
    ← htext, e.ofText_text]

theorem entriesOf_eq_append (h : Text.isReadable text = true) :
    entriesOf text =
      entriesOf (Text.endedLines text) ++ (entryOf? (Text.openLine text)).toList := by
  obtain ⟨hended, hshort⟩ := Text.isReadable_parts h
  rw [← entriesOf_of_not_mem (Text.lineFeed_not_mem_openLine text) hshort,
    ← entriesOf_endedLines_append hended, Text.endedLines_append_openLine]

/--
A line that is added to a file with fewer entries than the limit, and is not among them, is
read back behind them exactly if the file has nothing but white space behind its last line
feed, and this with the record of the line is within the limit for lines. Else the last line
of the file and the new one, if they are within the limit together, are read as one.
-/
theorem added_line_read_back_iff (hreadable : Text.isReadable text = true)
    (hroom : (entriesOf text).length < limit) (hsingle : '\n'.toUInt8 ∉ line)
    (hfilled : Text.trim line ≠ []) (hnew : ⟨Text.trim line, mode⟩ ∉ entriesOf text) :
    (readBack text line mode = (new (.content text)).load.entries ++ [⟨Text.trim line, mode⟩] ↔
      Text.trim (Text.openLine text) = [] ∧
        (Text.openLine text).length + (Text.trim line).length + 2 < Text.lineLimit) ∧
    (Text.trim (Text.openLine text) ≠ [] →
      (Text.openLine text).length + (Text.trim line).length + 2 < Text.lineLimit →
        readBack text line mode = (new (.content text)).load.entries.dropLast ++
          [.ofText (Text.trim (Text.openLine text ++ mode.mark ++ Text.trim line))]) := by
  have hended := (Text.isReadable_parts hreadable).1
  have htrim : '\n'.toUInt8 ∉ Text.trim line :=
    fun hmem => hsingle ((Text.trim_sublist line).subset hmem)
  have hlength : (Text.openLine text ++ HistoryEntry.text ⟨Text.trim line, mode⟩).length =
      (Text.openLine text).length + (Text.trim line).length + 2 := by
    rw [List.length_append, HistoryEntry.length_text, Nat.add_assoc]
  rw [readBack_eq hfilled hnew hroom, entriesOf_append_record hended htrim, hlength, load_content,
    entriesOf_eq_append hreadable]
  by_cases hblank : Text.trim (Text.openLine text) = []
  · have hopen : entryOf? (Text.openLine text) = none := if_pos hblank
    rw [hopen, entryOf?_append_text_of_blank hblank (Text.trimmed_trim line)]
    refine ⟨?_, fun hne => absurd hblank hne⟩
    by_cases hfits : (Text.openLine text).length + (Text.trim line).length + 2 < Text.lineLimit
    · simp [hblank, hfits]
    · simp [hblank, hfits]
  · have hopen : entryOf? (Text.openLine text) =
        some (HistoryEntry.ofText (Text.trim (Text.openLine text))) := if_neg hblank
    rw [hopen, entryOf?_append_text]
    constructor
    · -- there is at most one entry behind the ended lines, where two are wanted
      refine ⟨fun heq => ?_, fun hboth => absurd hboth.1 hblank⟩
      have hlengths := congrArg List.length heq
      split at hlengths <;> simp at hlengths
    · intro _ hfits
      rw [if_pos hfits, Option.toList_some, Option.toList_some, List.dropLast_concat,
        List.append_assoc]
      rfl

/-- A file with a line without a mark and a blank line, behind which nothing ends a line. -/
def editedFile : Bytes := "plain\nC:quit\n\n  \t"

theorem added_line_read_back_iff_sample :
    (Text.isReadable editedFile = true ∧ (entriesOf editedFile).length < limit ∧
      '\n'.toUInt8 ∉ (" x\t" : Bytes) ∧ Text.trim " x\t" ≠ [] ∧
      ⟨Text.trim " x\t", .command⟩ ∉ entriesOf editedFile) ∧
    readBack editedFile " x\t" .command =
      [⟨"plain", .template⟩, ⟨"quit", .command⟩, ⟨"x", .command⟩] := by
  have hreadable : Text.isReadable editedFile = true := by decide +kernel
  have hentries : entriesOf editedFile = [⟨"plain", .template⟩, ⟨"quit", .command⟩] := by
    decide +kernel
  have hnew : ⟨Text.trim " x\t", .command⟩ ∉ entriesOf editedFile := by
    rw [hentries]
    decide +kernel
  have hroom : (entriesOf editedFile).length < limit := by
    rw [hentries]
    decide
  have hsingle : '\n'.toUInt8 ∉ (" x\t" : Bytes) := by decide
  have hfilled : Text.trim " x\t" ≠ [] := by decide +kernel
  have hback := (added_line_read_back_iff hreadable hroom hsingle hfilled hnew).1.mpr
    (by decide +kernel)
  refine ⟨⟨hreadable, hroom, hsingle, hfilled, hnew⟩, hback.trans ?_⟩
  rw [load_content, hentries]
  decide +kernel

/-- The last line of a file and a line added behind it are read as one line. -/
theorem added_line_joins_open_line :
    (Text.isReadable "E:a" = true ∧ (new (.content "E:a")).load.entries = [⟨"a", .template⟩]) ∧
      readBack "E:a" "b" .template = [⟨"aE:b", .template⟩] ∧
      readBack "E:a" "b" .template ≠
        (new (.content "E:a")).load.entries ++ [⟨"b", .template⟩] := by
  decide +kernel

end

end History

end Backtick
