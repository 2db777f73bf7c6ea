import Mathlib
import Backtick.Proofs.Trimming
import Backtick.Session.History

/-!
# Histories that outlive a session

A history file is read line by line and every entry is written as one line, so a
file that holds the records of some entries is read as these entries. Adding a
line keeps the file the records of the entries in memory, whether it writes one
record at the end or all of them anew. Hence a later session loads what the
earlier one had.
-/

namespace Backtick

/-! ## Lines that are written one after another -/

namespace Bytes

theorem splitOn_ne_nil (sep : UInt8) (text : Bytes) : splitOn sep text ≠ [] := by
  cases text with
  | nil => exact List.cons_ne_nil _ _
  | cons b rest =>
      rw [splitOn]
      split
      · exact List.cons_ne_nil _ _
      · split <;> exact List.cons_ne_nil _ _

theorem splitOn_append_cons (sep : UInt8) (first second : Bytes) :
    splitOn sep (first ++ sep :: second) = splitOn sep first ++ splitOn sep second := by
  induction first with
  | nil =>
      rw [List.nil_append]
      exact if_pos rfl
  | cons b first ih =>
      rw [List.cons_append, splitOn, splitOn, ih]
      split
      · rfl
      · obtain ⟨piece, pieces, hpieces⟩ := List.exists_cons_of_ne_nil (splitOn_ne_nil sep first)
        rw [hpieces]
        rfl

theorem splitOn_of_not_mem {sep : UInt8} {text : Bytes} (h : sep ∉ text) :
    splitOn sep text = [text] := by
  induction text with
  | nil => rfl
  | cons b text ih =>
      rw [List.mem_cons, not_or] at h
      rw [splitOn, if_neg (Ne.symm h.1), ih h.2]

theorem splitOn_append {sep : UInt8} {line : Bytes} (h : sep ∉ line) (rest : Bytes) :
    splitOn sep (line ++ sep :: rest) = line :: splitOn sep rest := by
  rw [splitOn_append_cons, splitOn_of_not_mem h, List.singleton_append]

end Bytes

theorem Text.lines_append_cons (before rest : Bytes) :
    lines (before ++ '\n'.toUInt8 :: rest) =
      Bytes.splitOn '\n'.toUInt8 before ++ lines rest := by
  have hrest := Bytes.splitOn_ne_nil '\n'.toUInt8 rest
  rw [lines, lines, Bytes.splitOn_append_cons, List.getLast?_append_of_ne_nil _ hrest,
    List.dropLast_append_of_ne_nil hrest]
  split <;> rfl

/-- A line feed ends a line, and the lines of the rest follow. -/
theorem Text.lines_append {line : Bytes} (h : '\n'.toUInt8 ∉ line) (rest : Bytes) :
    lines (line ++ '\n'.toUInt8 :: rest) = line :: lines rest := by
  rw [lines_append_cons, Bytes.splitOn_of_not_mem h, List.singleton_append]

theorem Text.lines_nil : lines [] = [] := rfl

/-- A line that is not ended counts, unless it is empty. -/
theorem Text.lines_of_not_mem {line : Bytes} (h : '\n'.toUInt8 ∉ line) :
    lines line = if line = [] then [] else [line] := by
  simp only [lines, Bytes.splitOn_of_not_mem h, List.getLast?_singleton, Option.some_inj,
    List.dropLast_singleton]

/-! ## Entries in a file -/

namespace HistoryEntry

theorem ofText_text (e : HistoryEntry) : ofText e.text = e := by
  obtain ⟨line, mode⟩ := e
  cases mode <;> rfl

theorem length_text (e : HistoryEntry) : e.text.length = e.line.length + 2 := by
  obtain ⟨line, mode⟩ := e
  cases mode <;> rfl

theorem lineFeed_mem_text {e : HistoryEntry} :
    '\n'.toUInt8 ∈ e.text ↔ '\n'.toUInt8 ∈ e.line := by
  have hmark : '\n'.toUInt8 ∉ e.mode.mark := by
    cases e.mode <;> decide
  rw [text, List.mem_append, or_iff_right hmark]

theorem trimmed_text {e : HistoryEntry} (h : Text.Trimmed e.line) : Text.Trimmed e.text := by
  obtain ⟨line, mode⟩ := e
  cases mode
  · exact (h.cons (a := ':'.toUInt8) (by decide) (by decide)).cons (a := 'E'.toUInt8) (by decide)
      (by decide)
  · exact (h.cons (a := ':'.toUInt8) (by decide) (by decide)).cons (a := 'C'.toUInt8) (by decide)
      (by decide)

/-- An entry whose line is trimmed, and whose record is one line that can be read. -/
structure Recordable (e : HistoryEntry) : Prop where
  trimmed : Text.Trimmed e.line
  single : '\n'.toUInt8 ∉ e.line
  short : e.line.length + 2 < Text.lineLimit

end HistoryEntry

namespace History

theorem lines_records {es : List HistoryEntry} (h : ∀ e ∈ es, '\n'.toUInt8 ∉ e.line) :
    Text.lines (es.flatMap record) = es.map HistoryEntry.text := by
  induction es with
  | nil => rfl
  | cons e es ih =>
      have he : '\n'.toUInt8 ∉ e.text :=
        mt HistoryEntry.lineFeed_mem_text.mp (h e List.mem_cons_self)
      calc
        Text.lines ((e :: es).flatMap record)
            = Text.lines (e.text ++ '\n'.toUInt8 :: es.flatMap record) := by
          rw [List.flatMap_cons, record, List.append_assoc]
          rfl
        _ = e.text :: Text.lines (es.flatMap record) := Text.lines_append he _
        _ = (e :: es).map HistoryEntry.text := by
          rw [ih fun e he => h e (List.mem_cons_of_mem _ he), List.map_cons]

theorem readableLines_records {es : List HistoryEntry} (h : ∀ e ∈ es, e.Recordable) :
    Text.readableLines (es.flatMap record) = es.map HistoryEntry.text := by
  rw [Text.readableLines, lines_records fun e he => (h e he).single, List.takeWhile_eq_self_iff]
  intro line hline
  obtain ⟨e, he, rfl⟩ := List.mem_map.mp hline
  rw [decide_eq_true_eq, HistoryEntry.length_text]
  exact (h e he).short

/-- The records of entries are read as these entries. -/
theorem entriesOf_records {es : List HistoryEntry} (h : ∀ e ∈ es, e.Recordable) :
    entriesOf (es.flatMap record) = es := by
  have htrim : (es.map HistoryEntry.text).map Text.trim = es.map HistoryEntry.text := by
    rw [List.map_map]
    exact List.map_congr_left fun e he => (HistoryEntry.trimmed_text (h e he).trimmed).trim_eq
  have hfilled : ∀ line ∈ es.map HistoryEntry.text, (!line.isEmpty) = true := by
    intro line hline
    obtain ⟨e, -, rfl⟩ := List.mem_map.mp hline
    have hlength := e.length_text
    cases htext : e.text with
    | nil => simp [htext] at hlength
    | cons b rest => rfl
  rw [entriesOf, readableLines_records h, htrim, List.filter_eq_self.mpr hfilled, List.map_map]
  exact (List.map_congr_left fun e _ => e.ofText_text).trans (List.map_id es)

theorem isReadable_records {es : List HistoryEntry} (h : ∀ e ∈ es, e.Recordable) :
    Text.isReadable (es.flatMap record) = true := by
  rw [Text.isReadable, lines_records fun e he => (h e he).single, List.all_map, List.all_eq_true]
  intro e he
  rw [Function.comp_apply, decide_eq_true_eq, HistoryEntry.length_text]
  exact (h e he).short

/-! ## A file in step with the entries in memory -/

/-- The file holds the records of the entries; without entries it may be missing. -/
structure InStep (h : History) : Prop where
  recordable : ∀ e ∈ h.entries, e.Recordable
  written : h.file = .content (h.entries.flatMap record) ∨ h.file = .missing ∧ h.entries = []

theorem load_content (text : Bytes) :
    (new (.content text)).load = ⟨entriesOf text, .content text⟩ := rfl

theorem inStep_missing : InStep (new .missing) :=
  ⟨fun _ he => absurd he List.not_mem_nil, .inr ⟨rfl, rfl⟩⟩

/-- Loading the file gives the history in memory. -/
theorem InStep.load_new {h : History} (hstep : h.InStep) : (new h.file).load = h := by
  obtain ⟨entries, file⟩ := h
  rcases hstep.written with hfile | ⟨hfile, hentries⟩
  · dsimp only at hfile
    subst hfile
    rw [load_content, entriesOf_records hstep.recordable]
  · dsimp only at hfile hentries
    subst hfile hentries
    rfl

theorem InStep.loadFault?_new {h : History} (hstep : h.InStep) :
    (new h.file).loadFault? = none := by
  rcases hstep.written with hfile | ⟨hfile, -⟩
  · rw [hfile]
    exact if_pos (isReadable_records hstep.recordable)
  · rw [hfile]
    rfl

theorem InStep.file_write {h : History} (hstep : h.InStep) (text : Bytes) :
    h.file.write text = .content text := by
  rcases hstep.written with hfile | ⟨hfile, -⟩ <;> rw [hfile] <;> rfl

theorem InStep.file_append {h : History} (hstep : h.InStep) (text : Bytes) :
    h.file.append text = .content (h.entries.flatMap record ++ text) := by
  rcases hstep.written with hfile | ⟨hfile, hentries⟩
  · rw [hfile]
    rfl
  · rw [hfile, hentries]
    rfl

theorem InStep.push {h : History} (hstep : h.InStep) {e : HistoryEntry} (he : e.Recordable) :
    (h.push e).InStep := by
  unfold History.push
  constructor
  · intro kept hkept
    dsimp only at hkept
    rcases List.mem_append.mp (List.mem_of_mem_drop hkept) with hold | hnew
    · exact hstep.recordable kept (List.mem_of_mem_erase hold)
    · rw [List.mem_singleton.mp hnew]
      exact he
  · left
    dsimp only
    split
    · exact hstep.file_write _
    · -- nothing moved and nothing was dropped, so the record of `e` is the only new one
      rename_i hkeep
      rw [Bool.or_eq_true, not_or, decide_eq_true_eq, List.contains_iff_mem] at hkeep
      obtain ⟨hmoved, hroom⟩ := hkeep
      rw [List.erase_of_not_mem hmoved] at hroom ⊢
      rw [hstep.file_append, Nat.sub_eq_zero_of_le (Nat.not_lt.mp hroom), List.drop_zero,
        List.flatMap_append, List.flatMap_singleton]

/--
A line whose entry can be read back: it holds no line feed, and what trimming leaves
of it is a line within the limit also behind its mark of two bytes.
-/
def Fits (line : Bytes) : Prop :=
  '\n'.toUInt8 ∉ line ∧ (Text.trim line).length + 2 < Text.lineLimit

theorem fits_of_length {line : Bytes} (hsingle : '\n'.toUInt8 ∉ line)
    (hshort : line.length + 2 < Text.lineLimit) : Fits line :=
  ⟨hsingle, Nat.lt_of_le_of_lt (Nat.add_le_add_right (Text.trim_sublist line).length_le 2) hshort⟩

theorem InStep.add {h : History} (hstep : h.InStep) {line : Bytes} (hline : Fits line)
    (mode : Mode) : (h.add line mode).InStep := by
  unfold History.add
  dsimp only
  split
  · exact hstep
  · exact hstep.push ⟨Text.trimmed_trim line,
      fun hmem => hline.1 ((Text.trim_sublist line).subset hmem), hline.2⟩

/-! ## Sessions one after another -/

def addAll (h : History) (added : List HistoryEntry) : History :=
  added.foldl (fun h e => h.add e.line e.mode) h

def session (file : HistoryFile) (added : List HistoryEntry) : History :=
  (new file).load.addAll added

def fileAfter (sessions : List (List HistoryEntry)) : HistoryFile :=
  sessions.foldl (fun file added => (session file added).file) .missing

theorem InStep.addAll {h : History} (hstep : h.InStep) {added : List HistoryEntry}
    (hadded : ∀ e ∈ added, Fits e.line) : (h.addAll added).InStep := by
  induction added generalizing h with
  | nil => exact hstep
  | cons e added ih =>
      obtain ⟨he, hrest⟩ := List.forall_mem_cons.mp hadded
      exact ih (hstep.add he e.mode) hrest

theorem InStep.session {h : History} (hstep : h.InStep) {added : List HistoryEntry}
    (hadded : ∀ e ∈ added, Fits e.line) : (session h.file added).InStep := by
  rw [History.session, hstep.load_new]
  exact hstep.addAll hadded

/-- Every session leaves a file that is in step with what it had in memory. -/
theorem exists_inStep_fileAfter {sessions : List (List HistoryEntry)}
    (hsessions : ∀ added ∈ sessions, ∀ e ∈ added, Fits e.line) :
    ∃ h : History, h.InStep ∧ fileAfter sessions = h.file := by
  induction sessions using List.reverseRecOn with
  | nil => exact ⟨_, inStep_missing, rfl⟩
  | append_singleton sessions added ih =>
      obtain ⟨h, hstep, hfile⟩ := ih fun earlier hearlier => hsessions earlier (by simp [hearlier])
      refine ⟨History.session h.file added, hstep.session (hsessions added (by simp)), ?_⟩
      rw [fileAfter, List.foldl_append, ← fileAfter, hfile]
      rfl

/--
However many sessions have added lines to a file that was missing at first, and
however many lines the present one has added, a new history that loads the file has
the entries of the present one, and reads them without a fault.
-/
theorem fresh_load_returns_entries (sessions : List (List HistoryEntry))
    (added : List HistoryEntry)
    (hlines : ∀ e ∈ sessions.flatten ++ added, Fits e.line) :
    (new (session (fileAfter sessions) added).file).load.entries =
        (session (fileAfter sessions) added).entries ∧
      (new (session (fileAfter sessions) added).file).loadFault? = none := by
  obtain ⟨hearlier, hadded⟩ := List.forall_mem_append.mp hlines
  obtain ⟨h, hstep, hfile⟩ := exists_inStep_fileAfter fun es hes e he =>
    hearlier e (List.mem_flatten_of_mem hes he)
  have hlast := hstep.session hadded
  rw [hfile]
  exact ⟨congrArg entries hlast.load_new, hlast.loadFault?_new⟩

/-- Lines of a first session; two of them begin with the mark of a mode. -/
def firstLines : List HistoryEntry :=
  [⟨"E:a", .template⟩, ⟨"b c", .command⟩, ⟨"E:a", .command⟩]

/-- Lines of a second session, one of them a line of the first with blanks around it. -/
def secondLines : List HistoryEntry :=
  [⟨" E:a\r", .template⟩, ⟨"C:", .command⟩]

theorem fresh_load_returns_entries_sample :
    (∀ e ∈ [firstLines].flatten ++ secondLines, Fits e.line) ∧
      (new (session (fileAfter [firstLines]) secondLines).file).load.entries =
        [⟨"b c", .command⟩, ⟨"E:a", .command⟩, ⟨"E:a", .template⟩, ⟨"C:", .command⟩] := by
  have hlines : ∀ e ∈ [firstLines].flatten ++ secondLines, Fits e.line := by
    have hshort : ∀ e ∈ [firstLines].flatten ++ secondLines,
        '\n'.toUInt8 ∉ e.line ∧ e.line.length + 2 < Text.lineLimit := by
      decide
    exact fun e he => fits_of_length (hshort e he).1 (hshort e he).2
  refine ⟨hlines, (fresh_load_returns_entries _ _ hlines).1.trans ?_⟩
  cbv

/-! ## A line that is too long with its mark -/

theorem trimmed_replicate (n : Nat) : Text.Trimmed (List.replicate n 'a'.toUInt8) := by
  induction n with
  | zero => exact Text.trimmed_nil
  | succ n ih => exact ih.cons (by decide) (by decide)

/-- An entry beyond the limit is written to the file, but not read from it. -/
theorem entriesOf_record_of_long {e : HistoryEntry} (hsingle : '\n'.toUInt8 ∉ e.line)
    (hlong : Text.lineLimit ≤ e.line.length + 2) : entriesOf (record e) = [] := by
  have hlines : Text.lines (record e) = [e.text] := by
    rw [← List.flatMap_singleton record e, lines_records fun _ he => ?_, List.map_singleton]
    rwa [List.mem_singleton.mp he]
  have hread : Text.readableLines (record e) = [] := by
    rw [Text.readableLines, hlines, List.takeWhile_cons_of_neg]
    rw [decide_eq_true_eq, HistoryEntry.length_text]
    exact Nat.not_lt.mpr hlong
  rw [entriesOf, hread]
  rfl

/-- The first line of all is the only entry, and the file is its record. -/
theorem session_missing {line : Bytes} {mode : Mode} (htrimmed : Text.Trimmed line)
    (hne : line ≠ []) :
    session .missing [⟨line, mode⟩] = ⟨[⟨line, mode⟩], .content (record ⟨line, mode⟩)⟩ := by
  have hempty : line.isEmpty = false := List.isEmpty_eq_false_iff.mpr hne
  change (new .missing).add line mode = _
  rw [add, htrimmed.trim_eq]
  simp [hempty, new, push, limit, HistoryFile.append]

/-- A line of 65534 bytes, which is within the limit for lines by two bytes. -/
def longLine : Bytes :=
  List.replicate 65534 'a'.toUInt8

theorem length_longLine : longLine.length = 65534 :=
  List.length_replicate

theorem lineFeed_not_mem_longLine : '\n'.toUInt8 ∉ longLine :=
  fun hmem => absurd (List.eq_of_mem_replicate hmem) (by decide)

/-- A line below the limit is written, but lost when its mark takes it to the limit. -/
theorem fresh_load_loses_long_line :
    ('\n'.toUInt8 ∉ longLine ∧ longLine.length < Text.lineLimit) ∧
      (session (fileAfter []) [⟨longLine, .template⟩]).entries = [⟨longLine, .template⟩] ∧
      (new (session (fileAfter []) [⟨longLine, .template⟩]).file).load.entries = [] := by
  have hlong : Text.lineLimit ≤ longLine.length + 2 := by
    rw [length_longLine, Text.lineLimit]
  have hne : longLine ≠ [] := by
    apply List.ne_nil_of_length_pos
    rw [length_longLine]
    decide
  have hsession : session (fileAfter []) [⟨longLine, .template⟩] =
      ⟨[⟨longLine, .template⟩], .content (record ⟨longLine, .template⟩)⟩ :=
    session_missing (trimmed_replicate 65534) hne
  refine ⟨⟨lineFeed_not_mem_longLine, by rw [length_longLine, Text.lineLimit]; decide⟩, ?_⟩
  rw [hsession, load_content, entriesOf_record_of_long lineFeed_not_mem_longLine hlong]
  exact ⟨rfl, rfl⟩

end History

end Backtick
