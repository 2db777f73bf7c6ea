import Mathlib
import Backtick.Proofs.WordRange

/-!
# Completing a word

The word that is completed lies between characters of the line, has no character in it
that ends words, and has one on either side or none at all. It is found from the number
of characters before the cursor, taken as a number of bytes, and the cursor is put
behind a name in the same way: both are right as long as the characters that are
counted have one byte each.
-/

namespace Backtick

/-! ## Bytes and characters -/

namespace Utf8

/-- Characters part where a text part that ends with a byte below 128 ends. -/
theorem exists_split_behind {cs : List Char} {xs ys : Bytes} (h : ofChars cs = xs ++ ys)
    (hxs : ∀ b ∈ xs.getLast?, b < 0x80) :
    ∃ before after, cs = before ++ after ∧ ofChars before = xs ∧ ofChars after = ys := by
  rcases List.eq_nil_or_concat' xs with rfl | ⟨init, b, rfl⟩
  · exact ⟨[], cs, rfl, rfl, h⟩
  · have hb : b < 0x80 := hxs b List.getLast?_concat
    rw [List.append_assoc, List.singleton_append] at h
    obtain ⟨before, after, rfl, rfl, rfl⟩ := exists_split_of_ofChars hb h
    refine ⟨before ++ [Char.ofNat b.toNat], after, by simp, ?_, rfl⟩
    rw [ofChars_append, ofChars, ofChars, List.flatMap_singleton,
      encode_one (UInt8.lt_iff_toNat_lt.mp hb)]

/-- Characters part where a text part that begins with a byte below 128 begins. -/
theorem exists_split_before {cs : List Char} {xs ys : Bytes} (h : ofChars cs = xs ++ ys)
    (hys : ∀ b ∈ ys.head?, b < 0x80) :
    ∃ before after, cs = before ++ after ∧ ofChars before = xs ∧ ofChars after = ys := by
  cases ys with
  | nil => exact ⟨cs, [], (List.append_nil cs).symm, by rwa [List.append_nil] at h, rfl⟩
  | cons b ys =>
      have hb : b < 0x80 := hys b rfl
      obtain ⟨before, after, rfl, rfl, rfl⟩ := exists_split_of_ofChars hb h
      refine ⟨before, Char.ofNat b.toNat :: after, rfl, rfl, ?_⟩
      rw [ofChars, List.flatMap_cons, encode_one (UInt8.lt_iff_toNat_lt.mp hb)]
      rfl

theorem length_le_ofChars (cs : List Char) : cs.length ≤ (ofChars cs).length := by
  induction cs with
  | nil => exact le_rfl
  | cons c cs ih =>
      have hpos := c.utf8Size_pos
      rw [ofChars, List.flatMap_cons, ← ofChars, List.length_append, String.length_utf8EncodeChar,
        List.length_cons]
      omega

theorem encode_of_lt {c : Char} (h : c.toNat < 0x80) :
    String.utf8EncodeChar c = [UInt8.ofNat c.toNat] := by
  have hencode := utf8EncodeChar_ofNat (show c.toNat.isValidChar from c.valid)
  rwa [Char.ofNat_toNat, if_pos (Nat.le_of_lt_succ h)] at hencode

theorem length_encode_eq_one_iff (c : Char) :
    (String.utf8EncodeChar c).length = 1 ↔ ∀ b ∈ String.utf8EncodeChar c, b < 0x80 := by
  constructor
  · intro h b hb
    rw [String.length_utf8EncodeChar, Char.utf8Size_eq_one_iff, UInt32.le_iff_toNat_le] at h
    have hsmall : c.toNat < 0x80 := Nat.lt_succ_of_le h
    rw [encode_of_lt hsmall, List.mem_singleton] at hb
    rw [hb, UInt8.lt_iff_toNat_lt, UInt8.toNat_ofNat_of_lt' (hsmall.trans (by decide))]
    exact hsmall
  · intro h
    obtain ⟨a, tail, hencode, -⟩ := lead?_encode c
    have ha : a ∈ String.utf8EncodeChar c := by
      rw [hencode]
      exact List.mem_cons_self
    rw [eq_ofNat_of_mem ha (h a ha), encode_one (UInt8.lt_iff_toNat_lt.mp (h a ha))]
    rfl

/-- Characters have as many bytes as there are of them exactly if each has one byte. -/
theorem length_ofChars_eq_iff (cs : List Char) :
    (ofChars cs).length = cs.length ↔ ∀ b ∈ ofChars cs, b < 0x80 := by
  induction cs with
  | nil => simp [ofChars]
  | cons c cs ih =>
      have hpos := c.utf8Size_pos
      have hle := length_le_ofChars cs
      have hone := length_encode_eq_one_iff c
      rw [String.length_utf8EncodeChar] at hone
      rw [ofChars, List.flatMap_cons, ← ofChars, List.forall_mem_append, ← ih, ← hone,
        List.length_append, String.length_utf8EncodeChar, List.length_cons]
      omega

end Utf8

/-! ## Characters that end words -/

namespace Word

def isBoundaryChar (c : Char) : Bool :=
  c.toNat < 0x80 && isBoundary (UInt8.ofNat c.toNat)

theorem isBoundaryChar_of_mem {b : UInt8} {c : Char} (hb : b ∈ String.utf8EncodeChar c)
    (hboundary : isBoundary b) : isBoundaryChar c := by
  obtain rfl := Utf8.eq_ofNat_of_mem hb (lt_of_isBoundary hboundary)
  clear hb
  revert b
  decide +kernel

theorem encode_of_isBoundaryChar {c : Char} (h : isBoundaryChar c) :
    ∃ b, isBoundary b ∧ String.utf8EncodeChar c = [b] := by
  rw [isBoundaryChar, Bool.and_eq_true, decide_eq_true_eq] at h
  exact ⟨_, h.2, Utf8.encode_of_lt h.1⟩

theorem isBoundaryChar_of_getLast? {cs : List Char} {c : Char} (hc : c ∈ cs.getLast?)
    (h : ∀ b ∈ (Utf8.ofChars cs).getLast?, isBoundary b) : isBoundaryChar c := by
  obtain ⟨init, rfl⟩ := List.getLast?_eq_some_iff.mp hc
  obtain ⟨a, tail, hencode, -⟩ := Utf8.lead?_encode c
  obtain ⟨b, hb⟩ : ∃ b, (String.utf8EncodeChar c).getLast? = some b := by
    rw [hencode, List.getLast?_eq_some_getLast (List.cons_ne_nil a tail)]
    exact ⟨_, rfl⟩
  refine isBoundaryChar_of_mem (List.mem_of_getLast? hb) (h b ?_)
  rw [Utf8.ofChars_append, Utf8.ofChars, Utf8.ofChars, List.flatMap_singleton, hencode,
    List.getLast?_append_cons, ← hencode]
  exact hb

theorem isBoundaryChar_of_head? {cs : List Char} {c : Char} (hc : c ∈ cs.head?)
    (h : ∀ b ∈ (Utf8.ofChars cs).head?, isBoundary b) : isBoundaryChar c := by
  obtain ⟨rest, rfl⟩ := List.head?_eq_some_iff.mp hc
  obtain ⟨a, tail, hencode, -⟩ := Utf8.lead?_encode c
  refine isBoundaryChar_of_mem (by rw [hencode]; exact List.mem_cons_self) (h a ?_)
  rw [Utf8.ofChars, List.flatMap_cons, hencode]
  rfl

/-- The characters before, in and behind a word: it lies between characters, no character ends it
within, and on either side one does, or the text ends. -/
structure Splits (w : Word) (before word after : List Char) : Prop where
  start : w.start = (Utf8.ofChars before).length
  stop : w.stop = (Utf8.ofChars (before ++ word)).length
  inside : ∀ c ∈ word, isBoundaryChar c = false
  left : ∀ c ∈ before.getLast?, isBoundaryChar c
  right : ∀ c ∈ after.head?, isBoundaryChar c

def back (text : Bytes) (cursor : Nat) : Bytes :=
  (text.drop cursor).dropWhile fun b => !isBoundary b

/-- The bytes around a position that end no word. -/
def middle (text : Bytes) (cursor : Nat) : Bytes :=
  (text.take cursor).rtakeWhile (fun b => !isBoundary b) ++
    (text.drop cursor).takeWhile fun b => !isBoundary b

theorem front_append_middle_append_back (text : Bytes) (cursor : Nat) :
    front text cursor ++ (middle text cursor ++ back text cursor) = text := by
  rw [front, middle, back, List.append_assoc, List.takeWhile_append_dropWhile,
    ← List.append_assoc, List.rdropWhile_append_rtakeWhile, List.take_append_drop]

theorem not_isBoundary_of_mem_middle {text : Bytes} {cursor : Nat} {b : UInt8}
    (h : b ∈ middle text cursor) : isBoundary b = false := by
  have hnot : (!isBoundary b) = true := by
    rcases List.mem_append.mp h with h | h
    · exact @List.mem_rtakeWhile_imp _ (fun b => !isBoundary b) _ _ h
    · exact @List.mem_takeWhile_imp _ (fun b => !isBoundary b) _ _ h
  rwa [Bool.not_eq_true'] at hnot

theorem length_front_middle (text : Bytes) (cursor : Nat) :
    (front text cursor ++ middle text cursor).length = (around text cursor).stop := by
  rw [front, middle, ← List.append_assoc, List.rdropWhile_append_rtakeWhile, List.length_append]
  rfl

theorem isBoundary_of_getLast?_front {text : Bytes} {cursor : Nat} {b : UInt8}
    (h : b ∈ (front text cursor).getLast?) : isBoundary b := by
  rcases front_cases text cursor with hnil | ⟨before, b', hfront, hb'⟩
  · rw [hnil] at h
    cases h
  · rw [hfront, List.getLast?_concat] at h
    exact Option.some.inj h ▸ hb'

theorem isBoundary_of_head?_back {text : Bytes} {cursor : Nat} {b : UInt8}
    (h : b ∈ (back text cursor).head?) : isBoundary b := by
  have hnot := List.head?_dropWhile_not (fun b => !isBoundary b) (text.drop cursor)
  rw [back] at h
  rw [h] at hnot
  simpa using hnot

/-- The word around a position of characters. -/
theorem exists_splits {cs : List Char} {text : Bytes} (h : Utf8.ofChars cs = text) (cursor : Nat) :
    ∃ before word after, cs = before ++ (word ++ after) ∧
      (around text cursor).Splits before word after := by
  -- The bytes that end words are below 128, so that the characters part at both ends.
  have hparts := front_append_middle_append_back text cursor
  obtain ⟨before, rest, rfl, hbefore, hrest⟩ := Utf8.exists_split_behind (h.trans hparts.symm)
    fun b hb => lt_of_isBoundary (isBoundary_of_getLast?_front hb)
  obtain ⟨word, after, rfl, hword, hafter⟩ := Utf8.exists_split_before hrest
    fun b hb => lt_of_isBoundary (isBoundary_of_head?_back hb)
  refine ⟨before, word, after, rfl, ?_, ?_, ?_, ?_, ?_⟩
  · rw [hbefore, length_front]
  · rw [Utf8.ofChars_append, hbefore, hword, length_front_middle]
  · intro c hc
    by_contra hends
    rw [Bool.not_eq_false] at hends
    obtain ⟨b, hb, hencode⟩ := encode_of_isBoundaryChar hends
    have hmem : b ∈ middle text cursor := by
      rw [← hword]
      exact List.mem_flatMap.mpr ⟨c, hc, by rw [hencode]; exact List.mem_cons_self⟩
    rw [not_isBoundary_of_mem_middle hmem] at hb
    cases hb
  · refine fun c hc => isBoundaryChar_of_getLast? hc fun b hb => ?_
    rw [hbefore] at hb
    exact isBoundary_of_getLast?_front hb
  · refine fun c hc => isBoundaryChar_of_head? hc fun b hb => ?_
    rw [hafter] at hb
    exact isBoundary_of_head?_back hb

/-- A number of bytes belongs to one word exactly if none of them ends it. -/
theorem le_run_iff {text : Bytes} {n : Nat} (hn : n ≤ text.length) :
    n ≤ run text ↔ ∀ b ∈ text.take n, isBoundary b = false := by
  induction text generalizing n with
  | nil => simpa [run] using hn
  | cons b text ih =>
      cases n with
      | zero => simp
      | succ n =>
          have hn : n ≤ text.length := Nat.le_of_succ_le_succ hn
          rw [List.take_succ_cons, List.forall_mem_cons, ← ih hn, run, run]
          cases hb : isBoundary b <;> simp [hb]

/-- An offset from a position on lies in the word there exactly if no byte between ends it. -/
theorem le_stop_around_iff {text : Bytes} {cursor offset : Nat} (hoffset : offset ≤ text.length)
    (hcursor : min cursor text.length ≤ offset) :
    offset ≤ (around text cursor).stop ↔
      ∀ b ∈ (text.take offset).drop cursor, isBoundary b = false := by
  have hrun := @le_run_iff (text.drop cursor) (offset - cursor) (by
    rw [List.length_drop]
    omega)
  rw [List.drop_take, ← hrun]
  simp only [around, List.length_take]
  omega

end Word

namespace Field

def offset (f : Field) : Nat :=
  (Utf8.ofChars (f.value.take f.cursor)).length

theorem offset_le (f : Field) : f.offset ≤ f.text.length := by
  have hparts : Utf8.ofChars (f.value.take f.cursor) ++ Utf8.ofChars (f.value.drop f.cursor) =
      f.text := by
    rw [← Utf8.ofChars_append, List.take_append_drop, text]
  rw [offset, ← hparts, List.length_append]
  exact Nat.le_add_right _ _

/-- The offset of the cursor is not less than the number of characters before it. -/
theorem min_cursor_le_offset (f : Field) : min f.cursor f.text.length ≤ f.offset := by
  by_cases hcursor : f.cursor ≤ f.value.length
  · have hle := Utf8.length_le_ofChars (f.value.take f.cursor)
    rw [List.length_take_of_le hcursor] at hle
    exact (Nat.min_le_left _ _).trans hle
  · rw [offset, List.take_of_length_le (Nat.le_of_not_le hcursor)]
    exact Nat.min_le_right _ _

end Field

/-! ## One name -/

namespace Utf8

/-- Pieces of a text are those of its parts, if the second part begins with a byte below 128. -/
theorem pieces_append_of_head? {xs ys : Bytes} (h : ∀ b ∈ ys.head?, b < 0x80) :
    pieces (xs ++ ys) = pieces xs ++ pieces ys := by
  cases ys with
  | nil => rw [List.append_nil, pieces_nil, List.append_nil]
  | cons b ys => exact pieces_append (h b rfl) xs ys

variable {cs : List Char}

theorem chars_append_ofChars (h : ∀ b ∈ (ofChars cs).head?, b < 0x80) (xs : Bytes) :
    chars (xs ++ ofChars cs) = chars xs ++ cs := by
  rw [chars, pieces_append_of_head? h, List.map_append, pieces_ofChars, List.map_map, chars]
  exact congrArg (_ ++ ·) (List.map_id cs)

theorem count_append_ofChars (h : ∀ b ∈ (ofChars cs).head?, b < 0x80) (xs : Bytes) :
    count (xs ++ ofChars cs) = count xs + cs.length := by
  rw [count, pieces_append_of_head? h, List.length_append, pieces_ofChars, List.length_map, count]

theorem count_ofChars_append (cs : List Char) (rest : Bytes) :
    count (ofChars cs ++ rest) = cs.length + count rest := by
  rw [count, pieces_ofChars_append, List.length_append, List.length_map, count]

end Utf8

namespace Word

theorem lt_of_head?_ofChars {after : List Char} (h : ∀ c ∈ after.head?, isBoundaryChar c) :
    ∀ b ∈ (Utf8.ofChars after).head?, b < 0x80 := by
  cases after with
  | nil => nofun
  | cons c after =>
      obtain ⟨b, hb, hencode⟩ := encode_of_isBoundaryChar (h c rfl)
      rw [Utf8.ofChars, List.flatMap_cons, hencode]
      rintro b' hb'
      obtain rfl := Option.some.inj hb'
      exact lt_of_isBoundary hb

end Word

namespace Session

variable {s : Session} {before word after : List Char}

/-- With a name in place of the word, the line keeps what stood before and behind it. -/
theorem value_replaceWord_of_splits (hclean : s.field.Clean)
    (hvalue : s.field.value = before ++ (word ++ after)) (hword : s.word.Splits before word after)
    {name : Bytes}
    (hfits : Utf8.count (Utf8.ofChars before ++ name ++ Utf8.ofChars after) ≤ Field.limit) :
    (s.replaceWord name).field.value = before ++ (Field.clean (Utf8.chars name) ++ after) := by
  have hhead := Word.lt_of_head?_ofChars hword.right
  have hdrop : s.input.drop s.word.stop = Utf8.ofChars after := by
    rw [input, Field.text, hvalue, ← List.append_assoc, Utf8.ofChars_append, hword.stop,
      List.drop_left]
  have hheld : Field.clean after = after := Field.clean_of_isHeld fun c hc =>
    hclean.held c (hvalue ▸ List.mem_append_right _ (List.mem_append_right _ hc))
  have hshort := Field.length_clean_chars_le name
  rw [List.append_assoc, Utf8.count_ofChars_append, Utf8.count_append_ofChars hhead] at hfits
  rw [value_replaceWord s name hclean hvalue hword.start.symm, hdrop,
    Utf8.chars_append_ofChars hhead, Field.clean_append, hheld, List.take_of_length_le]
  rw [List.length_append]
  omega

/-- The bytes of the line are as wanted exactly if the field takes the name over as it is. -/
theorem input_replaceWord_iff (hclean : s.field.Clean)
    (hvalue : s.field.value = before ++ (word ++ after)) (hword : s.word.Splits before word after)
    {name : Bytes}
    (hfits : Utf8.count (Utf8.ofChars before ++ name ++ Utf8.ofChars after) ≤ Field.limit) :
    (s.replaceWord name).input = Utf8.ofChars before ++ name ++ Utf8.ofChars after ↔
      Field.isKept name := by
  rw [input, Field.text, value_replaceWord_of_splits hclean hvalue hword hfits,
    Utf8.ofChars_append, Utf8.ofChars_append, List.append_assoc, List.append_cancel_left_eq,
    List.append_cancel_right_eq, Field.isKept, decide_eq_true_eq]

/-- The cursor is right behind the name exactly if up to there each character has one byte, or
nothing follows. -/
theorem cursor_replaceWord_iff (hclean : s.field.Clean)
    (hvalue : s.field.value = before ++ (word ++ after)) (hword : s.word.Splits before word after)
    {name : Bytes} (hkept : Field.isKept name)
    (hfits : Utf8.count (Utf8.ofChars before ++ name ++ Utf8.ofChars after) ≤ Field.limit) :
    (s.replaceWord name).field.cursor = before.length + Utf8.count name ↔
      (∀ b ∈ Utf8.ofChars before ++ name, b < 0x80) ∨ after = [] := by
  have hlength := value_replaceWord_of_splits hclean hvalue hword hfits
  obtain ⟨cs, rfl, hheld⟩ := Field.exists_of_isKept hkept
  rw [Utf8.chars_ofChars, Field.clean_of_isHeld hheld] at hlength
  have hcursor : (s.replaceWord (Utf8.ofChars cs)).field.cursor =
      min (s.word.start + (Utf8.ofChars cs).length)
        (s.replaceWord (Utf8.ofChars cs)).field.value.length := by
    rw [replaceWord]
    dsimp only
    rw [Field.cursor_moveTo, Field.value_moveTo]
  rw [hcursor, hlength, Utf8.count_ofChars, hword.start, ← List.length_append,
    ← Utf8.ofChars_append, ← Utf8.length_ofChars_eq_iff]
  -- The cursor counts bytes, so that it is too far on, or stopped by the end of the line.
  have hle := Utf8.length_le_ofChars (before ++ cs)
  rw [← List.length_eq_zero_iff]
  simp only [List.length_append] at hle ⊢
  omega

/-- A key that tries out a name takes one that is alone. -/
theorem after_tab_of_one {m : Text.Match} (h : s.found = [m]) (alt : Bool) :
    (s.after (.key ⟨.tab, alt⟩)).field = (s.replaceWord m.text).field := by
  have hcycle : s.after (.key ⟨.tab, alt⟩) = s.cycle true := s.after_of_tries rfl
  rw [hcycle, cycle, h]

/--
Looking for names takes a word that lies between characters, that no character ends
within, and that ends on either side at one that does or at an end of the line. It
begins at or before the cursor, and ends at or behind it exactly if no byte ends it
from the one on that the characters before the cursor are counted to. A name that is
alone is put in its place, if there is room: the line is as wanted exactly if the field
takes over the name as it is, and then the cursor is right behind the name exactly if
all bytes up to there are ASCII, or nothing follows.
-/
theorem completion_replaces_word (s : Session) (hclean : s.field.Clean) (confirming : Bool) :
    let t := s.refresh confirming
    ∃ before word after, s.field.value = before ++ (word ++ after) ∧
      t.word.Splits before word after ∧
      t.word.start ≤ s.field.offset ∧
      (s.field.offset ≤ t.word.stop ↔
        ∀ b ∈ (s.input.take s.field.offset).drop s.field.cursor, Word.isBoundary b = false) ∧
      ∀ m, t.found = [m] →
        Utf8.count (Utf8.ofChars before ++ m.text ++ Utf8.ofChars after) ≤ Field.limit →
        let u := t.after (.key ⟨.tab, false⟩)
        (u.input = Utf8.ofChars before ++ m.text ++ Utf8.ofChars after ↔ Field.isKept m.text) ∧
          (Field.isKept m.text →
            (u.field.cursor = before.length + Utf8.count m.text ↔
              (∀ b ∈ Utf8.ofChars before ++ m.text, b < 0x80) ∨ after = [])) := by
  intro t
  have hfield : t.field = s.field := s.field_refresh confirming
  have hword : t.word = Word.around s.input s.field.cursor := s.word_refresh confirming
  obtain ⟨before, word, after, hvalue, hsplits⟩ :=
    @Word.exists_splits s.field.value s.input rfl s.field.cursor
  rw [← hword] at hsplits
  refine ⟨before, word, after, hvalue, hsplits, ?_, ?_, fun m hfound hfits => ?_⟩
  · have hstart : t.word.start ≤ min s.field.cursor s.input.length := by
      rw [hword, ← List.length_take]
      exact Nat.sub_le _ _
    exact hstart.trans s.field.min_cursor_le_offset
  · rw [hword]
    exact Word.le_stop_around_iff s.field.offset_le s.field.min_cursor_le_offset
  · intro u
    have hu : u.field = (t.replaceWord m.text).field := after_tab_of_one hfound false
    have hclean' : t.field.Clean := hfield ▸ hclean
    have hvalue' : t.field.value = before ++ (word ++ after) := hfield ▸ hvalue
    have hinput : u.input = (t.replaceWord m.text).input := congrArg Field.text hu
    rw [hinput, hu]
    exact ⟨input_replaceWord_iff hclean' hvalue' hsplits hfits,
      fun hkept => cursor_replaceWord_iff hclean' hvalue' hsplits hkept hfits⟩

/-- A session without variables in which a line is put, with the cursor behind some characters. -/
def withLine (line : Bytes) (cursor : Nat) : Session :=
  (new ⟨[], .error⟩ (.new .nowhere) .tree).setInput ⟨line, cursor⟩

theorem clean_withLine (line : Bytes) (cursor : Nat) : (withLine line cursor).field.Clean :=
  (Field.clean_setText _ _).moveTo _

/-- A word at the end of a line that begins with a character of two bytes is completed. -/
theorem completion_replaces_word_sample :
    ∃ before word after, (withLine "é $\x7bLEN" 7).field.value = before ++ (word ++ after) ∧
      (withLine "é $\x7bLEN" 7).word.Splits before word after ∧
      (withLine "é $\x7bLEN" 7).field.offset ≤ (withLine "é $\x7bLEN" 7).word.stop ∧
      ((withLine "é $\x7bLEN" 7).after (.key ⟨.tab, false⟩)).input =
        Utf8.ofChars before ++ "LENGTH" ++ Utf8.ofChars after := by
  have hsame : (withLine "é $\x7bLEN" 7).refresh false = withLine "é $\x7bLEN" 7 := rfl
  obtain ⟨before, word, after, hvalue, hsplits, -, hoffset, htab⟩ :=
    completion_replaces_word (withLine "é $\x7bLEN" 7) (clean_withLine _ _) false
  rw [hsame] at hsplits hoffset htab
  have hfound : (withLine "é $\x7bLEN" 7).found.map Text.Match.text = ["LENGTH"] := by
    decide +kernel
  obtain ⟨m, hm, htext⟩ := List.map_eq_singleton_iff.mp hfound
  have hfits : Utf8.count (Utf8.ofChars before ++ m.text ++ Utf8.ofChars after) ≤ Field.limit := by
    have hlength : (withLine "é $\x7bLEN" 7).field.value.length = 7 := by decide +kernel
    have hcount : Utf8.count m.text = 6 := by rw [htext]; decide +kernel
    rw [List.append_assoc, Utf8.count_ofChars_append,
      Utf8.count_append_ofChars (Word.lt_of_head?_ofChars hsplits.right), hcount, Field.limit]
    rw [hvalue, List.length_append, List.length_append] at hlength
    omega
  refine ⟨before, word, after, hvalue, hsplits, hoffset.mpr (by decide +kernel), ?_⟩
  rw [(htab m hm hfits).1.mpr (by rw [htext]; decide +kernel), htext]

/--
With two characters of two bytes before it, the word at the cursor ends before the
cursor, and the cursor ends up behind the brace that follows the name.
-/
theorem completion_misplaces_cursor :
    (withLine "éé a" 4).word.stop < (withLine "éé a" 4).field.offset ∧
      (withLine "éé$\x7bLEN\x7d" 7).found.map Text.Match.text = ["LENGTH"] ∧
      ((withLine "éé$\x7bLEN\x7d" 7).after (.key ⟨.tab, false⟩)).input = "éé$\x7bLENGTH\x7d" ∧
      ((withLine "éé$\x7bLEN\x7d" 7).after (.key ⟨.tab, false⟩)).field.cursor = 11 := by
  refine ⟨?_, ?_, ?_, ?_⟩ <;> decide +kernel

end Session

end Backtick
