import Mathlib
import Backtick.Bytes.Utf8

/-!
# Characters and stray bytes

Reading a byte string into pieces loses nothing, and a byte below 128 is a piece
of its own wherever it stands. `Utf8.latin` shows every stray byte as the
character with its code; it changes no valid text.
-/

namespace Backtick.Utf8

/-- The bytes a piece is shown as: a stray byte is the character with its code. -/
def Piece.latin : Piece -> Bytes
  | .char c => String.utf8EncodeChar c
  | .stray b => String.utf8EncodeChar (Char.ofNat b.toNat)

/-- The text with every stray byte replaced by the character with its code. -/
def latin (text : Bytes) : Bytes :=
  (pieces text).flatMap Piece.latin

/-! ## Encoded characters -/

theorem utf8EncodeChar_ofNat {n : Nat} (h : n.isValidChar) :
    String.utf8EncodeChar (Char.ofNat n) =
      if n ≤ 0x7F then [UInt8.ofNat n]
      else if n ≤ 0x7FF then [UInt8.ofNat (n / 64 % 32 + 0xC0), UInt8.ofNat (n % 64 + 0x80)]
      else if n ≤ 0xFFFF then
        [UInt8.ofNat (n / 4096 % 16 + 0xE0), UInt8.ofNat (n / 64 % 64 + 0x80),
          UInt8.ofNat (n % 64 + 0x80)]
      else
        [UInt8.ofNat (n / 262144 % 8 + 0xF0), UInt8.ofNat (n / 4096 % 64 + 0x80),
          UInt8.ofNat (n / 64 % 64 + 0x80), UInt8.ofNat (n % 64 + 0x80)] := by
  have hval : (Char.ofNat n).val.toNat = n := by
    rw [Char.ofNat, dif_pos h]
    rfl
  simp only [String.utf8EncodeChar, hval]

theorem ofNat_eq {n : Nat} {b : UInt8} (h : n = b.toNat) : UInt8.ofNat n = b := by
  rw [h, UInt8.ofNat_toNat]

theorem isContinuation_iff {b : UInt8} :
    isContinuation b = true ↔ 0x80 ≤ b.toNat ∧ b.toNat ≤ 0xBF := by
  simp [isContinuation, UInt8.le_iff_toNat_le]

theorem encode_one {a : UInt8} (ha : a.toNat < 0x80) :
    String.utf8EncodeChar (Char.ofNat a.toNat) = [a] := by
  have hvalid : a.toNat.isValidChar := Or.inl (by omega)
  rw [utf8EncodeChar_ofNat hvalid, if_pos (by omega), UInt8.ofNat_toNat]

theorem encode_two {a b : UInt8} (ha : 0xC2 ≤ a.toNat ∧ a.toNat ≤ 0xDF)
    (hb : isContinuation b) :
    String.utf8EncodeChar (Char.ofNat (a.toNat % 32 * 64 + low6 b)) = [a, b] := by
  have hb := isContinuation_iff.mp hb
  have hvalid : (a.toNat % 32 * 64 + low6 b).isValidChar := Or.inl (by unfold low6; omega)
  rw [utf8EncodeChar_ofNat hvalid]
  unfold low6
  rw [if_neg (by omega), if_pos (by omega), ofNat_eq (b := a) (by omega),
    ofNat_eq (b := b) (by omega)]

theorem encode_three {a b c : UInt8} (ha : 0xE0 ≤ a.toNat ∧ a.toNat ≤ 0xEF)
    (hb : isContinuation b) (hlow : a.toNat = 0xE0 → 0xA0 ≤ b.toNat)
    (hhigh : a.toNat = 0xED → b.toNat ≤ 0x9F) (hc : isContinuation c) :
    String.utf8EncodeChar (Char.ofNat ((a.toNat % 16 * 64 + low6 b) * 64 + low6 c)) =
      [a, b, c] := by
  have hb := isContinuation_iff.mp hb
  have hc := isContinuation_iff.mp hc
  have hvalid : ((a.toNat % 16 * 64 + low6 b) * 64 + low6 c).isValidChar := by
    unfold low6 Nat.isValidChar
    omega
  rw [utf8EncodeChar_ofNat hvalid]
  unfold low6
  rw [if_neg (by omega), if_neg (by omega), if_pos (by omega), ofNat_eq (b := a) (by omega),
    ofNat_eq (b := b) (by omega), ofNat_eq (b := c) (by omega)]

theorem encode_four {a b c d : UInt8} (ha : 0xF0 ≤ a.toNat ∧ a.toNat ≤ 0xF4)
    (hb : isContinuation b) (hlow : a.toNat = 0xF0 → 0x90 ≤ b.toNat)
    (hhigh : a.toNat = 0xF4 → b.toNat ≤ 0x8F) (hc : isContinuation c) (hd : isContinuation d) :
    String.utf8EncodeChar
        (Char.ofNat (((a.toNat % 8 * 64 + low6 b) * 64 + low6 c) * 64 + low6 d)) =
      [a, b, c, d] := by
  have hb := isContinuation_iff.mp hb
  have hc := isContinuation_iff.mp hc
  have hd := isContinuation_iff.mp hd
  have hvalid : (((a.toNat % 8 * 64 + low6 b) * 64 + low6 c) * 64 + low6 d).isValidChar := by
    unfold low6 Nat.isValidChar
    omega
  rw [utf8EncodeChar_ofNat hvalid]
  unfold low6
  rw [if_neg (by omega), if_neg (by omega), if_neg (by omega), ofNat_eq (b := a) (by omega),
    ofNat_eq (b := b) (by omega), ofNat_eq (b := c) (by omega), ofNat_eq (b := d) (by omega)]

/-- A byte below 128 is the whole of the character it belongs to. -/
theorem eq_ofNat_of_mem {b : UInt8} {c : Char} (h : b ∈ String.utf8EncodeChar c)
    (hb : b < 0x80) : c = Char.ofNat b.toNat := by
  have hb := UInt8.lt_iff_toNat_lt.mp hb
  have hc : c = Char.ofNat c.toNat := (Char.ofNat_toNat c).symm
  have hlong : ∀ n, 0x80 ≤ n → n < 0x100 → b ≠ UInt8.ofNat n := by
    rintro n hlow hhigh rfl
    rw [UInt8.toNat_ofNat_of_lt' hhigh] at hb
    exact absurd hb (Nat.not_lt.mpr hlow)
  have hvalid : c.toNat.isValidChar := c.valid
  rw [hc, utf8EncodeChar_ofNat hvalid] at h
  split at h
  · rename_i hn
    rw [List.mem_singleton.mp h, UInt8.toNat_ofNat_of_lt' (Nat.lt_of_le_of_lt hn (by decide))]
    exact hc
  · exfalso
    split at h
    · simp only [List.mem_cons, List.not_mem_nil, or_false] at h
      rcases h with h | h <;> exact hlong _ (by omega) (by omega) h
    · split at h <;> simp only [List.mem_cons, List.not_mem_nil, or_false] at h
      · rcases h with h | h | h <;> exact hlong _ (by omega) (by omega) h
      · rcases h with h | h | h | h <;> exact hlong _ (by omega) (by omega) h

/-! ## Leading bytes -/

/-- The second byte of a long character continues it, within the bounds its first byte sets. -/
theorem second_bounds {a b first last low high : UInt8}
    (hleast : (if a = first then low else 0x80) ≤ b)
    (hmost : b ≤ (if a = last then high else 0xBF)) (hlow : 0x80 ≤ low) (hhigh : high ≤ 0xBF) :
    isContinuation b ∧ (a.toNat = first.toNat → low.toNat ≤ b.toNat) ∧
      (a.toNat = last.toNat → b.toNat ≤ high.toNat) := by
  simp only [isContinuation, Bool.and_eq_true, decide_eq_true_eq, UInt8.toNat_inj,
    ← UInt8.le_iff_toNat_le]
  refine ⟨⟨?_, ?_⟩, ?_, ?_⟩
  · split at hleast
    · exact UInt8.le_trans hlow hleast
    · exact hleast
  · split at hmost
    · exact UInt8.le_trans hmost hhigh
    · exact hmost
  · intro hfirst
    rwa [if_pos hfirst] at hleast
  · intro hlast
    rwa [if_pos hlast] at hmost

/-- A character that was read has the bytes it was read from. -/
theorem utf8EncodeChar_lead? {a : UInt8} {rest : Bytes} {c : Char} {more : Nat}
    (h : lead? a rest = some (c, more)) :
    String.utf8EncodeChar c = a :: rest.take more ∧ more ≤ rest.length := by
  unfold lead? at h
  dsimp only at h
  split at h
  · rename_i ha
    cases h
    exact ⟨encode_one (UInt8.lt_iff_toNat_lt.mp ha), Nat.zero_le _⟩
  · split at h
    · rename_i ha
      simp only [Bool.and_eq_true, decide_eq_true_eq, UInt8.le_iff_toNat_le] at ha
      split at h
      · obtain ⟨hb, h⟩ := Option.ite_none_right_eq_some.mp h
        cases h
        exact ⟨encode_two ha hb, by simp⟩
      · cases h
    · split at h
      · rename_i ha
        simp only [Bool.and_eq_true, decide_eq_true_eq, UInt8.le_iff_toNat_le] at ha
        split at h
        · obtain ⟨hbounds, h⟩ := Option.ite_none_right_eq_some.mp h
          simp only [Bool.and_eq_true, decide_eq_true_eq] at hbounds
          obtain ⟨⟨hleast, hmost⟩, hc⟩ := hbounds
          obtain ⟨hb, hlow, hhigh⟩ := second_bounds hleast hmost (by decide) (by decide)
          cases h
          exact ⟨encode_three ha hb hlow hhigh hc, by simp⟩
        · cases h
      · obtain ⟨ha, h⟩ := Option.ite_none_right_eq_some.mp h
        simp only [Bool.and_eq_true, decide_eq_true_eq, UInt8.le_iff_toNat_le] at ha
        split at h
        · obtain ⟨hbounds, h⟩ := Option.ite_none_right_eq_some.mp h
          simp only [Bool.and_eq_true, decide_eq_true_eq] at hbounds
          obtain ⟨⟨⟨hleast, hmost⟩, hc⟩, hd⟩ := hbounds
          obtain ⟨hb, hlow, hhigh⟩ := second_bounds hleast hmost (by decide) (by decide)
          cases h
          exact ⟨encode_four ha hb hlow hhigh hc hd, by simp⟩
        · cases h

theorem between_iff {low high a : UInt8} :
    (decide (low ≤ a) && decide (a ≤ high)) = true ↔
      low.toNat ≤ a.toNat ∧ a.toNat ≤ high.toNat := by
  simp only [Bool.and_eq_true, decide_eq_true_eq, UInt8.le_iff_toNat_le]

theorem bounds_second {a b first last low high : UInt8} (hb : isContinuation b)
    (hlow : a.toNat = first.toNat → low.toNat ≤ b.toNat)
    (hhigh : a.toNat = last.toNat → b.toNat ≤ high.toNat) :
    (if a = first then low else 0x80) ≤ b ∧ b ≤ (if a = last then high else 0xBF) := by
  have hb := between_iff.mp hb
  constructor
  · split
    · exact UInt8.le_iff_toNat_le.mpr (hlow (congrArg UInt8.toNat ‹_›))
    · exact UInt8.le_iff_toNat_le.mpr hb.1
  · split
    · exact UInt8.le_iff_toNat_le.mpr (hhigh (congrArg UInt8.toNat ‹_›))
    · exact UInt8.le_iff_toNat_le.mpr hb.2

theorem lead?_one {a : UInt8} (ha : a.toNat < 0x80) (ys : Bytes) :
    lead? a ys = some (Char.ofNat a.toNat, 0) :=
  if_pos (UInt8.lt_iff_toNat_lt.mpr ha)

theorem lead?_two {a b : UInt8} (ha : 0xC2 ≤ a.toNat ∧ a.toNat ≤ 0xDF) (hb : isContinuation b)
    (ys : Bytes) :
    lead? a (b :: ys) = some (Char.ofNat (a.toNat % 32 * 64 + low6 b), 1) := by
  have hone : ¬ a < 0x80 := fun h => absurd (UInt8.lt_iff_toNat_lt.mp h) (by simp; omega)
  have htwo : (decide (0xC2 ≤ a) && decide (a ≤ 0xDF)) = true := between_iff.mpr ha
  simp only [lead?, if_neg hone, htwo, if_true, hb]

theorem lead?_three {a b c : UInt8} (ha : 0xE0 ≤ a.toNat ∧ a.toNat ≤ 0xEF)
    (hb : isContinuation b) (hlow : a.toNat = 0xE0 → 0xA0 ≤ b.toNat)
    (hhigh : a.toNat = 0xED → b.toNat ≤ 0x9F) (hc : isContinuation c) (ys : Bytes) :
    lead? a (b :: c :: ys) =
      some (Char.ofNat ((a.toNat % 16 * 64 + low6 b) * 64 + low6 c), 2) := by
  have hone : ¬ a < 0x80 := fun h => absurd (UInt8.lt_iff_toNat_lt.mp h) (by simp; omega)
  have htwo : ¬ (decide (0xC2 ≤ a) && decide (a ≤ 0xDF)) = true := by
    rw [between_iff]
    simp
    omega
  have hthree : (decide (0xE0 ≤ a) && decide (a ≤ 0xEF)) = true := between_iff.mpr ha
  have hbounds : (if a = 0xE0 then (0xA0 : UInt8) else 0x80) ≤ b ∧
      b ≤ (if a = 0xED then (0x9F : UInt8) else 0xBF) := bounds_second hb hlow hhigh
  simp only [lead?, if_neg hone, if_neg htwo, hthree, if_true, hbounds, hc, decide_true,
    Bool.and_true]

theorem lead?_four {a b c d : UInt8} (ha : 0xF0 ≤ a.toNat ∧ a.toNat ≤ 0xF4)
    (hb : isContinuation b) (hlow : a.toNat = 0xF0 → 0x90 ≤ b.toNat)
    (hhigh : a.toNat = 0xF4 → b.toNat ≤ 0x8F) (hc : isContinuation c) (hd : isContinuation d)
    (ys : Bytes) :
    lead? a (b :: c :: d :: ys) =
      some (Char.ofNat (((a.toNat % 8 * 64 + low6 b) * 64 + low6 c) * 64 + low6 d), 3) := by
  have hone : ¬ a < 0x80 := fun h => absurd (UInt8.lt_iff_toNat_lt.mp h) (by simp; omega)
  have htwo : ¬ (decide (0xC2 ≤ a) && decide (a ≤ 0xDF)) = true := by
    rw [between_iff]
    simp
    omega
  have hthree : ¬ (decide (0xE0 ≤ a) && decide (a ≤ 0xEF)) = true := by
    rw [between_iff]
    simp
    omega
  have hfour : (decide (0xF0 ≤ a) && decide (a ≤ 0xF4)) = true := between_iff.mpr ha
  have hbounds : (if a = 0xF0 then (0x90 : UInt8) else 0x80) ≤ b ∧
      b ≤ (if a = 0xF4 then (0x8F : UInt8) else 0xBF) := bounds_second hb hlow hhigh
  simp only [lead?, if_neg hone, if_neg htwo, if_neg hthree, hfour, if_true, hbounds, hc, hd,
    decide_true, Bool.and_true]

/-- The first byte of an encoded character leads to it, whatever follows. -/
theorem lead?_encode (c : Char) :
    ∃ a tail, String.utf8EncodeChar c = a :: tail ∧
      ∀ ys, lead? a (tail ++ ys) = some (c, tail.length) := by
  have hc : Char.ofNat c.toNat = c := Char.ofNat_toNat c
  have hvalid : c.toNat.isValidChar := c.valid
  generalize c.toNat = n at hc hvalid
  subst hc
  have hbyte : ∀ m, m < 256 → (UInt8.ofNat m).toNat = m := fun m hm => UInt8.toNat_ofNat_of_lt' hm
  have hcont : ∀ m, isContinuation (UInt8.ofNat (m % 64 + 0x80)) := by
    intro m
    rw [isContinuation_iff, hbyte _ (by omega)]
    omega
  have hlow6 : ∀ m, low6 (UInt8.ofNat (m % 64 + 0x80)) = m % 64 := by
    intro m
    rw [low6, hbyte _ (by omega)]
    omega
  rw [utf8EncodeChar_ofNat hvalid]
  unfold Nat.isValidChar at hvalid
  split
  · refine ⟨_, _, rfl, fun ys => ?_⟩
    rw [lead?_one (by rw [hbyte _ (by omega)]; omega), hbyte _ (by omega)]
    rfl
  split
  · refine ⟨_, _, rfl, fun ys => ?_⟩
    have ha := hbyte (n / 64 % 32 + 0xC0) (by omega)
    rw [List.cons_append, lead?_two (by omega) (hcont _), hlow6, ha,
      show (n / 64 % 32 + 0xC0) % 32 * 64 + n % 64 = n by omega]
    rfl
  split
  · refine ⟨_, _, rfl, fun ys => ?_⟩
    have ha := hbyte (n / 4096 % 16 + 0xE0) (by omega)
    have hb := hbyte (n / 64 % 64 + 0x80) (by omega)
    rw [List.cons_append, List.cons_append,
      lead?_three (by omega) (hcont _) (by omega) (by omega) (hcont _), hlow6, hlow6, ha,
      show ((n / 4096 % 16 + 0xE0) % 16 * 64 + n / 64 % 64) * 64 + n % 64 = n by omega]
    rfl
  · refine ⟨_, _, rfl, fun ys => ?_⟩
    have ha := hbyte (n / 262144 % 8 + 0xF0) (by omega)
    have hb := hbyte (n / 4096 % 64 + 0x80) (by omega)
    rw [List.cons_append, List.cons_append, List.cons_append,
      lead?_four (by omega) (hcont _) (by omega) (by omega) (hcont _) (hcont _), hlow6, hlow6,
      hlow6, ha,
      show (((n / 262144 % 8 + 0xF0) % 8 * 64 + n / 4096 % 64) * 64 + n / 64 % 64) * 64 +
        n % 64 = n by omega]
    rfl

/-- A character that was read stays the same when more text follows. -/
theorem lead?_extend {a : UInt8} {xs : Bytes} {found : Char × Nat} (h : lead? a xs = some found)
    (ys : Bytes) : lead? a (xs ++ ys) = some found := by
  obtain ⟨c, more⟩ := found
  obtain ⟨hbytes, hmore⟩ := utf8EncodeChar_lead? h
  obtain ⟨b, tail, hencode, hlead⟩ := lead?_encode c
  obtain ⟨rfl, rfl⟩ := List.cons.inj (hencode.symm.trans hbytes)
  calc
    lead? b (xs ++ ys) = lead? b (xs.take more ++ (xs.drop more ++ ys)) := by
      rw [← List.append_assoc, List.take_append_drop]
    _ = some (c, (xs.take more).length) := hlead _
    _ = some (c, more) := by rw [List.length_take_of_le hmore]

/-! ## Pieces -/

theorem pieces_nil : pieces [] = [] := by
  rw [pieces]

theorem pieces_char {a : UInt8} {rest : Bytes} {c : Char} {more : Nat}
    (h : lead? a rest = some (c, more)) :
    pieces (a :: rest) = .char c :: pieces (rest.drop more) := by
  rw [pieces, h]

theorem pieces_stray {a : UInt8} {rest : Bytes} (h : lead? a rest = none) :
    pieces (a :: rest) = .stray a :: pieces rest := by
  rw [pieces, h]

/-- An encoded character is read as itself. -/
theorem pieces_encode (c : Char) (ys : Bytes) :
    pieces (String.utf8EncodeChar c ++ ys) = .char c :: pieces ys := by
  obtain ⟨a, tail, hc, hlead⟩ := lead?_encode c
  rw [hc, List.cons_append, pieces_char (hlead ys), List.drop_left]

/-- Reading into pieces loses nothing. -/
theorem join_pieces (text : Bytes) : join (pieces text) = text := by
  induction text using pieces.induct with
  | case1 => rw [pieces_nil]; rfl
  | case2 a rest c more hlead ih =>
      rw [pieces_char hlead, join, List.flatMap_cons, ← join, ih, Piece.bytes,
        (utf8EncodeChar_lead? hlead).1, List.cons_append, List.take_append_drop]
  | case3 a rest hlead ih =>
      rw [pieces_stray hlead, join, List.flatMap_cons, ← join, ih]
      rfl

/-- A byte below 128 continues no character. -/
theorem lead?_append {x a : UInt8} (ha : a < 0x80) (xs ys : Bytes) :
    lead? x (xs ++ a :: ys) = lead? x xs := by
  have hcont : isContinuation a = false := by
    revert a
    decide +kernel
  have hbelow : ∀ (p : Prop) [Decidable p] (low : UInt8), 0x80 ≤ low →
      decide ((if p then low else 0x80) ≤ a) = false := by
    intro p _ low hlow
    apply decide_eq_false
    rw [UInt8.not_le]
    split
    · exact UInt8.lt_of_lt_of_le ha hlow
    · exact ha
  have hthree := hbelow (x = 0xE0) 0xA0 (by decide)
  have hfour := hbelow (x = 0xF0) 0x90 (by decide)
  unfold lead?
  dsimp only
  -- the following bytes are looked at one by one, and `a` fails each test
  match xs with
  | [] =>
      rcases ys with _ | ⟨y, _ | ⟨z, ys⟩⟩ <;>
        simp only [List.nil_append, hcont, hthree, hfour, Bool.false_and, Bool.false_eq_true,
          if_false]
  | [b] =>
      rcases ys with _ | ⟨y, ys⟩ <;>
        simp only [List.cons_append, List.nil_append, hcont, Bool.and_false, Bool.false_and,
          Bool.false_eq_true, if_false]
  | [b, c] =>
      simp only [List.cons_append, List.nil_append, hcont, Bool.and_false, Bool.false_eq_true,
        if_false]
  | b :: c :: d :: more => rfl

theorem pieces_append {a : UInt8} (ha : a < 0x80) (xs ys : Bytes) :
    pieces (xs ++ a :: ys) = pieces xs ++ pieces (a :: ys) := by
  induction xs using pieces.induct with
  | case1 => rw [pieces_nil]; rfl
  | case2 x rest c more hlead ih =>
      have hmore := (utf8EncodeChar_lead? hlead).2
      rw [pieces_char hlead, List.cons_append, pieces_char ((lead?_append ha rest ys).trans hlead),
        List.drop_append_of_le_length hmore, ih, List.cons_append]
  | case3 x rest hlead ih =>
      rw [pieces_stray hlead, List.cons_append,
        pieces_stray ((lead?_append ha rest ys).trans hlead), ih, List.cons_append]

/-! ## Texts made of characters -/

theorem pieces_ofChars_append (cs : List Char) (rest : Bytes) :
    pieces (ofChars cs ++ rest) = cs.map .char ++ pieces rest := by
  induction cs with
  | nil => rfl
  | cons c cs ih =>
      rw [ofChars, List.flatMap_cons, ← ofChars, List.append_assoc, pieces_encode, ih,
        List.map_cons, List.cons_append]

theorem pieces_ofChars (cs : List Char) : pieces (ofChars cs) = cs.map .char := by
  have happend := pieces_ofChars_append cs []
  rwa [List.append_nil, pieces_nil, List.append_nil] at happend

theorem count_le_length (text : Bytes) : count text ≤ text.length := by
  rw [count]
  induction text using pieces.induct with
  | case1 => simp [pieces_nil]
  | case2 a rest c more hlead ih =>
      rw [pieces_char hlead, List.length_cons, List.length_cons]
      rw [List.length_drop] at ih
      omega
  | case3 a rest hlead ih =>
      rw [pieces_stray hlead, List.length_cons, List.length_cons]
      omega

theorem count_ofChars (cs : List Char) : count (ofChars cs) = cs.length := by
  rw [count, pieces_ofChars, List.length_map]

theorem chars_ofChars_append (cs : List Char) (rest : Bytes) :
    chars (ofChars cs ++ rest) = cs ++ chars rest := by
  rw [chars, pieces_ofChars_append, List.map_append, List.map_map, chars]
  exact congrArg (· ++ _) (List.map_id cs)

theorem chars_ofChars (cs : List Char) : chars (ofChars cs) = cs := by
  rw [chars, pieces_ofChars, List.map_map]
  exact List.map_id cs

theorem ofChars_append (cs ds : List Char) : ofChars (cs ++ ds) = ofChars cs ++ ofChars ds :=
  List.flatMap_append

theorem join_map_char (cs : List Char) : join (cs.map .char) = ofChars cs := by
  rw [join, List.flatMap_map]
  rfl

/-- A byte below 128 splits the characters of a text where it stands. -/
theorem exists_split_of_ofChars {cs : List Char} {b : UInt8} {xs ys : Bytes} (hb : b < 0x80)
    (h : ofChars cs = xs ++ b :: ys) :
    ∃ before after, cs = before ++ Char.ofNat b.toNat :: after ∧
      ofChars before = xs ∧ ofChars after = ys := by
  have hpieces : cs.map .char = pieces xs ++ .char (Char.ofNat b.toNat) :: pieces ys := by
    rw [← pieces_ofChars, h, pieces_append hb,
      pieces_char (lead?_one (UInt8.lt_iff_toNat_lt.mp hb) ys), List.drop_zero]
  obtain ⟨before, rest, rfl, hbefore, hrest⟩ := List.map_eq_append_iff.mp hpieces
  obtain ⟨c, after, rfl, hc, hafter⟩ := List.map_eq_cons_iff.mp hrest
  cases hc
  refine ⟨before, after, rfl, ?_, ?_⟩
  · rw [← join_map_char, hbefore, join_pieces]
  · rw [← join_map_char, hafter, join_pieces]

/-! ## Valid text -/

theorem isValid_append {a : UInt8} (ha : a < 0x80) (xs ys : Bytes) :
    isValid (xs ++ a :: ys) = (isValid xs && isValid ys) := by
  have hlead : lead? a ys = some (Char.ofNat a.toNat, 0) := if_pos ha
  simp only [isValid, pieces_append ha, pieces_char hlead, List.all_append, List.all_cons,
    List.drop_zero, Bool.true_and]

theorem isValid_nil : isValid [] = true := by
  rw [isValid, pieces_nil]
  rfl

theorem isValid_cons {a : UInt8} (ha : a < 0x80) (rest : Bytes) :
    isValid (a :: rest) = isValid rest := by
  have hsplit := isValid_append ha [] rest
  rwa [isValid_nil, Bool.true_and] at hsplit

/-- A valid text is left as it is. -/
theorem latin_of_isValid {text : Bytes} (h : isValid text) : latin text = text := by
  have hlatin : ∀ p ∈ pieces text, p.latin = p.bytes := by
    intro p hp
    have hchar := List.all_eq_true.mp h p hp
    cases p with
    | char c => rfl
    | stray b => simp at hchar
  calc
    latin text = join (pieces text) := List.flatMap_congr hlatin
    _ = text := join_pieces text

end Backtick.Utf8
