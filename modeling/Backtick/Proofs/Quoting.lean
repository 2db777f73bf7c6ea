import Mathlib
import Backtick.Proofs.Characters
import Backtick.Script.Read
import Backtick.Text.Quoted

/-!
# Quoted text read back

What a script holds between two marks reads back as the text that was quoted,
with every stray byte as the character with its code.
-/

namespace Backtick

/-! ## Hexadecimal digits -/

theorem Bytes.hexDigit?_digitChar {d : Nat} (h : d < 16) :
    Bytes.hexDigit? (Nat.digitChar d).toUInt8 = some d := by
  revert d
  decide

namespace Script

theorem hex?_add {m acc value : Nat} {source rest : Bytes}
    (h : hex? m acc source = some (value, rest)) (k : Nat) :
    hex? (m + k) acc source = hex? k value rest := by
  induction m generalizing acc source with
  | zero =>
      cases h
      rw [Nat.zero_add]
  | succ m ih =>
      rw [Nat.succ_add]
      cases source with
      | nil => cases h
      | cons b more =>
          rw [hex?] at h ⊢
          cases hdigit : Bytes.hexDigit? b with
          | none => rw [hdigit] at h; cases h
          | some d => rw [hdigit] at h; exact ih h

theorem hex?_digitChar {d : Nat} (h : d < 16) (acc : Nat) (rest : Bytes) :
    hex? 1 acc ((Nat.digitChar d).toUInt8 :: rest) = some (acc * 16 + d, rest) := by
  simp [hex?, Bytes.hexDigit?_digitChar h]

theorem hex?_zeros (k : Nat) (rest : Bytes) :
    hex? k 0 (List.replicate k '0'.toUInt8 ++ rest) = some (0, rest) := by
  induction k with
  | zero => rfl
  | succ k ih => exact ih

theorem hex?_toDigits (n acc : Nat) (rest : Bytes) :
    hex? (Nat.toDigits 16 n).length acc ((Nat.toDigits 16 n).map Char.toUInt8 ++ rest) =
      some (acc * 16 ^ (Nat.toDigits 16 n).length + n, rest) := by
  induction n using Nat.strongRecOn generalizing rest with
  | _ n ih =>
      rcases Nat.lt_or_ge n 16 with hlt | hge
      · rw [Nat.toDigits_of_lt_base hlt]
        simpa using hex?_digitChar hlt acc rest
      · have hmod : n % 16 < 16 := Nat.mod_lt n (by decide)
        rw [Nat.toDigits_of_base_le (by decide) hge, List.length_append, List.length_singleton,
          List.map_append, List.append_assoc, List.map_singleton, List.singleton_append,
          hex?_add (ih (n / 16) (by omega) _), hex?_digitChar hmod, Nat.pow_succ]
        congr 2
        have := Nat.div_add_mod n 16
        rw [Nat.add_mul, Nat.mul_assoc]
        omega

/-- Hexadecimal digits read back as the number they were written for. -/
theorem hex?_ofHex {width n : Nat} (hwidth : 0 < width) (hfits : n < 16 ^ width) (rest : Bytes) :
    hex? width 0 (Bytes.ofHex width n ++ rest) = some (n, rest) := by
  have hle := (Nat.length_toDigits_le_iff (by decide) hwidth).mpr hfits
  have hsplit : width = (width - (Nat.toDigits 16 n).length) + (Nat.toDigits 16 n).length := by
    omega
  unfold Bytes.ofHex
  dsimp only
  rw [List.length_map, List.append_assoc]
  nth_rewrite 1 [hsplit]
  rw [hex?_add (hex?_zeros _ _), hex?_toDigits, Nat.zero_mul, Nat.zero_add]

/-! ## Escapes -/

theorem quoted?_escape {fuel : Nat} {source after meaning more rest : Bytes}
    (h : escape? source = some (meaning, after)) (hmore : quoted? fuel after = some (more, rest)) :
    quoted? (fuel + 1) ('\\'.toUInt8 :: source) = some (meaning ++ more, rest) := by
  rw [quoted?, if_neg (by decide), if_pos rfl, h]
  dsimp only [bind, Option.bind]
  rw [hmore]
  rfl

theorem quoted?_plain {fuel : Nat} {b : UInt8} {after more rest : Bytes} (hmark : b ≠ '"'.toUInt8)
    (hescape : b ≠ '\\'.toUInt8) (hmore : quoted? fuel after = some (more, rest)) :
    quoted? (fuel + 1) (b :: after) = some (b :: more, rest) := by
  rw [quoted?, if_neg hmark, if_neg hescape, hmore]
  rfl

theorem quoted?_run {fuel : Nat} {run after more rest : Bytes}
    (hrun : ∀ b ∈ run, b ≠ '"'.toUInt8 ∧ b ≠ '\\'.toUInt8)
    (hmore : quoted? fuel after = some (more, rest)) :
    quoted? (fuel + run.length) (run ++ after) = some (run ++ more, rest) := by
  induction run with
  | nil => exact hmore
  | cons b run ih =>
      obtain ⟨hb, hrun⟩ := List.forall_mem_cons.mp hrun
      exact quoted?_plain hb.1 hb.2 (ih hrun)

/-! ## Pieces -/

theorem plain_of_encode {c : Char} (hmark : c ≠ '"') (hescape : c ≠ '\\') :
    ∀ b ∈ String.utf8EncodeChar c, b ≠ '"'.toUInt8 ∧ b ≠ '\\'.toUInt8 := by
  intro b hb
  refine ⟨?_, ?_⟩
  · rintro rfl
    exact hmark (Utf8.eq_ofNat_of_mem hb (by decide))
  · rintro rfl
    exact hescape (Utf8.eq_ofNat_of_mem hb (by decide))

theorem encodeCode_toNat (c : Char) : encodeCode c.toNat = String.utf8EncodeChar c := by
  rw [encodeCode, Char.ofNat_toNat]

theorem escape?_letter {c letter : Char} (h : Text.escapeLetter? c = some letter)
    (rest : Bytes) :
    escape? (letter.toUInt8 :: rest) = some (String.utf8EncodeChar c, rest) := by
  have hc : c = Char.ofNat c.toNat := (Char.ofNat_toNat c).symm
  unfold Text.escapeLetter? at h
  split at h <;> cases h
  all_goals
    rename_i hn
    rw [hc, hn]
    rfl

/-- The steps in which a quoted text is read past an escaped part, which has a meaning. -/
def ReadsPast (part meaning : Bytes) : Prop :=
  ∃ steps ≤ part.length, ∀ fuel after more rest, quoted? fuel after = some (more, rest) →
    quoted? (fuel + steps) (part ++ after) = some (meaning ++ more, rest)

theorem ReadsPast.escape {source meaning : Bytes}
    (h : ∀ after, escape? (source ++ after) = some (meaning, after)) :
    ReadsPast ('\\'.toUInt8 :: source) meaning :=
  ⟨1, by simp, fun _ after _ _ hmore => quoted?_escape (h after) hmore⟩

/-- An escape by the code of a character, whichever of the three letters introduces it. -/
theorem ReadsPast.code {letter : UInt8} {width n : Nat}
    (hletter : ∀ source, escape? (letter :: source) =
      (hex? width 0 source).map fun (n, rest) => (encodeCode n, rest))
    (hwidth : 0 < width) (hfits : n < 16 ^ width) :
    ReadsPast ('\\'.toUInt8 :: letter :: Bytes.ofHex width n) (encodeCode n) := by
  apply ReadsPast.escape
  intro after
  rw [List.cons_append, hletter, hex?_ofHex hwidth hfits]
  rfl

/-- A quoted character reads back as itself. -/
theorem readsPast_char (c : Char) :
    ReadsPast (Text.escapeChar '"' c) (String.utf8EncodeChar c) := by
  unfold Text.escapeChar
  dsimp only
  by_cases hmark : c = '"'
  · subst hmark
    exact .escape fun _ => rfl
  by_cases hescape : c = '\\'
  · subst hescape
    exact .escape fun _ => rfl
  rw [if_neg (by simp [hmark, hescape])]
  split
  · exact ⟨_, Nat.le_refl _, fun _ _ _ _ => quoted?_run (plain_of_encode hmark hescape)⟩
  · split
    · rename_i letter hletter
      exact .escape (escape?_letter hletter)
    · have hlimit : c.toNat < 0x110000 := by
        have hvalid : c.toNat.isValidChar := c.valid
        unfold Nat.isValidChar at hvalid
        omega
      rw [← encodeCode_toNat]
      split
      · rename_i hn
        have hfits : c.toNat < 16 ^ 2 := by
          simp only [Bool.or_eq_true, decide_eq_true_eq] at hn
          omega
        exact .code (fun _ => rfl) (by decide) hfits
      · split
        · rename_i hn
          exact .code (fun _ => rfl) (by decide) hn
        · exact .code (fun _ => rfl) (by decide) (by omega)

theorem readsPast_piece (p : Utf8.Piece) : ReadsPast (Text.escapePiece '"' p) p.latin := by
  cases p with
  | char c => exact readsPast_char c
  | stray b => exact .code (fun _ => rfl) (by decide) b.toNat_lt

theorem quoted?_pieces (ps : List Utf8.Piece) (rest : Bytes) {fuel : Nat}
    (hfuel : (ps.flatMap (Text.escapePiece '"')).length < fuel) :
    quoted? fuel (ps.flatMap (Text.escapePiece '"') ++ '"'.toUInt8 :: rest) =
      some (ps.flatMap Utf8.Piece.latin, rest) := by
  induction ps generalizing fuel with
  | nil =>
      obtain ⟨fuel, rfl⟩ := Nat.exists_eq_add_of_lt hfuel
      rfl
  | cons p ps ih =>
      obtain ⟨steps, hsteps, hpast⟩ := readsPast_piece p
      rw [List.flatMap_cons, List.length_append] at hfuel
      have hmore := @ih (fuel - steps) (by omega)
      have hread := hpast _ _ _ _ hmore
      rw [Nat.sub_add_cancel (by omega)] at hread
      rw [List.flatMap_cons, List.flatMap_cons, List.append_assoc]
      exact hread

/-- A quoted text reads back with its stray bytes as characters. -/
theorem quoted?_quote (text rest : Bytes) :
    ∃ inner, Text.quote text ++ rest = '"'.toUInt8 :: inner ∧
      quoted? (inner.length + 1) inner = some (Utf8.latin text, rest) := by
  refine ⟨(Utf8.pieces text).flatMap (Text.escapePiece '"') ++ '"'.toUInt8 :: rest, ?_, ?_⟩
  · unfold Text.quote
    rw [List.append_assoc, List.append_assoc]
    rfl
  · apply quoted?_pieces
    rw [List.length_append]
    omega

end Script

end Backtick
