import Mathlib
import Backtick.Proofs.Characters
import Backtick.Text.Blank

/-!
# Text without white space at its ends

A run of the pieces of a text is read back as the same pieces. So what trimming
leaves of a text begins and ends with a piece that is no white space, and a text
that does so is left as it is.
-/

namespace Backtick

namespace Utf8

/-- The pieces of a text from some piece on are those of the rest of the text. -/
theorem pieces_join_of_suffix {text : Bytes} {ps : List Piece} (h : ps <:+ pieces text) :
    pieces (join ps) = ps := by
  induction text using pieces.induct with
  | case1 =>
      rw [pieces_nil, List.suffix_nil] at h
      rw [h]
      exact pieces_nil
  | case2 a rest c more hlead ih =>
      rw [pieces_char hlead] at h
      rcases List.suffix_cons_iff.mp h with rfl | h
      · rw [← pieces_char hlead, join_pieces]
      · exact ih h
  | case3 a rest hlead ih =>
      rw [pieces_stray hlead] at h
      rcases List.suffix_cons_iff.mp h with rfl | h
      · rw [← pieces_stray hlead, join_pieces]
      · exact ih h

theorem join_cons (p : Piece) (ps : List Piece) : join (p :: ps) = p.bytes ++ join ps :=
  List.flatMap_cons

/-- The pieces of a text up to some piece are those of the text up to there. -/
theorem pieces_join_of_prefix {text : Bytes} {ps : List Piece} (h : ps <+: pieces text) :
    pieces (join ps) = ps := by
  induction text using pieces.induct generalizing ps with
  | case1 =>
      rw [pieces_nil, List.prefix_nil] at h
      rw [h]
      exact pieces_nil
  | case2 a rest c more hlead ih =>
      rw [pieces_char hlead] at h
      rcases List.prefix_cons_iff.mp h with rfl | ⟨qs, rfl, hqs⟩
      · exact pieces_nil
      · rw [join_cons, Piece.bytes, pieces_encode, ih hqs]
  | case3 a rest hlead ih =>
      rw [pieces_stray hlead] at h
      rcases List.prefix_cons_iff.mp h with rfl | ⟨qs, rfl, hqs⟩
      · exact pieces_nil
      · -- a byte that begins no character begins none in a shorter text either
        have hstray : lead? a (join qs) = none := by
          obtain ⟨more, hmore⟩ := hqs
          have hrest : join qs ++ join more = rest := by
            rw [join, join, ← List.flatMap_append, hmore, ← join, join_pieces]
          by_contra hsome
          obtain ⟨found, hfound⟩ := Option.ne_none_iff_exists'.mp hsome
          have hlonger := lead?_extend hfound (join more)
          rw [hrest, hlead] at hlonger
          cases hlonger
        rw [join_cons, Piece.bytes, List.singleton_append, pieces_stray hstray, ih hqs]

end Utf8

namespace Text

open Utf8

theorem pieces_trimLeft (text : Bytes) :
    pieces (trimLeft text) = (pieces text).dropWhile isBlankPiece :=
  pieces_join_of_suffix (List.dropWhile_suffix _)

theorem pieces_trimRight (text : Bytes) :
    pieces (trimRight text) = (pieces text).rdropWhile isBlankPiece :=
  pieces_join_of_prefix (List.rdropWhile_prefix _ _)

/-- Trimming removes pieces and adds none. -/
theorem trim_sublist (text : Bytes) : (trim text).Sublist text := by
  have hleft : (trimLeft text).Sublist text := by
    have hpart := (List.dropWhile_sublist (l := pieces text) isBlankPiece).flatMap Piece.bytes
    rwa [← join, ← join, join_pieces] at hpart
  have hright : (trim text).Sublist (trimLeft text) := by
    have hpart := (List.rdropWhile_prefix isBlankPiece (pieces (trimLeft text))).sublist.flatMap
      Piece.bytes
    rwa [← join, ← join, join_pieces] at hpart
  exact hright.trans hleft

/-- A text that neither begins nor ends with white space. -/
structure Trimmed (text : Bytes) : Prop where
  left : (pieces text).dropWhile isBlankPiece = pieces text
  right : (pieces text).rdropWhile isBlankPiece = pieces text

theorem Trimmed.trim_eq {text : Bytes} (h : Trimmed text) : trim text = text := by
  have hleft : trimLeft text = text := by rw [trimLeft, h.left, join_pieces]
  calc
    trim text = trimRight text := by rw [trim, hleft]
    _ = join ((pieces text).rdropWhile isBlankPiece) := rfl
    _ = text := by rw [h.right, join_pieces]

/-- What trimming leaves has no white space at its ends. -/
theorem trimmed_trim (text : Bytes) : Trimmed (trim text) := by
  have hpieces : pieces (trim text) =
      ((pieces text).dropWhile isBlankPiece).rdropWhile isBlankPiece := by
    rw [trim, pieces_trimRight, pieces_trimLeft]
  refine ⟨?_, by rw [hpieces, List.rdropWhile_idempotent]⟩
  -- the first piece that is left is the first one that is no white space
  rw [hpieces, List.dropWhile_eq_self_iff]
  intro hlength
  have hsame := (List.rdropWhile_prefix isBlankPiece
    ((pieces text).dropWhile isBlankPiece)).getElem hlength
  rw [hsame]
  exact List.dropWhile_eq_self_iff.mp (List.dropWhile_idempotent isBlankPiece (pieces text)) _

/-- White space at the ends is not made by a first byte that is none. -/
theorem Trimmed.cons {a : UInt8} {text : Bytes} (ha : a < 0x80)
    (hblank : isBlank (Char.ofNat a.toNat) = false) (h : Trimmed text) : Trimmed (a :: text) := by
  have hpieces : pieces (a :: text) = .char (Char.ofNat a.toNat) :: pieces text :=
    pieces_char (lead?_one (UInt8.lt_iff_toNat_lt.mp ha) text)
  have hblank : ¬ isBlankPiece (.char (Char.ofNat a.toNat)) = true := by
    rw [isBlankPiece, hblank]
    exact Bool.false_ne_true
  constructor
  · rw [hpieces, List.dropWhile_cons_of_neg hblank]
  · rw [hpieces, List.rdropWhile_eq_self_iff]
    intro hne
    by_cases hnil : pieces text = []
    · simpa only [hnil, List.getLast_singleton] using hblank
    · rw [List.getLast_cons hnil]
      exact List.rdropWhile_eq_self_iff.mp h.right hnil

theorem trimmed_nil : Trimmed [] := by
  constructor <;> rw [pieces_nil] <;> rfl

end Text

end Backtick
