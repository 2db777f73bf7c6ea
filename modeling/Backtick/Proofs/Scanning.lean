import Mathlib
import Backtick.Proofs.Lexemes
import Backtick.Proofs.Outcome

/-!
# What the scanner makes of a text

`Lexes` relates a text to the classes and lexemes of its tokens, without their
columns. The scanner succeeds exactly on related texts, and its tokens are the
lexemes placed one behind the other.
-/

namespace Backtick.Scan

/-- The tokens of classes and lexemes, one behind the other from a column on. -/
def placed (column : Nat) : List (TokenKind × Bytes) -> List Token
  | [] => []
  | (kind, lexeme) :: rest => tokenAt column kind lexeme :: placed (column + lexeme.length) rest

def NoOpening (run : Bytes) : Prop :=
  textRun run = run.length

def AtOpening (rest : Bytes) : Prop :=
  rest = [] ∨ ∃ after, rest = '$'.toUInt8 :: '{'.toUInt8 :: after

/-- The classes and lexemes of a text that is scanned in a mode. -/
inductive Lexes : Mode -> Bytes -> List (TokenKind × Bytes) -> Prop
  | done (mode : Mode) : Lexes mode [] []
  | text {run rest : Bytes} {more : List (TokenKind × Bytes)} (hne : run ++ rest ≠ [])
      (hrun : NoOpening run) (hrest : AtOpening rest) (h : Lexes .formula rest more) :
      Lexes .text (run ++ rest) ((.string, run) :: more)
  | token {kind : TokenKind} {lexeme rest : Bytes} {more : List (TokenKind × Bytes)}
      (hlexeme : Lexeme kind lexeme rest) (h : Lexes (.after kind) rest more) :
      Lexes .formula (lexeme ++ rest) ((kind, lexeme) :: more)

/-! ## Text runs -/

theorem textRun_le (bytes : Bytes) : textRun bytes ≤ bytes.length := by
  induction bytes with
  | nil => simp [textRun]
  | cons a rest ih =>
      unfold textRun
      split <;> simp only [List.length_cons] <;> omega

theorem atOpening_drop_textRun (bytes : Bytes) : AtOpening (bytes.drop (textRun bytes)) := by
  induction bytes with
  | nil => exact .inl rfl
  | cons a rest ih =>
      unfold textRun
      split
      · rename_i hopen
        simp only [Bool.and_eq_true, decide_eq_true_eq] at hopen
        obtain ⟨rfl, hhead⟩ := hopen
        obtain ⟨after, rfl⟩ := List.head?_eq_some_iff.mp hhead
        exact .inr ⟨after, rfl⟩
      · simpa using ih

theorem noOpening_nil : NoOpening [] := rfl

theorem noOpening_cons_iff {a : UInt8} {rest : Bytes} :
    NoOpening (a :: rest) ↔
      ¬(a = '$'.toUInt8 ∧ rest.head? = some '{'.toUInt8) ∧ NoOpening rest := by
  unfold NoOpening
  rw [textRun]
  by_cases hopen : a = '$'.toUInt8 ∧ rest.head? = some '{'.toUInt8
  · simp [hopen.1, hopen.2]
  · rw [if_neg (by simpa using hopen)]
    simp [hopen]

theorem noOpening_append_iff {first second : Bytes} :
    NoOpening (first ++ second) ↔
      NoOpening first ∧ NoOpening second ∧
        ¬(first.getLast? = some '$'.toUInt8 ∧ second.head? = some '{'.toUInt8) := by
  induction first with
  | nil => simp [noOpening_nil]
  | cons a first ih =>
      rw [List.cons_append, noOpening_cons_iff, ih, noOpening_cons_iff]
      cases first with
      | nil => simp [noOpening_nil]; tauto
      | cons b first => simp [List.getLast?_cons_cons]; tauto

theorem noOpening_take_textRun (bytes : Bytes) : NoOpening (bytes.take (textRun bytes)) := by
  induction bytes with
  | nil => rfl
  | cons a rest ih =>
      rw [textRun]
      by_cases hopen : a = '$'.toUInt8 ∧ rest.head? = some '{'.toUInt8
      · rw [if_pos (by simpa using hopen)]
        rfl
      · rw [if_neg (by simpa using hopen), List.take_succ_cons, noOpening_cons_iff]
        refine ⟨?_, ih⟩
        rintro ⟨ha, hhead⟩
        refine hopen ⟨ha, ?_⟩
        cases rest with
        | nil => simp at hhead
        | cons b rest =>
            cases hn : textRun (b :: rest) with
            | zero => simp [hn] at hhead
            | succ n => simpa [hn] using hhead

theorem textRun_append {run rest : Bytes} (hrun : NoOpening run) (hrest : AtOpening rest) :
    textRun (run ++ rest) = run.length := by
  induction run with
  | nil =>
      rcases hrest with rfl | ⟨after, rfl⟩
      · rfl
      · simp [textRun]
  | cons a run ih =>
      obtain ⟨hopen, hmore⟩ := noOpening_cons_iff.mp hrun
      have hnot : ¬(a = '$'.toUInt8 ∧ (run ++ rest).head? = some '{'.toUInt8) := by
        rintro ⟨ha, hhead⟩
        cases run with
        | nil =>
            rcases hrest with rfl | ⟨after, rfl⟩
            · simp at hhead
            · exact absurd (Option.some.inj hhead) (by decide)
        | cons b run => exact hopen ⟨ha, by simpa using hhead⟩
      rw [List.cons_append, textRun, if_neg (by simpa using hnot), ih hmore]
      rfl

/-! ## The tokens of a text -/

theorem tokens_nil (mode : Mode) (column : Nat) :
    tokens mode column [] = .ok [tokenAt column .eof []] := by
  rw [tokens]

theorem tokens_text {bytes : Bytes} (hne : bytes ≠ []) (column : Nat) :
    tokens .text column bytes = (do
      let more <- tokens .formula (column + textRun bytes) (bytes.drop (textRun bytes))
      return tokenAt column .string (bytes.take (textRun bytes)) :: more) := by
  obtain ⟨first, rest, rfl⟩ := List.exists_cons_of_ne_nil hne
  rw [tokens]

theorem tokens_lexeme {kind : TokenKind} {lexeme rest : Bytes} (h : Lexeme kind lexeme rest)
    (column : Nat) :
    tokens .formula column (lexeme ++ rest) = (do
      let more <- tokens (.after kind) (column + lexeme.length) rest
      return tokenAt column kind lexeme :: more) := by
  obtain ⟨first, more, rfl, htoken⟩ := h.formulaToken
  rw [List.cons_append, tokens, htoken]
  simp

theorem Lexes.tokens {mode : Mode} {bytes : Bytes} {lexed : List (TokenKind × Bytes)}
    (h : Lexes mode bytes lexed) (column : Nat) :
    Scan.tokens mode column bytes = .ok (placed column (lexed ++ [(.eof, [])])) := by
  induction h generalizing column with
  | done mode => rw [tokens_nil]; rfl
  | text hne hrun hrest _ ih =>
      rw [tokens_text hne, textRun_append hrun hrest, List.drop_left, List.take_left, ih]
      rfl
  | token hlexeme _ ih =>
      rw [tokens_lexeme hlexeme, ih]
      rfl

theorem lexes_of_tokens {mode : Mode} {column : Nat} {bytes : Bytes} {toks : List Token}
    (h : tokens mode column bytes = .ok toks) :
    ∃ lexed, Lexes mode bytes lexed ∧ toks = placed column (lexed ++ [(.eof, [])]) := by
  induction mode, column, bytes using tokens.induct generalizing toks with
  | case1 mode column =>
      rw [tokens_nil] at h
      cases h
      exact ⟨[], .done mode, rfl⟩
  | case2 column first rest run =>
      rename_i ih
      rw [tokens_text (by simp)] at h
      obtain ⟨more, hmore, h⟩ := bind_eq_ok_iff.mp h
      cases h
      obtain ⟨lexed, hlexes, rfl⟩ := ih hmore
      have hsplit := List.take_append_drop (textRun (first :: rest)) (first :: rest)
      have hlen : ((first :: rest).take (textRun (first :: rest))).length =
          textRun (first :: rest) := by
        rw [List.length_take, Nat.min_eq_left (textRun_le (first :: rest))]
      have htext := Lexes.text (by rw [hsplit]; simp) (noOpening_take_textRun (first :: rest))
        (atOpening_drop_textRun _) hlexes
      rw [hsplit] at htext
      refine ⟨_, htext, ?_⟩
      simp only [List.cons_append, placed]
      rw [hlen]
  | case3 column first rest cause herror =>
      rw [tokens, herror] at h
      cases h
  | case4 column first rest kind extra hok lexeme =>
      rename_i ih
      rw [tokens, hok] at h
      obtain ⟨more, hmore, h⟩ := bind_eq_ok_iff.mp h
      cases h
      obtain ⟨lexed, hlexes, rfl⟩ := ih hmore
      obtain ⟨hle, hlexeme⟩ := lexeme_of_formulaToken hok
      have htoken := Lexes.token hlexeme hlexes
      rw [List.cons_append, List.take_append_drop] at htoken
      exact ⟨_, htoken, rfl⟩

theorem tokens_eq_ok_iff {mode : Mode} {column : Nat} {bytes : Bytes} {toks : List Token} :
    tokens mode column bytes = .ok toks ↔
      ∃ lexed, Lexes mode bytes lexed ∧ toks = placed column (lexed ++ [(.eof, [])]) := by
  constructor
  · exact lexes_of_tokens
  · rintro ⟨lexed, hlexes, rfl⟩
    exact hlexes.tokens column

end Backtick.Scan
