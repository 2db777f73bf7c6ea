import Mathlib
import Backtick.Proofs.Likeness

/-!
# Tokens tile their template

The scanner goes on turn by turn, each turn taking one lexeme off the text. A
turn that takes nothing leaves literal text for a formula, so the turns end. The
tokens lie one behind the other from the first byte behind the opening backtick
to the closing one, and each covers its lexeme.
-/

namespace Backtick

open Scan Parse

namespace Scan

/-! ## Turns of the scanner -/

/-- One turn: mode and text before it, the class and the lexeme it takes, and what is left. -/
inductive Turn : Mode × Bytes -> TokenKind × Bytes -> Mode × Bytes -> Prop
  | text {run rest : Bytes} (hne : run ++ rest ≠ []) (hrun : NoOpening run)
      (hrest : AtOpening rest) : Turn (.text, run ++ rest) (.string, run) (.formula, rest)
  | token {kind : TokenKind} {lexeme rest : Bytes} (h : Lexeme kind lexeme rest) :
      Turn (.formula, lexeme ++ rest) (kind, lexeme) (.after kind, rest)

/-- The scanner makes a turn and goes on with what is left. -/
theorem Turn.tokens {before after : Mode × Bytes} {word : TokenKind × Bytes}
    (h : Turn before word after) (column : Nat) :
    Scan.tokens before.1 column before.2 = (do
      let more <- Scan.tokens after.1 (column + word.2.length) after.2
      return tokenAt column word.1 word.2 :: more) := by
  cases h with
  | text hne hrun hrest =>
      dsimp only
      rw [tokens_text hne, textRun_append hrun hrest, List.drop_left, List.take_left]
  | token h => exact tokens_lexeme h column

/-- Twice the bytes left, and one more in literal text: every turn makes it smaller. -/
def pending (state : Mode × Bytes) : Nat :=
  2 * state.2.length + if state.1 = .text then 1 else 0

theorem Turn.pending_lt {before after : Mode × Bytes} {word : TokenKind × Bytes}
    (h : Turn before word after) : pending after < pending before := by
  cases h with
  | @text run rest _ _ _ =>
      simp only [pending, List.length_append, if_true,
        if_neg (show Mode.formula ≠ .text by decide)]
      omega
  | @token kind lexeme rest h =>
      have hpos := List.length_pos_of_ne_nil h.ne_nil
      simp only [pending, List.length_append]
      split <;> omega

/-- No text keeps the scanner busy for ever. -/
theorem wellFounded_turn : WellFounded fun after before => ∃ word, Turn before word after :=
  Subrelation.wf (fun ⟨_, h⟩ => h.pending_lt) (InvImage.wf pending wellFounded_lt)

/-- A turn on a text that is not used up is made, or no token begins at its first byte. -/
theorem turn_or_rejected (mode : Mode) (first : UInt8) (rest : Bytes) :
    (∃ word after, Turn (mode, first :: rest) word after) ∨
      mode = .formula ∧ ∃ cause, formulaToken first rest = .error cause := by
  cases mode with
  | text =>
      have hsplit := List.take_append_drop (textRun (first :: rest)) (first :: rest)
      have hturn := Turn.text (by rw [hsplit]; simp) (noOpening_take_textRun (first :: rest))
        (atOpening_drop_textRun (first :: rest))
      rw [hsplit] at hturn
      exact .inl ⟨_, _, hturn⟩
  | formula =>
      cases htoken : formulaToken first rest with
      | error cause => exact .inr ⟨rfl, cause, rfl⟩
      | ok found =>
          obtain ⟨kind, extra⟩ := found
          have hturn := Turn.token (lexeme_of_formulaToken htoken).2
          rw [List.cons_append, List.take_append_drop] at hturn
          exact .inl ⟨_, _, hturn⟩

/-! ## Lexemes of a text -/

theorem Lexes.flatMap {mode : Mode} {bytes : Bytes} {lexed : List (TokenKind × Bytes)}
    (h : Lexes mode bytes lexed) : lexed.flatMap Prod.snd = bytes := by
  induction h with
  | done => rfl
  | text _ _ _ _ ih => rw [List.flatMap_cons, ih]
  | token _ _ ih => rw [List.flatMap_cons, ih]

theorem Lexeme.ne_eof {kind : TokenKind} {lexeme rest : Bytes} (h : Lexeme kind lexeme rest) :
    kind ≠ .eof := by
  cases h with
  | word => exact (TokenKind.ne_ofWord (by decide) _).symm
  | _ => nofun

theorem Lexes.ne_eof {mode : Mode} {bytes : Bytes} {lexed : List (TokenKind × Bytes)}
    (h : Lexes mode bytes lexed) : ∀ word ∈ lexed, word.1 ≠ .eof := by
  induction h with
  | done => nofun
  | text _ _ _ _ ih => exact List.forall_mem_cons.mpr ⟨nofun, ih⟩
  | token hlexeme _ ih => exact List.forall_mem_cons.mpr ⟨hlexeme.ne_eof, ih⟩

end Scan

/-! ## Tokens one behind the other -/

/-- A token stands right behind another; if that one is empty, it is a text run before a formula. -/
structure Token.Follows (t next : Token) : Prop where
  column : next.start = t.stop
  empty : t.lexeme = [] → t.kind = .string ∧ next.kind = .openFormula

namespace Scan

theorem follows_of_ne_nil {lexeme lexeme' : Bytes} (h : lexeme ≠ []) (column : Nat)
    (kind kind' : TokenKind) :
    (tokenAt column kind lexeme).Follows (tokenAt (column + lexeme.length) kind' lexeme') :=
  ⟨rfl, fun hnil => absurd hnil h⟩

/-- The tokens of a text follow each other, the end behind the last of them. -/
theorem Lexes.isChain {mode : Mode} {bytes : Bytes} {lexed : List (TokenKind × Bytes)}
    (h : Lexes mode bytes lexed) (column : Nat) :
    (placed column (lexed ++ [(.eof, [])])).IsChain Token.Follows := by
  induction h generalizing column with
  | done => exact .singleton _
  | @text run rest more hne hrun hrest hmore ih =>
      have hrest' := ih (column + run.length)
      rcases hrest with rfl | ⟨after, rfl⟩
      · obtain rfl := hmore.eq_nil
        rw [List.append_nil] at hne
        exact .cons_cons (follows_of_ne_nil hne column _ _) hrest'
      · obtain ⟨more, rfl, -⟩ := hmore.of_opening rfl
        exact .cons_cons ⟨rfl, fun _ => ⟨rfl, rfl⟩⟩ hrest'
  | @token kind lexeme rest more hlexeme _ ih =>
      have hrest' := ih (column + lexeme.length)
      cases more with
      | nil => exact .cons_cons (follows_of_ne_nil hlexeme.ne_nil column _ _) hrest'
      | cons next more => exact .cons_cons (follows_of_ne_nil hlexeme.ne_nil column _ _) hrest'

/-- Where a token stands in the template in which it was scanned. -/
theorem place_of_mem_placed {template rest : Bytes} {column : Nat}
    {lexed : List (TokenKind × Bytes)}
    (h : template.drop column = lexed.flatMap Prod.snd ++ rest) {t : Token}
    (ht : t ∈ placed column lexed) :
    ∃ place : Nat, t.start = place ∧ t.stop = (place + t.lexeme.length : Nat) ∧ column ≤ place ∧
      place + t.lexeme.length ≤ column + (lexed.flatMap Prod.snd).length ∧
      (template.drop place).take t.lexeme.length = t.lexeme := by
  induction lexed generalizing column with
  | nil => cases ht
  | cons first lexed ih =>
      obtain ⟨kind, lexeme⟩ := first
      rw [List.flatMap_cons, List.append_assoc] at h
      rw [List.flatMap_cons, List.length_append]
      rcases List.mem_cons.mp ht with rfl | ht
      · refine ⟨column, rfl, rfl, Nat.le_refl column, ?_, ?_⟩
        · simp only [tokenAt]
          omega
        · rw [h]
          exact List.take_left
      · obtain ⟨place, hstart, hstop, hle, hbound, hslice⟩ := ih (drop_of_append h) ht
        exact ⟨place, hstart, hstop, by omega, by omega, hslice⟩

theorem flatMap_lexeme_placed (column : Nat) (lexed : List (TokenKind × Bytes)) :
    (placed column lexed).flatMap Token.lexeme = lexed.flatMap Prod.snd := by
  induction lexed generalizing column with
  | nil => rfl
  | cons first lexed ih =>
      obtain ⟨kind, lexeme⟩ := first
      rw [placed, List.flatMap_cons, List.flatMap_cons, ih]
      rfl

/-- The end of a text stands behind all its lexemes. -/
theorem Lexes.placed_end {mode : Mode} {bytes : Bytes} {lexed : List (TokenKind × Bytes)}
    (h : Lexes mode bytes lexed) (column : Nat) :
    placed column (lexed ++ [(.eof, [])]) =
      placed column lexed ++ [tokenAt (column + bytes.length) .eof []] := by
  rw [placed_append, ← h.flatMap, List.length_flatMap]
  rfl

end Scan

/-- Tokens that cover the text between the backticks of a template, without gaps and in order. -/
structure Tiles (template : Bytes) (toks : List Token) : Prop where
  last : ∃ front, toks = front ++ [⟨[], .eof, template.length - 1, template.length - 1⟩] ∧
    ∀ t ∈ front, t.kind ≠ .eof
  first : toks.head?.map Token.start = some 1
  follows : toks.IsChain Token.Follows
  covers : ∀ t ∈ toks, ∃ start stop : Nat, t.start = start ∧ t.stop = stop ∧ start ≤ stop ∧
    stop < template.length ∧ (template.drop start).take (stop - start) = t.lexeme
  joined : toks.flatMap Token.lexeme = (template.drop 1).take (template.length - 2)

theorem Scan.Lexes.tiles {body : Bytes} {lexed : List (TokenKind × Bytes)}
    (h : Lexes .text body lexed) :
    Tiles (inBackticks body) (placed 1 (lexed ++ [(.eof, [])])) where
  last := by
    have hend : ((inBackticks body).length : Int) - 1 = (1 + body.length : Nat) := by
      rw [length_inBackticks]
      omega
    rw [h.placed_end, hend]
    exact ⟨_, rfl, fun t ht => h.ne_eof _ (mem_of_mem_placed ht)⟩
  first := by cases lexed <;> rfl
  follows := h.isChain 1
  covers := by
    intro t ht
    have hall : (lexed ++ [(TokenKind.eof, [])]).flatMap Prod.snd = body := by
      rw [List.flatMap_append, h.flatMap]
      exact List.append_nil body
    have hplace : (inBackticks body).drop 1 =
        (lexed ++ [(TokenKind.eof, [])]).flatMap Prod.snd ++ ['`'.toUInt8] := by
      rw [hall, drop_inBackticks]
    obtain ⟨place, hstart, hstop, -, hbound, hslice⟩ := place_of_mem_placed hplace ht
    rw [hall] at hbound
    refine ⟨place, _, hstart, hstop, Nat.le_add_right place _, ?_, ?_⟩
    · rw [length_inBackticks]
      omega
    · rw [Nat.add_sub_cancel_left]
      exact hslice
  joined := by
    rw [flatMap_lexeme_placed, List.flatMap_append, h.flatMap, length_inBackticks,
      drop_inBackticks, Nat.add_sub_cancel, List.take_left]
    exact List.append_nil body

theorem eq_inBackticks {template : Bytes} (hlength : 2 ≤ template.length)
    (hfirst : template.head? = some '`'.toUInt8) (hlast : template.getLast? = some '`'.toUInt8) :
    ∃ body, template = inBackticks body := by
  obtain ⟨rest, rfl⟩ := List.head?_eq_some_iff.mp hfirst
  have hne : rest ≠ [] := by
    rintro rfl
    simp at hlength
  have hmark : rest.getLast? = some '`'.toUInt8 := by
    obtain ⟨b, rest, rfl⟩ := List.exists_cons_of_ne_nil hne
    rwa [List.getLast?_cons_cons] at hlast
  exact ⟨rest.dropLast, by rw [inBackticks, List.dropLast_append_getLast? _ hmark]⟩

/--
The tokens of a template in backticks tile it: they begin behind the opening
backtick, follow each other without gaps, cover their lexemes, and end with the
only token of the class `eof`, at the closing backtick. An empty token before it
is a text run in front of a formula. On any text the scanner goes on by turns that
cannot be made for ever, until the text is used up or no token begins at its first
byte.
-/
theorem tokens_tile_template :
    (∀ (template : Bytes) (toks : List Token), 2 ≤ template.length →
      template.head? = some '`'.toUInt8 → template.getLast? = some '`'.toUInt8 →
      tokenize template = .ok toks → Tiles template toks) ∧
    (WellFounded fun after before => ∃ word, Scan.Turn before word after) ∧
    ∀ (mode : Scan.Mode) (text : Bytes),
      (text = [] ∧ ∀ column, Scan.tokens mode column text = .ok [Scan.tokenAt column .eof []]) ∨
      (∃ cause, ∀ column, Scan.tokens mode column text = .error ⟨cause, column⟩) ∨
      ∃ word after, Scan.Turn (mode, text) word after ∧ ∀ column,
        Scan.tokens mode column text = (do
          let more <- Scan.tokens after.1 (column + word.2.length) after.2
          return Scan.tokenAt column word.1 word.2 :: more) := by
  refine ⟨?_, wellFounded_turn, ?_⟩
  · intro template toks hlength hfirst hlast h
    obtain ⟨body, rfl⟩ := eq_inBackticks hlength hfirst hlast
    rw [tokenize, body?_inBackticks] at h
    obtain ⟨lexed, hlexes, rfl⟩ := tokens_eq_ok_iff.mp h
    exact hlexes.tiles
  · intro mode text
    cases text with
    | nil => exact .inl ⟨rfl, tokens_nil mode⟩
    | cons first rest =>
        rcases turn_or_rejected mode first rest with ⟨word, after, hturn⟩ | ⟨rfl, cause, herror⟩
        · exact .inr (.inr ⟨word, after, hturn, hturn.tokens⟩)
        · exact .inr (.inl ⟨cause, fun column => by rw [Scan.tokens, herror]⟩)

/-- A character of two bytes, and an empty run between two formulas. -/
theorem tokens_tile_template_sample :
    Tiles "`é$\x7b\x7d$\x7b \x7d`"
      [⟨"é", .string, 1, 3⟩, ⟨"$\x7b", .openFormula, 3, 5⟩, ⟨"\x7d", .closeBrace, 5, 6⟩,
        ⟨"", .string, 6, 6⟩, ⟨"$\x7b", .openFormula, 6, 8⟩, ⟨" ", .whitespace, 8, 9⟩,
        ⟨"\x7d", .closeBrace, 9, 10⟩, ⟨"", .eof, 10, 10⟩] :=
  tokens_tile_template.1 _ _ (by decide +kernel) (by decide +kernel) (by decide +kernel) (by cbv)

end Backtick
