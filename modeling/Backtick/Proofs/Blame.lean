import Mathlib
import Backtick.Proofs.Tiling

/-!
# Where the faults of a compilation point

A compilation fails while the template is split into tokens, or while the tokens
are made into a tree. The first kind of fault points to the first byte at which
no token begins, the second to a token. Every fault of the parser is reported at
a token that it was given or at the boundary of a part of them; none of these is
empty, since empty tokens stand only outside formulas, where nothing is refused.
-/

namespace Backtick

open Scan Parse

/-! ## Faults of the scanner -/

namespace Scan

/-- The scanner makes turns, each from what the one before it left. -/
inductive Turns : Mode × Bytes -> List (TokenKind × Bytes) -> Mode × Bytes -> Prop
  | refl (state : Mode × Bytes) : Turns state [] state
  | step {before middle after : Mode × Bytes} {word : TokenKind × Bytes}
      {more : List (TokenKind × Bytes)} (hfirst : Turn before word middle)
      (hrest : Turns middle more after) : Turns before (word :: more) after

theorem Turn.bytes {before after : Mode × Bytes} {word : TokenKind × Bytes}
    (h : Turn before word after) : before.2 = word.2 ++ after.2 := by
  cases h <;> rfl

/-- Turns take off what lies in front. -/
theorem Turns.bytes {before after : Mode × Bytes} {lexed : List (TokenKind × Bytes)}
    (h : Turns before lexed after) : before.2 = lexed.flatMap Prod.snd ++ after.2 := by
  induction h with
  | refl => rfl
  | step hfirst _ ih => rw [hfirst.bytes, ih, List.flatMap_cons, List.append_assoc]

/-- The scanner gets as far as an offset of a text, inside a formula, and no token begins there. -/
def Stuck (text : Bytes) (offset : Nat) : Prop :=
  ∃ lexed first rest, Turns (.text, text) lexed (.formula, first :: rest) ∧
    offset = (lexed.flatMap Prod.snd).length ∧
    ∀ kind lexeme after, lexeme ++ after = first :: rest → ¬Lexeme kind lexeme after

theorem not_lexeme_of_rejected {first : UInt8} {rest : Bytes} {cause : LexicalCause}
    (h : formulaToken first rest = .error cause) {kind : TokenKind} {lexeme after : Bytes}
    (htext : lexeme ++ after = first :: rest) : ¬Lexeme kind lexeme after := by
  intro hlexeme
  obtain ⟨first', more, rfl, htoken⟩ := hlexeme.formulaToken
  rw [List.cons_append, List.cons.injEq] at htext
  obtain ⟨rfl, rfl⟩ := htext
  rw [h] at htoken
  cases htoken

/-- A scan that fails has made turns up to a byte at which no token begins. -/
theorem turns_of_error (state : Mode × Bytes) {column : Nat} {e : LexicalError}
    (h : tokens state.1 column state.2 = .error e) :
    ∃ lexed first rest, Turns state lexed (.formula, first :: rest) ∧
      e.column = column + (lexed.flatMap Prod.snd).length ∧
      formulaToken first rest = .error e.cause := by
  induction state using wellFounded_turn.induction generalizing column with
  | _ state ih =>
      obtain ⟨mode, text⟩ := state
      cases text with
      | nil =>
          rw [tokens_nil] at h
          cases h
      | cons first rest =>
          rcases turn_or_rejected mode first rest with ⟨word, after, hturn⟩ | ⟨rfl, cause, hcause⟩
          · rw [hturn.tokens] at h
            cases hmore : tokens after.1 (column + word.2.length) after.2 with
            | ok more =>
                rw [hmore] at h
                cases h
            | error e' =>
                rw [hmore] at h
                cases h
                obtain ⟨lexed, first', rest', hturns, hcolumn, hcause⟩ :=
                  ih after ⟨word, hturn⟩ hmore
                refine ⟨word :: lexed, first', rest', .step hturn hturns, ?_, hcause⟩
                rw [hcolumn, List.flatMap_cons, List.length_append, Nat.add_assoc]
          · rw [tokens, hcause] at h
            cases h
            exact ⟨[], first, rest, .refl _, rfl, hcause⟩

/-- The column of a lexical error is that of a byte of the text. -/
theorem stuck_of_error {text : Bytes} {column : Nat} {e : LexicalError}
    (h : tokens .text column text = .error e) :
    ∃ offset, e.column = column + offset ∧ offset < text.length ∧ Stuck text offset := by
  obtain ⟨lexed, first, rest, hturns, hcolumn, hcause⟩ := turns_of_error (.text, text) h
  have hlength := congrArg List.length hturns.bytes
  simp only [List.length_append, List.length_cons] at hlength
  exact ⟨_, hcolumn, by omega, lexed, first, rest, hturns, rfl,
    fun _ _ _ htext => not_lexeme_of_rejected hcause htext⟩

end Scan

/-! ## Faults of the parser -/

namespace Parse

/-- A failure is reported at the column of a token with a property. -/
def PointsTo {α : Type} (p : Token → Prop) (x : Except SyntaxError α) : Prop :=
  ∀ e, x = .error e → ∃ t, p t ∧ e.column = t.start

section Pointing

variable {α β : Type} {p : Token → Prop}

theorem PointsTo.ok (a : α) : PointsTo p (.ok a) := by
  rintro _ ⟨⟩

theorem PointsTo.failAt {t : Token} (h : p t) (cause : SyntaxCause) :
    PointsTo p (Parse.failAt t cause : Except SyntaxError α) := by
  rintro _ ⟨⟩
  exact ⟨t, h, rfl⟩

theorem PointsTo.bind {x : Except SyntaxError α} {f : α → Except SyntaxError β}
    (hx : PointsTo p x) (hf : ∀ a, x = .ok a → PointsTo p (f a)) : PointsTo p (x >>= f) := by
  cases x with
  | error e =>
      rintro _ ⟨⟩
      exact hx e rfl
  | ok a => exact hf a rfl

theorem PointsTo.unless {c : Prop} [Decidable c] {t : Token} (h : p t) (cause : SyntaxCause)
    {x : Except SyntaxError α} (hx : PointsTo p x) :
    PointsTo p (if c then Parse.failAt t cause else x) := by
  split
  · exact .failAt h cause
  · exact hx

variable {template : Bytes} {toks : List Token} {bound : Token}

theorem tokenAt_of_forall (htoks : ∀ t ∈ toks, p t) (hbound : p bound) (i : Nat) :
    p (tokenAt toks bound i) := by
  unfold tokenAt
  rw [List.getD_eq_getElem?_getD]
  cases hi : toks[i]? with
  | none => exact hbound
  | some t => exact htoks t (List.mem_of_getElem? hi)

theorem getCall_pointsTo (htoks : ∀ t ∈ toks, p t) (hbound : p bound) :
    PointsTo p (getCall template toks bound) := by
  have hat := tokenAt_of_forall htoks hbound
  unfold getCall
  exact .unless (hat 1) _ (.unless (hat 2) _ (.unless (hat 3) _ (.ok _)))

theorem lengthCall_pointsTo (htoks : ∀ t ∈ toks, p t) (hbound : p bound) :
    PointsTo p (lengthCall template toks bound) := by
  have hat := tokenAt_of_forall htoks hbound
  unfold lengthCall
  refine .unless (hat 1) _ (.unless (hat 2) _ (.bind ?_ fun found _ => ?_))
  · exact getCall_pointsTo (fun t ht => htoks t (List.mem_of_mem_drop ht)) hbound
  · exact .unless (hat _) _ (.ok _)

theorem argument_pointsTo (htoks : ∀ t ∈ toks, p t)
    (hvalue : PointsTo p (value template toks bound)) :
    PointsTo p (argument template toks bound) := by
  rw [argument]
  refine .bind hvalue fun found _ => ?_
  obtain ⟨v, taken⟩ := found
  dsimp only
  split
  · exact .ok _
  · rename_i t rest hdrop
    exact .failAt (htoks t (List.mem_of_mem_drop (hdrop ▸ List.mem_cons_self))) _

/-- Values that are read from tokens with a property fail at such a token, or at the boundary. -/
def ValuesPoint (template : Bytes) (p : Token → Prop) (most : Nat) : Prop :=
  ∀ (toks : List Token) (bound : Token), toks.length ≤ most → (∀ t ∈ toks, p t) → p bound →
    PointsTo p (value template toks bound)

theorem condition_pointsTo (hvalues : ValuesPoint template p toks.length)
    (htoks : ∀ t ∈ toks, p t) (hbound : p bound) :
    PointsTo p (condition template toks bound) := by
  have hvalue := hvalues toks bound (Nat.le_refl _) htoks hbound
  cases hleft : value template toks bound with
  | error e =>
      have hcondition : condition template toks bound = .error e := by
        rw [condition, hleft]
        rfl
      rw [hcondition]
      rw [hleft] at hvalue
      rintro _ ⟨⟩
      exact hvalue e rfl
  | ok found =>
      obtain ⟨left, taken⟩ := found
      cases hdrop : toks.drop taken with
      | nil =>
          rw [condition_of_end hleft hdrop]
          exact .ok left
      | cons sign rest =>
          rw [condition_of_sign hleft hdrop]
          have hmem (t : Token) (ht : t ∈ sign :: rest) : t ∈ toks :=
            List.mem_of_mem_drop (hdrop ▸ ht)
          have hrest (t : Token) (ht : t ∈ rest) := htoks t (hmem t (List.mem_cons_of_mem _ ht))
          have hlength : rest.length ≤ toks.length := by
            have := congrArg List.length hdrop
            simp only [List.length_drop, List.length_cons] at this
            omega
          split
          · exact .bind (argument_pointsTo hrest (hvalues rest bound hlength hrest hbound))
              fun right _ => .ok _
          · exact .failAt (htoks sign (hmem sign List.mem_cons_self)) _

/-- The parts between commas and the commas themselves are among the tokens that were parted. -/
theorem forall_parts_of_forall {parts : List (List Token × Token)} {last : List Token}
    (h : atCommas 0 toks = (parts, last)) (htoks : ∀ t ∈ toks, p t) :
    (∀ part ∈ parts, (∀ t ∈ part.1, p t) ∧ p part.2) ∧ ∀ t ∈ last, p t := by
  have hjoined := joined_atCommas 0 toks
  rw [h] at hjoined
  rw [← hjoined, Parts.joined] at htoks
  simp only [List.forall_mem_append, List.mem_flatMap, forall_exists_index, and_imp] at htoks
  refine ⟨fun part hpart => ⟨fun t ht => ?_, ?_⟩, htoks.2⟩
  · exact htoks.1 t part hpart (by simp [ht])
  · exact htoks.1 part.2 part hpart (by simp)

theorem choice_pointsTo {word : Token} (hvalues : ValuesPoint template p toks.length)
    (htoks : ∀ t ∈ toks, p t) (hbound : p bound) :
    PointsTo p (choice template word toks bound) := by
  cases toks with
  | nil =>
      rw [choice]
      exact .failAt hbound _
  | cons opening inside =>
      obtain ⟨hopen, hinside⟩ := List.forall_mem_cons.mp htoks
      by_cases hkind : opening.kind = .openParen
      · rw [choice_open template word bound hkind]
        cases hfound : closing? 0 inside with
        | none => exact .failAt hopen _
        | some found =>
            obtain ⟨args, close, after⟩ := found
            have hlength := length_closing? hfound
            obtain ⟨rfl, -, -⟩ := closing?_split hfound
            obtain ⟨hargs, hclose⟩ := List.forall_mem_append.mp hinside
            have hclose := hclose close List.mem_cons_self
            dsimp only
            rcases hparts : atCommas 0 args with
              ⟨_ | ⟨⟨tests, comma⟩, _ | ⟨⟨yess, comma'⟩, _ | ⟨⟨extra, comma''⟩, more⟩⟩⟩, nos⟩
            · exact .failAt hclose _
            · exact .failAt hclose _
            · have hsize := partsLength_atCommas 0 args
              rw [hparts] at hsize
              simp only [partsLength, List.foldr_cons, List.foldr_nil] at hsize
              obtain ⟨hpart, hno⟩ := forall_parts_of_forall hparts hargs
              obtain ⟨htest, hcomma⟩ := hpart _ List.mem_cons_self
              obtain ⟨hyes, hcomma'⟩ := hpart _ (List.mem_cons_of_mem _ List.mem_cons_self)
              have hfewer {part : List Token} (hpart : part.length ≤ args.length) :
                  ValuesPoint template p part.length := by
                intro toks bound htoks
                exact hvalues toks bound (by simp only [List.length_cons]; omega)
              refine .bind (condition_pointsTo (hfewer (by omega)) htest hcomma) fun test _ => ?_
              refine .bind (argument_pointsTo hyes ?_) fun yes _ => ?_
              · exact hfewer (by omega) _ _ (Nat.le_refl _) hyes hcomma'
              refine .bind (argument_pointsTo hno ?_) fun no _ => .ok _
              exact hfewer (by omega) _ _ (Nat.le_refl _) hno hclose
            · have hthird := (forall_parts_of_forall hparts hargs).1 (extra, comma'') (by simp)
              exact .failAt hthird.2 _
      · rw [choice]
        simp only [ne_eq, hkind, not_false_eq_true, if_true]
        exact .failAt hopen _

theorem valuesPoint (template : Bytes) (p : Token → Prop) (most : Nat) :
    ValuesPoint template p most := by
  induction most using Nat.strong_induction_on with
  | _ most ih =>
      intro toks bound hlength htoks hbound
      cases toks with
      | nil =>
          rw [value]
          exact .failAt hbound _
      | cons t rest =>
          obtain ⟨ht, hrest⟩ := List.forall_mem_cons.mp htoks
          rw [value]
          split
          · exact .ok _
          · split
            · exact .ok _
            · exact .failAt ht _
          · exact .ok _
          · exact .ok _
          · exact .bind (getCall_pointsTo htoks hbound) fun found _ => .ok _
          · exact lengthCall_pointsTo htoks hbound
          · exact choice_pointsTo (ih rest.length hlength) hrest hbound
          · exact .failAt ht _

theorem formulaValue_pointsTo (htoks : ∀ t ∈ toks, p t) (hbound : p bound) :
    PointsTo p (formulaValue template toks bound) := by
  unfold formulaValue
  split
  · exact .ok _
  · have hvalue := valuesPoint template p _ toks bound (Nat.le_refl _) htoks hbound
    refine hvalue.bind fun found _ => ?_
    obtain ⟨v, taken⟩ := found
    dsimp only
    split
    · exact .ok _
    · rename_i t rest hdrop
      have ht := htoks t (List.mem_of_mem_drop (hdrop ▸ List.mem_cons_self))
      exact .unless ht _ (.failAt ht _)

/-! ## Faults in a text -/

theorem ne_brace_of_braced? {inner after : List Token} {close : Token}
    (h : braced? toks = some (inner, close, after)) : ∀ t ∈ inner, t.kind ≠ .closeBrace := by
  induction toks generalizing inner with
  | nil => cases h
  | cons t rest ih =>
      rw [braced?] at h
      split at h
      · cases h
        exact List.forall_mem_nil _
      · rename_i hkind
        obtain ⟨⟨inner, close, after⟩, hrest, h⟩ := Option.map_eq_some_iff.mp h
        cases h
        exact List.forall_mem_cons.mpr ⟨hkind, ih hrest⟩

/-- No token inside a closed formula is empty. -/
theorem ne_nil_of_takes {inner rest : Bytes} {lexed : List (TokenKind × Bytes)} (column : Nat)
    (h : Takes inner lexed rest) (hrest : rest ≠ []) :
    ∀ t ∈ significant (placed column lexed), t.lexeme ≠ [] := by
  intro t ht
  obtain ⟨_, -, hlexeme⟩ := h.lexeme hrest (mem_of_mem_placed (List.mem_of_mem_filter ht))
  exact hlexeme.ne_nil

/-- Every scanned text shorter than a bound is refused at a token that is not empty, if at all. -/
def TextsPoint (template : Bytes) (p : Token → Prop) (most : Nat) : Prop :=
  ∀ (column : Nat) (body : Bytes) (lexed : List (TokenKind × Bytes)), body.length < most →
    Lexes .text body lexed →
    (∀ t ∈ significant (placed column lexed), t.lexeme ≠ [] → p t) →
    PointsTo p (segments template (significant (placed column lexed)))

theorem formula_pointsTo {column : Nat} {after : Bytes} {more : List (TokenKind × Bytes)}
    (h : Lexes .formula after more) (htexts : TextsPoint template p after.length)
    (hopening : p (opening column))
    (hp : ∀ t ∈ significant (placed (column + 2) more), t.lexeme ≠ [] → p t) :
    PointsTo p (segments template (opening column :: significant (placed (column + 2) more))) := by
  cases hbraced : braced? (significant (placed (column + 2) more)) with
  | none =>
      rw [segments_unclosed template rfl hbraced]
      exact .failAt hopening _
  | some found =>
      obtain ⟨toks, close, others⟩ := found
      have htoks := ne_brace_of_braced? hbraced
      obtain ⟨heq, hclose⟩ := braced?_split hbraced
      obtain ⟨inner, rest, lexed, others', rfl, htakes, hothers, rfl, rfl, rfl⟩ :=
        h.split rfl heq htoks hclose
      rw [heq] at hp ⊢
      obtain ⟨hinner, hp⟩ := List.forall_mem_append.mp hp
      obtain ⟨hclosing, hp⟩ := List.forall_mem_cons.mp hp
      have hlexemes := ne_nil_of_takes (column + 2) htakes (List.cons_ne_nil _ _)
      have hshorter : rest.length < (inner ++ '}'.toUInt8 :: rest).length := by
        rw [List.length_append, List.length_cons]
        omega
      rw [← List.cons_append, segments_formula template rfl htoks hclose]
      have hafter := htexts _ rest others' hshorter hothers hp
      refine .bind ?_ fun v _ => hafter.bind fun found _ => .ok _
      exact formulaValue_pointsTo (fun t ht => hinner t ht (hlexemes t ht))
        (hclosing (List.cons_ne_nil _ _))

/-- The parser refuses a scanned text at a token that is not empty. -/
theorem textsPoint (template : Bytes) (p : Token → Prop) (most : Nat) :
    TextsPoint template p most := by
  -- behind a closed formula the text is shorter
  induction most using Nat.strong_induction_on with
  | _ most ih =>
      intro column body lexed hlength h hp
      cases h with
      | done =>
          rw [placed, significant, List.filter_nil, segments]
          exact .ok _
      | @text run rest more hne hrun hrest hmore =>
          rw [placed, significant_tokenAt (show TokenKind.string ≠ .whitespace by decide)] at hp ⊢
          obtain ⟨-, hp⟩ := List.forall_mem_cons.mp hp
          rw [segments_text template rfl]
          refine .bind ?_ fun found _ => .ok _
          rcases hrest with rfl | ⟨after, rfl⟩
          · obtain rfl := hmore.eq_nil
            rw [placed, significant, List.filter_nil, segments]
            exact .ok _
          · obtain ⟨more, rfl, hinside⟩ := hmore.of_opening rfl
            rw [placed,
              significant_tokenAt (show TokenKind.openFormula ≠ .whitespace by decide)] at hp ⊢
            obtain ⟨hopening, hp⟩ := List.forall_mem_cons.mp hp
            have hshorter : after.length < most := by
              simp only [List.length_append, List.length_cons] at hlength
              omega
            exact formula_pointsTo hinside (ih after.length hshorter)
              (hopening (List.cons_ne_nil _ _)) hp

/-- A scanned template is refused at a token of it that is not empty. -/
theorem parse_pointsTo {body : Bytes} {lexed : List (TokenKind × Bytes)} {column : Nat}
    (h : Lexes .text body lexed) :
    PointsTo (fun t => t ∈ placed column lexed ∧ t.lexeme ≠ [])
      (parse template (placed column (lexed ++ [(.eof, [])]))) := by
  have hsegments := textsPoint template (fun t => t ∈ placed column lexed ∧ t.lexeme ≠ []) _ column
    body lexed (Nat.lt_succ_self _) h fun t ht hne => ⟨List.mem_of_mem_filter ht, hne⟩
  change PointsTo _ (sourceFile template (significant _))
  rw [significant_end]
  generalize significant (placed column lexed) = toks at hsegments
  unfold sourceFile
  rw [List.getLast?_concat, List.dropLast_concat]
  refine .bind ?_ fun parts _ => .ok _
  cases toks with
  | nil => exact .ok _
  | cons first rest =>
      refine .bind hsegments fun found hfound => ?_
      obtain ⟨parts, left⟩ := found
      obtain ⟨rfl, -⟩ := segments_sound (first :: rest) hfound
      exact .ok _

end Pointing

end Parse

/-! ## Faults of a compilation -/

/-- Every tree that the parser returns is accepted as a template. -/
theorem exists_ofFile_of_parse {template : Bytes} {toks : List Token} {file : SourceFile}
    (h : parse template toks = .ok file) : ∃ t, Template.ofFile (some file) = .ok t := by
  obtain ⟨source, hsource⟩ := (parse_eq_ok_iff.mp h).emits
  exact ⟨_, bind_eq_ok_iff.mpr ⟨source, hsource, rfl⟩⟩

theorem column_lexicalError {e : LexicalError} (h : 0 < e.column) : e.toFault.column = e.column :=
  if_pos (Int.natCast_pos.mpr h)

theorem column_syntaxError {e : SyntaxError} (h : 0 < e.column) : e.toFault.column = e.column :=
  if_pos h

theorem snippet_ne_nil {template : Bytes} {f : Fault} (hpos : 0 < f.column)
    (hle : f.column ≤ template.length) : f.snippet template ≠ [] := by
  have hinside : ¬(f.column ≤ 0 || (template.length : Int) < f.column) = true := by
    simp only [Bool.or_eq_true, decide_eq_true_eq]
    omega
  unfold Fault.snippet
  dsimp only
  rw [if_neg hinside]
  exact List.append_ne_nil_of_right_ne_nil _ (by decide +kernel)

/-- What a fault of a compilation says about its template. -/
structure Blames (template : Bytes) (fault : Fault) : Prop where
  column_pos : 1 ≤ fault.column
  column_le : fault.column ≤ template.length - 2
  snippet : fault.snippet template ≠ []
  place : (fault.kinds = [.lexical] ∧ ∃ body offset, template = inBackticks body ∧
      Stuck body offset ∧ fault.column = (1 + offset : Nat)) ∨
    (fault.kinds = [.grammar] ∧ ∃ toks, tokenize template = .ok toks ∧
      ∃ t ∈ toks, t.lexeme ≠ [] ∧ fault.column = t.start)

theorem blames_of_lexicalError {body : Bytes} {e : LexicalError}
    (h : Scan.tokens .text 1 body = .error e) : Blames (inBackticks body) e.toFault := by
  obtain ⟨offset, hcolumn, hoffset, hstuck⟩ := stuck_of_error h
  have hfault : e.toFault.column = (1 + offset : Nat) := by
    rw [column_lexicalError (by omega), hcolumn]
  have hlength := length_inBackticks body
  refine ⟨by omega, by omega, snippet_ne_nil (by omega) (by omega), .inl ?_⟩
  exact ⟨rfl, body, offset, rfl, hstuck, hfault⟩

theorem blames_of_syntaxError {body : Bytes} {toks : List Token} {e : SyntaxError}
    (htoks : Scan.tokens .text 1 body = .ok toks)
    (h : parse (inBackticks body) toks = .error e) : Blames (inBackticks body) e.toFault := by
  obtain ⟨lexed, hlexes, rfl⟩ := tokens_eq_ok_iff.mp htoks
  obtain ⟨t, ⟨hmem, hne⟩, hcolumn⟩ := parse_pointsTo hlexes e h
  have hplace : (inBackticks body).drop 1 = lexed.flatMap Prod.snd ++ ['`'.toUInt8] := by
    rw [hlexes.flatMap, drop_inBackticks]
  obtain ⟨place, hstart, -, hle, hbound, -⟩ := place_of_mem_placed hplace hmem
  rw [hlexes.flatMap] at hbound
  have hpos := List.length_pos_of_ne_nil hne
  have hlength := length_inBackticks body
  have hfault : e.toFault.column = t.start := by rw [column_syntaxError (by omega), hcolumn]
  have htokens : tokenize (inBackticks body) = .ok (placed 1 (lexed ++ [(.eof, [])])) := by
    rw [tokenize, body?_inBackticks]
    exact htoks
  refine ⟨by omega, by omega, snippet_ne_nil (by omega) (by omega), .inr ?_⟩
  refine ⟨rfl, _, htokens, t, ?_, hne, hfault⟩
  rw [hlexes.placed_end]
  exact List.mem_append_left _ hmem

/--
A compilation that is not cancelled succeeds, or it fails with a lexical or a
syntax error that points to a byte between the backticks: to the first one at
which no token begins, or to the start of a token that is not empty. No tree that
the parser returns is refused after that.
-/
theorem compile_succeeds_or_blames (template : Bytes) :
    ((∃ t, (compile false template).outcome = .ok t) ∨
      ∃ fault, (compile false template).outcome = .error fault ∧ Blames template fault) ∧
    ∀ toks file, parse template toks = .ok file → ∃ t, Template.ofFile (some file) = .ok t := by
  refine ⟨?_, fun _ _ => exists_ofFile_of_parse⟩
  cases hbody : Scan.body? template with
  | none =>
      have htokens : tokenize template = .ok [] := by rw [tokenize, hbody]
      unfold compile
      rw [htokens]
      exact .inl ⟨_, rfl⟩
  | some body =>
      obtain rfl := eq_inBackticks_of_body? hbody
      rw [outcome_compile]
      cases htokens : Scan.tokens .text 1 body with
      | error e => exact .inr ⟨_, rfl, blames_of_lexicalError htokens⟩
      | ok toks =>
          dsimp only
          rw [if_neg Bool.false_ne_true]
          cases hparse : parse (inBackticks body) toks with
          | error e => exact .inr ⟨_, rfl, blames_of_syntaxError htokens hparse⟩
          | ok file => exact .inl (exists_ofFile_of_parse hparse)

/-- A byte at which no token begins, a call that is cut short, and a tree that is accepted. -/
theorem compile_succeeds_or_blames_sample :
    (∃ fault, (compile false "`a$\x7b@\x7d`").outcome = .error fault ∧
      Blames "`a$\x7b@\x7d`" fault) ∧
    (∃ fault, (compile false "`a$\x7bGET(\x7d`").outcome = .error fault ∧
      Blames "`a$\x7bGET(\x7d`" fault) ∧
    ∃ file t, parse "``" [⟨[], .eof, 1, 1⟩] = .ok file ∧ Template.ofFile (some file) = .ok t := by
  have hstray : (compile false "`a$\x7b@\x7d`").outcome.isOk = false := by cbv
  have hcut : (compile false "`a$\x7bGET(\x7d`").outcome.isOk = false := by cbv
  refine ⟨?_, ?_, ?_⟩
  · rcases (compile_succeeds_or_blames "`a$\x7b@\x7d`").1 with ⟨t, ht⟩ | hblames
    · rw [ht] at hstray
      cases hstray
    · exact hblames
  · rcases (compile_succeeds_or_blames "`a$\x7bGET(\x7d`").1 with ⟨t, ht⟩ | hblames
    · rw [ht] at hcut
      cases hcut
    · exact hblames
  · obtain ⟨t, ht⟩ := (compile_succeeds_or_blames "``").2 [⟨[], .eof, 1, 1⟩] _ rfl
    exact ⟨_, t, rfl, ht⟩

end Backtick
