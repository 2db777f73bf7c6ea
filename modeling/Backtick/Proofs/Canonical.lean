import Mathlib
import Backtick.Command.Run
import Backtick.Proofs.Likeness

/-!
# Canonical form

The canonical form of a compiled template is scanned into tokens that say the
same as those of the template. So it compiles, its tree is of the same form, its
canonical form is itself, and it renders as the template does.
-/

namespace Backtick

open Scan Parse

/-! ## Tokens in a canonical text -/

/-- A token as it was scanned: its lexeme is the text it covers, and more text follows. -/
structure Token.Scanned (template : Bytes) (t : Token) : Prop where
  lexeme : ∃ after, after ≠ [] ∧ Lexeme t.kind t.lexeme after
  source : (tokenSpan template t).source = t.lexeme

structure Token.Says (template : Bytes) (t : Token) (word : TokenKind × Bytes) : Prop where
  kind : word.1 = t.kind
  string : t.kind = .string → ∃ mark mark' value, mark ≠ 0 ∧ mark' ≠ 0 ∧
    t.lexeme = mark :: value ++ [mark] ∧ word.2 = mark' :: value ++ [mark']
  number : t.kind = .number → word.2 = t.lexeme ∧ word.2 = (tokenSpan template t).source

/-- Before a rest, a text is scanned into what tokens say, with blanks between. -/
def Writes (template : Bytes) (toks : List Token) (text rest : Bytes) : Prop :=
  ∃ lexed, Takes text lexed rest ∧
    List.Forall₂ (Token.Says template) toks (lexed.filter fun word => word.1 ≠ .whitespace)

/-- The rest begins with a byte that ends every token before it. -/
def Closes (rest : Bytes) : Prop :=
  ∃ b after, b ∈ [' '.toUInt8, ','.toUInt8, ')'.toUInt8, '}'.toUInt8] ∧ rest = b :: after

theorem Closes.stopsAt {p : UInt8 → Bool} {rest : Bytes} (h : Closes rest)
    (hp : ∀ b ∈ [' '.toUInt8, ','.toUInt8, ')'.toUInt8, '}'.toUInt8], p b = false) :
    StopsAt p rest := by
  obtain ⟨b, after, hb, rfl⟩ := h
  exact stopsAt_cons.mpr (hp b hb)

section Writing

variable {template : Bytes}

theorem Writes.append {first second rest : Bytes} {toks toks' : List Token}
    (hfirst : Writes template toks first (second ++ rest))
    (hsecond : Writes template toks' second rest) :
    Writes template (toks ++ toks') (first ++ second) rest := by
  obtain ⟨lexed, htakes, hfirst⟩ := hfirst
  obtain ⟨more, hmore, hsecond⟩ := hsecond
  refine ⟨lexed ++ more, htakes.append hmore, ?_⟩
  rw [List.filter_append]
  exact List.rel_append hfirst hsecond

/-- One lexeme that says what a token says. -/
theorem Writes.token {t : Token} {kind : TokenKind} {lexeme rest : Bytes}
    (hlexeme : Lexeme kind lexeme rest) (hbrace : kind ≠ .closeBrace)
    (hblank : kind ≠ .whitespace) (h : t.Says template (kind, lexeme)) :
    Writes template [t] lexeme rest := by
  have htakes := Takes.cons (by simpa using hlexeme) hbrace (.nil rest)
  rw [List.append_nil] at htakes
  exact ⟨_, htakes, by simpa [hblank] using h⟩

/-- A token that is neither a string nor a number is known by its class. -/
theorem Writes.sign {t : Token} {kind : TokenKind} {lexeme rest : Bytes} (ht : t.kind = kind)
    (hlexeme : Lexeme kind lexeme rest)
    (hkind : kind ∉ [.closeBrace, .whitespace, .string, .number]) :
    Writes template [t] lexeme rest := by
  simp only [List.mem_cons, List.not_mem_nil, or_false, not_or] at hkind
  obtain ⟨hbrace, hblank, hstring, hnumber⟩ := hkind
  refine .token hlexeme hbrace hblank ⟨ht.symm, ?_, ?_⟩
  · intro h
    exact absurd (ht.symm.trans h) hstring
  · intro h
    exact absurd (ht.symm.trans h) hnumber

theorem Writes.blank {rest : Bytes} (hrest : StopsAt (· = ' '.toUInt8) rest) :
    Writes template [] [' '.toUInt8] rest := by
  have hlexeme : Lexeme .whitespace [' '.toUInt8] ([] ++ rest) := .blank nofun hrest
  exact ⟨_, .cons hlexeme nofun (.nil rest), by simp⟩

theorem Writes.word {t : Token} {kind : TokenKind} {name rest : Bytes} (ht : t.kind = kind)
    (hkind : TokenKind.ofWord name = kind) (hreserved : kind.isKeyword)
    (hletters : ∀ b ∈ name, Bytes.isLetter b) (hrest : StopsAt Bytes.isLetter rest) :
    Writes template [t] name rest := by
  have hclass : kind ∉ [.closeBrace, .whitespace, .string, .number] := by
    rintro hmem
    simp only [List.mem_cons, List.not_mem_nil, or_false] at hmem
    rcases hmem with rfl | rfl | rfl | rfl <;> cases hreserved
  cases name with
  | nil =>
      subst hkind
      cases hreserved
  | cons first more =>
      obtain ⟨hfirst, hmore⟩ := List.forall_mem_cons.mp hletters
      exact .sign ht (hkind ▸ .word hfirst hmore hrest) hclass

/-- A reserved word with the parenthesis behind it. -/
theorem Writes.call {word opening : Token} {kind : TokenKind} {name : Bytes}
    (hword : word.kind = kind) (hkind : TokenKind.ofWord name = kind)
    (hreserved : kind.isKeyword) (hletters : ∀ b ∈ name, Bytes.isLetter b)
    (hopening : opening.kind = .openParen) (rest : Bytes) :
    Writes template [word, opening] (name ++ ['('.toUInt8]) rest :=
  .append (.word hword hkind hreserved hletters (stopsAt_cons.mpr rfl))
    (.sign hopening .openParen (by decide))

theorem quoted_of_lexeme {t : Token} {mark : UInt8} {value : Bytes} (hmark : mark ≠ 0)
    (h : t.lexeme = mark :: value ++ [mark]) :
    quoted template t = ⟨tokenSpan template t, value, some mark⟩ := by
  unfold quoted
  rw [h]
  simp [hmark]

/-- A quoted text is written in marks that it does not hold. -/
theorem Token.Scanned.canonical {t : Token} (h : t.Scanned template) (ht : t.kind = .string) :
    ∃ mark mark' value, mark ≠ 0 ∧ (mark' = '"'.toUInt8 ∨ mark' = '\''.toUInt8) ∧
      mark' ∉ value ∧ t.lexeme = mark :: value ++ [mark] ∧
      (quoted template t).canonical = mark' :: value ++ [mark'] := by
  obtain ⟨after, hafter, hlexeme⟩ := h.lexeme
  rw [ht] at hlexeme
  obtain ⟨mark, value, hmark, hvalue, htext⟩ := hlexeme.of_string hafter
  have hzero : mark ≠ 0 := by rcases hmark with rfl | rfl <;> decide
  rw [quoted_of_lexeme hzero htext]
  by_cases hdouble : '"'.toUInt8 ∈ value
  · have hsingle : mark = '\''.toUInt8 := by
      rcases hmark with rfl | hsingle
      · exact absurd hdouble hvalue
      · exact hsingle
    refine ⟨mark, '\''.toUInt8, value, hzero, .inr rfl, hsingle ▸ hvalue, htext, ?_⟩
    simp [StringLiteral.canonical, hdouble]
  · refine ⟨mark, '"'.toUInt8, value, hzero, .inl rfl, hdouble, htext, ?_⟩
    simp [StringLiteral.canonical, hdouble]

theorem Token.Scanned.writes_string {t : Token} (h : t.Scanned template) (ht : t.kind = .string)
    (rest : Bytes) : Writes template [t] (quoted template t).canonical rest := by
  obtain ⟨mark, mark', value, hzero, hmark, hvalue, htext, hcanonical⟩ := h.canonical ht
  have hzero' : mark' ≠ 0 := by rcases hmark with rfl | rfl <;> decide
  rw [hcanonical]
  refine .token (.quoted hmark hvalue) nofun nofun
    ⟨ht.symm, fun _ => ⟨mark, mark', value, hzero, hzero', htext, rfl⟩, ?_⟩
  intro hnumber
  rw [ht] at hnumber
  cases hnumber

theorem Scan.Lexeme.number_before {lexeme after rest : Bytes} (h : Lexeme .number lexeme after)
    (hrest : StopsAt (fun b => Bytes.isDigit b || b = '.'.toUInt8) rest) :
    Lexeme .number lexeme rest := by
  generalize hkind : TokenKind.number = kind at h
  cases h with
  | whole hfirst hdigits _ => exact .whole hfirst hdigits hrest
  | fraction hfirst hdigits hplaces _ =>
      refine .fraction hfirst hdigits hplaces fun b hb => ?_
      exact (Bool.or_eq_false_iff.mp (hrest b hb)).1
  | word => exact absurd hkind (TokenKind.ne_ofWord (by decide) _)
  | _ => cases hkind

/-- A number is written as it was. -/
theorem Token.Scanned.writes_number {t : Token} (h : t.Scanned template) (ht : t.kind = .number)
    {rest : Bytes} (hrest : Closes rest) :
    Writes template [t] (tokenSpan template t).source rest := by
  obtain ⟨after, -, hlexeme⟩ := h.lexeme
  rw [ht] at hlexeme
  have hwritten := hlexeme.number_before (hrest.stopsAt (by decide +kernel))
  rw [← h.source] at hwritten
  refine .token hwritten nofun nofun ⟨ht.symm, ?_, fun _ => ⟨h.source, rfl⟩⟩
  intro hstring
  rw [ht] at hstring
  cases hstring

/-! ## Expressions in canonical form -/

theorem GetCall.Derived.writes {toks : List Token} {call : GetCall}
    (h : call.Derived template toks) (hscanned : ∀ t ∈ toks, t.Scanned template) (rest : Bytes) :
    Writes template toks call.canonical rest := by
  cases h with
  | @mk word opening name close hword hopening hname hclose =>
      have hfront (after : Bytes) :
          Writes template [word, opening] (↑"GET" ++ ['('.toUInt8]) after :=
        .call hword (by decide +kernel) rfl (by decide +kernel) hopening after
      have hname' := (hscanned name (by simp)).writes_string hname ([')'.toUInt8] ++ rest)
      have hall := (hfront _).append (hname'.append (.sign hclose .closeParen (by decide)))
      rw [← List.append_assoc] at hall
      exact hall

theorem Scan.Lexeme.number_first {lexeme after : Bytes} (h : Lexeme .number lexeme after) :
    ∃ first more, lexeme = first :: more ∧ first ≠ ' '.toUInt8 := by
  have hdigit : ∀ b : UInt8, ('1'.toUInt8 ≤ b && b ≤ '9'.toUInt8) = true → b ≠ ' '.toUInt8 := by
    decide +kernel
  generalize hkind : TokenKind.number = kind at h
  cases h with
  | whole hfirst _ _ => exact ⟨_, _, rfl, hdigit _ hfirst⟩
  | fraction hfirst _ _ _ => exact ⟨_, _, rfl, hdigit _ hfirst⟩
  | word => exact absurd hkind (TokenKind.ne_ofWord (by decide) _)
  | _ => cases hkind

/-- The canonical form of an expression begins with no blank. -/
theorem Expr.Derived.canonical_first {place : Grammar.Place} {toks : List Token} {e : Expr}
    (h : e.Derived template place toks) (hscanned : ∀ t ∈ toks, t.Scanned template) :
    ∃ first more, e.canonical = first :: more ∧ first ≠ ' '.toUInt8 := by
  induction h with
  | string h =>
      obtain ⟨_, mark, value, _, hmark, _, _, htext⟩ := (hscanned _ List.mem_cons_self).canonical h
      exact ⟨mark, _, htext, by rcases hmark with rfl | rfl <;> decide⟩
  | number h _ =>
      obtain ⟨⟨after, -, hlexeme⟩, hsource⟩ := hscanned _ List.mem_cons_self
      rw [h] at hlexeme
      rw [Expr.canonical, hsource]
      exact hlexeme.number_first
  | yes | no => exact ⟨_, _, rfl, by decide⟩
  | get h => exact ⟨_, _, rfl, by decide⟩
  | length => exact ⟨_, _, rfl, by decide⟩
  | choose => exact ⟨_, _, rfl, by decide⟩
  | condition _ ih => exact ih hscanned
  | comparison _ _ _ ihleft _ =>
      obtain ⟨first, more, htext, hfirst⟩ := ihleft fun t ht => hscanned t (by simp [ht])
      rw [Expr.canonical, htext]
      exact ⟨first, _, rfl, hfirst⟩

theorem Expr.Derived.stopsAt_canonical {place : Grammar.Place} {toks : List Token} {e : Expr}
    (h : e.Derived template place toks) (hscanned : ∀ t ∈ toks, t.Scanned template)
    (rest : Bytes) : StopsAt (· = ' '.toUInt8) (e.canonical ++ rest) := by
  obtain ⟨first, more, htext, hfirst⟩ := h.canonical_first hscanned
  rw [htext]
  exact stopsAt_cons.mpr (by simpa using hfirst)

/-- The canonical form of a comparator is its lexeme. -/
theorem Writes.comparator {sign : Token} {op : Comparator}
    (h : sign.kind.comparator? = some op) (rest : Bytes) :
    Writes template [sign] op.text (' '.toUInt8 :: rest) := by
  have hstop : StopsAt (· = '='.toUInt8) (' '.toUInt8 :: rest) := stopsAt_cons.mpr rfl
  cases hkind : sign.kind <;> rw [hkind] at h <;> cases h
  · exact .sign hkind (.less hstop) (by decide)
  · exact .sign hkind .lessEqual (by decide)
  · exact .sign hkind (.strictEqual hstop) (by decide)
  · exact .sign hkind (.greater hstop) (by decide)
  · exact .sign hkind .greaterEqual (by decide)

theorem stopsAt_comparator {kind : TokenKind} {op : Comparator}
    (h : kind.comparator? = some op) (rest : Bytes) :
    StopsAt (· = ' '.toUInt8) (op.text ++ rest) := by
  cases kind <;> cases h <;> exact stopsAt_cons.mpr rfl

/-- A comma, a blank and what follows them. -/
theorem Writes.argument {comma : Token} {toks : List Token} {text rest : Bytes}
    (hcomma : comma.kind = .comma) (hfirst : StopsAt (· = ' '.toUInt8) (text ++ rest))
    (h : Writes template toks text rest) : Writes template (comma :: toks) (↑", " ++ text) rest :=
  have hseparator :
      Writes template ([comma] ++ []) ([','.toUInt8] ++ [' '.toUInt8]) (text ++ rest) :=
    .append (.sign hcomma .comma (by decide)) (.blank hfirst)
  hseparator.append h

/-- The canonical form of an expression is scanned into what its tokens say. -/
theorem Expr.Derived.writes {place : Grammar.Place} {toks : List Token} {e : Expr}
    (h : e.Derived template place toks) (hscanned : ∀ t ∈ toks, t.Scanned template)
    {rest : Bytes} (hrest : Closes rest) : Writes template toks e.canonical rest := by
  induction h generalizing rest with
  | string h => exact (hscanned _ List.mem_cons_self).writes_string h rest
  | number h _ => exact (hscanned _ List.mem_cons_self).writes_number h hrest
  | yes h =>
      have hstop := hrest.stopsAt (p := Bytes.isLetter) (by decide +kernel)
      rw [Expr.canonical, if_pos rfl]
      exact .word h (by decide +kernel) rfl (by decide +kernel) hstop
  | no h =>
      have hstop := hrest.stopsAt (p := Bytes.isLetter) (by decide +kernel)
      rw [Expr.canonical, if_neg Bool.false_ne_true]
      exact .word h (by decide +kernel) rfl (by decide +kernel) hstop
  | get h => exact h.writes hscanned rest
  | @length word opening close toks call hword hopening h hclose =>
      have hfront (after : Bytes) :
          Writes template [word, opening] (↑"LENGTH" ++ ['('.toUInt8]) after :=
        .call hword (by decide +kernel) rfl (by decide +kernel) hopening after
      have hcall := h.writes (fun t ht => hscanned t (by simp [ht])) ([')'.toUInt8] ++ rest)
      have hall := (hfront _).append (hcall.append (.sign hclose .closeParen (by decide)))
      rw [← List.append_assoc] at hall
      exact hall
  | @choose word opening comma comma' close tests yess nos test yes no hword hopening htest hsep
      hyes hsep' hno hclose ihtest ihyes ihno =>
      simp only [List.mem_append, List.mem_cons] at hscanned
      have htests (t : Token) (ht : t ∈ tests) := hscanned t (by simp [ht])
      have hyess (t : Token) (ht : t ∈ yess) := hscanned t (by simp [ht])
      have hnos (t : Token) (ht : t ∈ nos) := hscanned t (by simp [ht])
      have hfront (after : Bytes) :
          Writes template [word, opening] (↑"IF" ++ ['('.toUInt8]) after :=
        .call hword (by decide +kernel) rfl (by decide +kernel) hopening after
      have hclose' : Writes template [close] ↑")" rest := .sign hclose .closeParen (by decide)
      -- from the last argument to the first, each with the text behind it present
      have hlast := (Writes.argument hsep' (hno.stopsAt_canonical hnos _)
        (ihno hnos ⟨_, _, by decide, rfl⟩)).append hclose'
      have hmiddle := (Writes.argument hsep (hyes.stopsAt_canonical hyess _)
        (ihyes hyess ⟨_, _, by decide, rfl⟩)).append hlast
      have hall := (hfront _).append ((ihtest htests ⟨_, _, by decide, rfl⟩).append hmiddle)
      simp only [← List.append_assoc] at hall
      exact hall
  | condition _ ih => exact ih hscanned hrest
  | @comparison sign lefts rights op left right hleft hop hright ihleft ihright =>
      simp only [List.mem_append, List.mem_cons] at hscanned
      have hlefts (t : Token) (ht : t ∈ lefts) := hscanned t (by simp [ht])
      have hrights (t : Token) (ht : t ∈ rights) := hscanned t (by simp [ht])
      have hblank : Writes template [] ↑" " (right.canonical ++ rest) :=
        .blank (hright.stopsAt_canonical hrights rest)
      have hsign := (Writes.comparator hop _).append (hblank.append (ihright hrights hrest))
      have hblank' : Writes template [] ↑" " (op.text ++ (↑" " ++ right.canonical) ++ rest) :=
        .blank (by rw [List.append_assoc]; exact stopsAt_comparator hop _)
      have hall := (ihleft hlefts ⟨_, _, by decide, rfl⟩).append (hblank'.append hsign)
      simp only [← List.append_assoc, List.append_nil] at hall
      rw [List.append_assoc lefts [sign]] at hall
      exact hall

theorem ValueDerived.writes {toks : List Token} {value : Option Expr}
    (h : ValueDerived template toks value) (hscanned : ∀ t ∈ toks, t.Scanned template)
    {rest : Bytes} (hrest : Closes rest) :
    Writes template toks (value.elim [] Expr.canonical) rest := by
  cases h with
  | none => exact ⟨[], .nil rest, .nil⟩
  | some h => exact h.writes hscanned hrest

/-! ## Templates in canonical form -/

/-- The tokens of a formula were scanned in its template. -/
theorem scanned_of_takes {inner rest after : Bytes} {lexed : List (TokenKind × Bytes)}
    {column : Nat} (h : Takes inner lexed rest) (hrest : rest ≠ [])
    (hplace : template.drop column = inner ++ after) :
    ∀ t ∈ significant (placed column lexed), t.Scanned template := by
  intro t ht
  have hmem := List.mem_of_mem_filter ht
  exact ⟨h.lexeme hrest (mem_of_mem_placed hmem),
    source_of_mem_placed (by rw [h.flatMap, hplace]) hmem⟩

/-- Lexemes that say what tokens say make tokens that are like them. -/
theorem like_of_spelled {template' rest : Bytes} {toks : List Token} {column : Nat}
    {lexed : List (TokenKind × Bytes)}
    (h : List.Forall₂ (Token.Says template) toks (lexed.filter fun word => word.1 ≠ .whitespace))
    (hplace : template'.drop column = lexed.flatMap Prod.snd ++ rest) :
    List.Forall₂ (Token.Like template template' fun _ _ => True) toks
      (significant (placed column lexed)) := by
  induction lexed generalizing toks column with
  | nil =>
      obtain rfl := List.forall₂_nil_right_iff.mp h
      exact .nil
  | cons word lexed ih =>
      obtain ⟨kind, lexeme⟩ := word
      rw [List.flatMap_cons, List.append_assoc] at hplace
      by_cases hblank : kind = .whitespace
      · subst hblank
        rw [placed, significant_blank]
        exact ih h (drop_of_append hplace)
      · rw [List.filter_cons_of_pos (by simpa using hblank)] at h
        obtain ⟨t, toks, hspelled, hmore, rfl⟩ := List.forall₂_cons_right_iff.mp h
        rw [placed, significant_tokenAt hblank]
        refine .cons ⟨hspelled.kind, trivial, ?_, ?_⟩ (ih hmore (drop_of_append hplace))
        · intro hstring
          obtain ⟨mark, mark', value, hzero, hzero', htext, htext'⟩ := hspelled.string hstring
          rw [quoted_of_lexeme hzero htext, quoted_of_lexeme hzero' htext']
          rfl
        · intro hnumber
          obtain ⟨hlexeme, hsource⟩ := hspelled.number hnumber
          exact ⟨hlexeme.symm, by rw [source_tokenAt hplace, ← hsource]⟩

/-- The canonical form of a text has a shape of the same form. -/
theorem Shape.canonical {column : Nat} {body : Bytes} {segments : List Segment}
    (h : Shape template column body segments) {after : Bytes}
    (hplace : template.drop column = body ++ after) {template' after' : Bytes} {column' : Nat}
    (hplace' : template'.drop column' = segments.flatMap Segment.canonical ++ after') :
    ∃ segments', Shape template' column' (segments.flatMap Segment.canonical) segments' ∧
      List.Forall₂ (Segment.Alike fun _ _ => True) segments segments' := by
  induction h generalizing column' with
  | nil => exact ⟨[], .nil _, .nil⟩
  | @text column run hne hrun =>
      have htext : [textAt template column run].flatMap Segment.canonical = run := by
        simp [textAt, Segment.canonical, StringLiteral.canonical]
      rw [htext]
      exact ⟨_, .text hne hrun, .cons (.text rfl) .nil⟩
  | @formula column run inner rest lexed value segments hrun hinner hvalue _ ih =>
      have htext : (textAt template column run ::
          formulaAt template (column + run.length) inner.length value ::
            segments).flatMap Segment.canonical =
          run ++ '$'.toUInt8 :: '{'.toUInt8 :: (value.elim [] Expr.canonical ++
            '}'.toUInt8 :: segments.flatMap Segment.canonical) := by
        simp only [List.flatMap_cons, formulaAt, Segment.canonical, List.append_assoc]
        rfl
      rw [htext] at hplace' ⊢
      obtain ⟨hinside, hbehind⟩ := drop_of_formula hplace
      obtain ⟨hinside', hbehind'⟩ := drop_of_formula hplace'
      obtain ⟨segments', hshape, halike⟩ := ih hbehind hbehind'
      have hclosing : Closes ('}'.toUInt8 :: segments.flatMap Segment.canonical) :=
        ⟨_, _, by decide, rfl⟩
      obtain ⟨lexed', htakes, hspelled⟩ :=
        hvalue.writes (scanned_of_takes hinner (List.cons_ne_nil _ _) hinside) hclosing
      have hlike := like_of_spelled hspelled (by rw [htakes.flatMap, hinside'])
      obtain ⟨value', hvalue', hformula⟩ := hvalue.alike hlike
      exact ⟨_, .formula hrun htakes hvalue' hshape,
        .cons (.text rfl) (.cons (hformula _ _) halike)⟩

end Writing

/-! ## What does not depend on places and marks -/

theorem StringLiteral.canonical_plain (literal : StringLiteral) :
    literal.plain.canonical = literal.canonical := by
  unfold StringLiteral.canonical StringLiteral.plain
  cases literal.mark <;> rfl

theorem GetCall.canonical_plain (call : GetCall) : call.plain.canonical = call.canonical := by
  unfold GetCall.canonical GetCall.plain
  cases call.name with
  | none => rfl
  | some name => simp [name.canonical_plain]

theorem Expr.canonical_plain (e : Expr) : e.plain.canonical = e.canonical := by
  induction e with
  | string literal => exact literal.canonical_plain
  | number | boolean | missing => rfl
  | get call => exact call.canonical_plain
  | length span arg =>
      cases arg with
      | none => rfl
      | some call => simp [Expr.plain, Expr.canonical, call.canonical_plain]
  | choose span test yes no ihtest ihyes ihno =>
      simp [Expr.plain, Expr.canonical, ihtest, ihyes, ihno]
  | compare span left op right ihleft ihright =>
      simp [Expr.plain, Expr.canonical, ihleft, ihright]

theorem Segment.canonical_plain (segment : Segment) :
    segment.plain.canonical = segment.canonical := by
  cases segment with
  | text literal => exact literal.canonical_plain
  | formula span value =>
      cases value with
      | none => rfl
      | some e => simp [Segment.plain, Segment.canonical, e.canonical_plain]
  | missing => rfl

theorem GetCall.emit_plain {call : GetCall} {text : Bytes} (h : call.emit = .ok text) :
    call.plain.emit = .ok text := by
  unfold GetCall.emit at h
  unfold GetCall.emit GetCall.plain
  cases hname : call.name with
  | none => rw [hname] at h; cases h
  | some name => rw [hname] at h; exact h

theorem Expr.emit_plain {e : Expr} {text : Bytes} (h : e.emit = .ok text) :
    e.plain.emit = .ok text := by
  induction e generalizing text with
  | string | number | boolean => exact h
  | get call => exact GetCall.emit_plain h
  | length span arg =>
      cases arg with
      | none => cases h
      | some call =>
          obtain ⟨inner, hinner, h⟩ := bind_eq_ok_iff.mp h
          exact bind_eq_ok_iff.mpr ⟨inner, GetCall.emit_plain hinner, h⟩
  | choose span test yes no ihtest ihyes ihno =>
      obtain ⟨testText, htest, h⟩ := bind_eq_ok_iff.mp h
      obtain ⟨yesText, hyes, h⟩ := bind_eq_ok_iff.mp h
      obtain ⟨noText, hno, h⟩ := bind_eq_ok_iff.mp h
      rw [Expr.plain, Expr.emit, ihtest htest, ihyes hyes, ihno hno]
      exact h
  | compare span left op right ihleft ihright =>
      obtain ⟨leftText, hleft, h⟩ := bind_eq_ok_iff.mp h
      obtain ⟨rightText, hright, h⟩ := bind_eq_ok_iff.mp h
      rw [Expr.plain, Expr.emit, ihleft hleft, ihright hright, ok_bind, ok_bind]
      cases hop : op.function? with
      | none => rw [hop] at h; cases h
      | some name => rw [hop] at h; exact h
  | missing => cases h

theorem Segment.emit_plain {segment : Segment} {text : Bytes} (h : segment.emit = .ok text) :
    segment.plain.emit = .ok text := by
  cases segment with
  | text => exact h
  | formula span value =>
      cases value with
      | none => exact h
      | some e => exact Expr.emit_plain (e := e) h
  | missing => cases h

theorem emitSegments_plain {segments : List Segment} {parts : List Bytes}
    (h : emitSegments segments = .ok parts) :
    emitSegments (segments.map Segment.plain) = .ok parts := by
  induction segments generalizing parts with
  | nil => exact h
  | cons segment rest ih =>
      obtain ⟨text, htext, h⟩ := bind_eq_ok_iff.mp h
      obtain ⟨more, hmore, h⟩ := bind_eq_ok_iff.mp h
      cases h
      exact emitSegments_cons (Segment.emit_plain htext) (ih hmore)

namespace SourceFile

theorem segments_plain (file : SourceFile) :
    file.plain.segments = file.segments.map Segment.plain := by
  unfold segments plain
  cases file.body <;> rfl

theorem canonical_plain (file : SourceFile) : file.plain.canonical = file.canonical := by
  unfold canonical
  rw [segments_plain, List.flatMap_map]
  simp only [Segment.canonical_plain]

theorem names_plain (file : SourceFile) : file.plain.names = file.names := by
  unfold names
  rw [segments_plain, List.flatMap_map]
  simp only [Segment.names_plain]

theorem emit_plain {file : SourceFile} {source : Bytes} (h : file.emit = .ok source) :
    file.plain.emit = .ok source := by
  unfold emit at h ⊢
  rw [segments_plain, List.isEmpty_map]
  split at h
  · rename_i hempty
    rw [if_pos hempty]
    exact h
  · rename_i hempty
    rw [if_neg hempty]
    obtain ⟨parts, hparts, h⟩ := bind_eq_ok_iff.mp h
    exact bind_eq_ok_iff.mpr ⟨parts, emitSegments_plain hparts, h⟩

end SourceFile

theorem SegmentsDerived.eq_nil {template : Bytes} {toks : List Token}
    (h : SegmentsDerived template toks []) : toks = [] := by
  cases h with
  | nil => rfl

namespace SourceFile

/-- The segments of a tree made from tokens determine it, but for its places and marks. -/
theorem Derived.plain {template : Bytes} {toks : List Token} {file : SourceFile}
    (h : file.Derived template toks) :
    file.plain = ⟨.nowhere, if (file.segments.map Segment.plain).isEmpty then none
      else some ⟨.nowhere, file.segments.map Segment.plain⟩, some .nowhere⟩ := by
  cases h with
  | mk hbody _ =>
      cases hbody with
      | nil => rfl
      | @cons first rest segments h =>
          cases segments with
          | nil => cases h.eq_nil
          | cons => rfl

end SourceFile

/-! ## Round trip -/

theorem canonical_eq_inBackticks (file : SourceFile) :
    file.canonical = inBackticks (file.segments.flatMap Segment.canonical) := rfl

/-- The canonical form of a compiled template compiles to a tree that is alike. -/
theorem Compiled.canonical {body : Bytes} {t : Template} {file : SourceFile}
    (h : Compiled body t file) :
    ∃ t' file', (compile false file.canonical).outcome = .ok t' ∧
      Compiled (file.segments.flatMap Segment.canonical) t' file' ∧
      List.Forall₂ (Segment.Alike fun _ _ => True) file.segments file'.segments := by
  obtain ⟨segments', hshape, halike⟩ :=
    h.shape.canonical (drop_inBackticks body) (drop_inBackticks _)
  obtain ⟨t', file', hcompile, hcompiled, rfl⟩ := hshape.compile
  exact ⟨t', file', hcompile, hcompiled, halike⟩

theorem Compiled.plain_of_alike {body body' : Bytes} {t t' : Template} {file file' : SourceFile}
    (h : Compiled body t file) (h' : Compiled body' t' file')
    (halike : List.Forall₂ (Segment.Alike fun _ _ => True) file.segments file'.segments) :
    file'.plain = file.plain := by
  obtain ⟨_, hderived⟩ := h.derived
  obtain ⟨_, hderived'⟩ := h'.derived
  rw [hderived.plain, hderived'.plain, Backtick.plain_of_alike halike]

/-- Trees of the same form are written as the same script. -/
theorem Compiled.source_of_plain {body body' : Bytes} {t t' : Template} {file file' : SourceFile}
    (h : Compiled body t file) (h' : Compiled body' t' file') (hplain : file'.plain = file.plain) :
    t'.source = t.source := by
  have hsource := SourceFile.emit_plain h.source
  have hsource' := SourceFile.emit_plain h'.source
  rw [hplain, hsource, Except.ok.injEq] at hsource'
  exact hsource'.symm

theorem SameCall.kinds {P : Int → Int → Prop} {f g : Fault} (h : SameCall P f g) :
    f.kinds = g.kinds := by
  obtain ⟨name, cause, column, column', -, rfl, rfl⟩ := h
  rfl

theorem trimBreaks_line (body : Bytes) :
    TemplateSource.trimBreaks (Command.line (inBackticks body)) = inBackticks body := by
  have hbreak : Command.line (inBackticks body) =
      '`'.toUInt8 :: (body ++ ['`'.toUInt8, '\n'.toUInt8]) := by
    unfold Command.line inBackticks
    rw [List.cons_append, List.append_assoc]
    rfl
  have hmark : '`'.toUInt8 ≠ '\r'.toUInt8 ∧ '`'.toUInt8 ≠ '\n'.toUInt8 := by decide
  rw [hbreak, TemplateSource.trimBreaks]
  simp [inBackticks, hmark]

/-- The check of canonical form passes on a line that holds a template in that form. -/
theorem fault_runFmt_check {env : Environment} {template body : Bytes} {t : Template}
    {file : SourceFile} (htemplate : template = inBackticks body)
    (h : (compile false template).outcome = .ok t) (hfile : t.file = some file)
    (hcanonical : file.canonical = template) :
    (Command.runFmt env (Command.line template) ⟨[], []⟩ true).fault = none := by
  subst htemplate
  have hread : TemplateSource.read ⟨[], []⟩ env.files (Command.line (inBackticks body)) =
      .ok (inBackticks body) := by
    rw [TemplateSource.read]
    exact congrArg Except.ok (trimBreaks_line body)
  unfold Command.runFmt Command.withTemplate
  rw [hread]
  dsimp only
  rw [h]
  dsimp only [Command.withTree]
  rw [hfile]
  dsimp only
  rw [if_neg (by decide), if_pos hcanonical]
  rfl

theorem stdout_runFmt {env : Environment} {stdin template : Bytes} {source : TemplateSource}
    {t : Template} {file : SourceFile} (hread : source.read env.files stdin = .ok template)
    (h : (compile false template).outcome = .ok t) (hfile : t.file = some file) :
    (Command.runFmt env stdin source false).stdout = Command.line file.canonical := by
  unfold Command.runFmt Command.withTemplate
  rw [hread]
  dsimp only
  rw [h]
  dsimp only [Command.withTree]
  rw [hfile]
  rfl

/--
The canonical form of a compiled template compiles, to a tree of the same form
that asks for the same names, has the same script and renders alike. It is its
own canonical form, so that what is printed, the canonical form and a line feed,
passes the check.
-/
theorem canonical_form_round_trips {cancelled : Bool} {template : Bytes} {t : Template}
    {file : SourceFile} (h : (compile cancelled template).outcome = .ok t)
    (hfile : t.file = some file) :
    (∃ t' file', (compile cancelled file.canonical).outcome = .ok t' ∧ t'.file = some file' ∧
      file'.plain = file.plain ∧ file'.canonical = file.canonical ∧
      t'.names = t.names ∧ t'.source = t.source ∧
      ∀ fn, Traced.Related (fun f g => f.kinds = g.kinds) (t.render fn) (t'.render fn)) ∧
    ∀ env env' stdin source, source.read env.files stdin = .ok template →
      (Command.runFmt env stdin source false).stdout = file.canonical ++ ↑"\n" ∧
      (Command.runFmt env' (Command.runFmt env stdin source false).stdout ⟨[], []⟩ true).fault =
        none := by
  rcases compile_cases h with rfl | ⟨rfl, body, file, rfl, hcompiled⟩
  · cases hfile
  obtain rfl := Option.some.inj (hcompiled.tree.symm.trans hfile)
  obtain ⟨t', file', hcompile, hcompiled', halike⟩ := hcompiled.canonical
  have hplain := hcompiled.plain_of_alike hcompiled' halike
  have hcanonical : file'.canonical = file.canonical := by
    rw [← file'.canonical_plain, hplain, file.canonical_plain]
  have hnames : t'.names = t.names := by
    rw [hcompiled'.names, hcompiled.names, ← file'.names_plain, hplain, file.names_plain]
  refine ⟨⟨t', file', hcompile, hcompiled'.tree, hplain, hcanonical, hnames,
    hcompiled.source_of_plain hcompiled' hplain, fun fn => ?_⟩,
    fun env env' stdin source hread => ?_⟩
  · rw [hcompiled.render, hcompiled'.render]
    exact (related_of_alike halike fn).imp fun _ _ => SameCall.kinds
  · have hprinted := stdout_runFmt hread h hcompiled.tree
    refine ⟨hprinted, ?_⟩
    rw [hprinted]
    exact fault_runFmt_check (canonical_eq_inBackticks file) hcompile hcompiled'.tree hcanonical

/-- A template with blanks to drop, marks to exchange and an empty run between two formulas. -/
theorem canonical_form_round_trips_sample :
    ∃ t file t' file',
      (compile false "`$\x7bIF(GET('x') ,'\"',TRUE )\x7d$\x7b \x7d`").outcome = .ok t ∧
      t.file = some file ∧
      (compile false "`$\x7bIF(GET(\"x\"), '\"', TRUE)\x7d$\x7b\x7d`").outcome = .ok t' ∧
      t'.file = some file' ∧ file'.plain = file.plain ∧ file'.canonical = file.canonical ∧
      t'.names = t.names ∧ t'.source = t.source ∧
      ∀ env,
        let printed := (Command.runFmt env []
          ⟨"`$\x7bIF(GET('x') ,'\"',TRUE )\x7d$\x7b \x7d`", []⟩ false).stdout
        printed = "`$\x7bIF(GET(\"x\"), '\"', TRUE)\x7d$\x7b\x7d`\n" ∧
          (Command.runFmt env printed ⟨[], []⟩ true).fault = none := by
  have hformatted :
      (compile false "`$\x7bIF(GET('x') ,'\"',TRUE )\x7d$\x7b \x7d`").outcome.map
        (fun t => t.file.map SourceFile.canonical) =
      .ok (some "`$\x7bIF(GET(\"x\"), '\"', TRUE)\x7d$\x7b\x7d`") := by cbv
  obtain ⟨t, h, hcanonical⟩ := map_eq_ok_iff.mp hformatted
  obtain ⟨file, hfile, hcanonical⟩ := Option.map_eq_some_iff.mp hcanonical
  obtain ⟨⟨t', file', ht', hfile', hplain, hsame, hnames, hsource, -⟩, hcheck⟩ :=
    canonical_form_round_trips h hfile
  rw [hcanonical] at ht' hcheck
  exact ⟨t, file, t', file', h, hfile, ht', hfile', hplain, hsame, hnames, hsource,
    fun env => hcheck env env [] ⟨_, []⟩ rfl⟩

end Backtick
