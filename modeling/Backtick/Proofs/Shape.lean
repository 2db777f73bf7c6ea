import Mathlib
import Backtick.Proofs.Parsing
import Backtick.Proofs.Scanning
import Backtick.Template.Compile

/-!
# The shape of a template

The text between the backticks of a template is a run of literal text, a closed
formula, a run of text and so on. `Shape` says which segments such a text makes
at a column of a template. A template compiles exactly if its text has a shape,
and the shape has the segments of its tree.
-/

namespace Backtick

open Scan Parse

/-! ## Inside a formula -/

namespace Scan

/-- The lexemes of a text inside a formula that is followed by more text. -/
inductive Takes : Bytes -> List (TokenKind × Bytes) -> Bytes -> Prop
  | nil (rest : Bytes) : Takes [] [] rest
  | cons {kind : TokenKind} {lexeme inner rest : Bytes} {more : List (TokenKind × Bytes)}
      (hlexeme : Lexeme kind lexeme (inner ++ rest)) (hkind : kind ≠ .closeBrace)
      (h : Takes inner more rest) :
      Takes (lexeme ++ inner) ((kind, lexeme) :: more) rest

theorem Takes.append {first second rest : Bytes} {lexed more : List (TokenKind × Bytes)}
    (hfirst : Takes first lexed (second ++ rest)) (hsecond : Takes second more rest) :
    Takes (first ++ second) (lexed ++ more) rest := by
  generalize hafter : second ++ rest = after at hfirst
  induction hfirst with
  | nil => exact hsecond
  | @cons kind lexeme inner after lexed hlexeme hkind _ ih =>
      subst hafter
      rw [List.append_assoc]
      exact .cons (by rwa [List.append_assoc]) hkind (ih rfl)

/-- A lexeme depends on no more than one byte behind it. -/
theorem Lexeme.congr_tail {kind : TokenKind} {lexeme rest : Bytes} {b : UInt8}
    (h : Lexeme kind lexeme (b :: rest)) (rest' : Bytes) : Lexeme kind lexeme (b :: rest') :=
  h.before (List.cons_ne_nil b rest) fun _ hb => .inl hb

theorem Takes.congr_tail {inner rest : Bytes} {b : UInt8} {lexed : List (TokenKind × Bytes)}
    (h : Takes inner lexed (b :: rest)) (rest' : Bytes) : Takes inner lexed (b :: rest') := by
  generalize hafter : b :: rest = after at h
  induction h with
  | nil => exact .nil _
  | @cons kind lexeme inner after lexed hlexeme hkind _ ih =>
      subst hafter
      refine .cons ?_ hkind (ih rfl)
      cases inner with
      | nil => exact hlexeme.congr_tail rest'
      | cons c inner => exact hlexeme.congr_tail _

theorem Takes.lexes {inner rest : Bytes} {lexed more : List (TokenKind × Bytes)}
    (h : Takes inner lexed rest) (hmore : Lexes .formula rest more) :
    Lexes .formula (inner ++ rest) (lexed ++ more) := by
  induction h with
  | nil => exact hmore
  | cons hlexeme hkind _ ih =>
      rw [List.append_assoc]
      refine .token hlexeme ?_
      rw [Mode.after, if_neg hkind]
      exact ih hmore

theorem lexes_run {run : Bytes} (hne : run ≠ []) (hrun : NoOpening run) :
    Lexes .text run [(.string, run)] := by
  have hlexes := Lexes.text (by simpa using hne) hrun (.inl rfl) (.done .formula)
  rwa [List.append_nil] at hlexes

/-- A run of literal text, a closed formula, and literal text again. -/
theorem Takes.lexes_formula {run inner rest : Bytes} {lexed more : List (TokenKind × Bytes)}
    (h : Takes inner lexed ('}'.toUInt8 :: rest)) (hrun : NoOpening run)
    (hmore : Lexes .text rest more) :
    Lexes .text (run ++ '$'.toUInt8 :: '{'.toUInt8 :: (inner ++ '}'.toUInt8 :: rest))
      ((.string, run) :: (.openFormula, ['$'.toUInt8, '{'.toUInt8]) ::
        (lexed ++ (.closeBrace, ['}'.toUInt8]) :: more)) := by
  have hclose : Lexes .formula ('}'.toUInt8 :: rest) ((.closeBrace, ['}'.toUInt8]) :: more) :=
    .token .closeBrace hmore
  exact .text (by simp) hrun (.inr ⟨_, rfl⟩) (.token .openFormula (h.lexes hclose))

/-- The lexemes of a text inside a formula have something behind them. -/
theorem Takes.lexeme {inner rest : Bytes} {lexed : List (TokenKind × Bytes)}
    (h : Takes inner lexed rest) (hrest : rest ≠ []) {kind : TokenKind} {lexeme : Bytes}
    (hmem : (kind, lexeme) ∈ lexed) : ∃ after, after ≠ [] ∧ Lexeme kind lexeme after := by
  induction h with
  | nil => cases hmem
  | cons hlexeme _ _ ih =>
      rcases List.mem_cons.mp hmem with heq | hmem
      · cases heq
        exact ⟨_, by simp [hrest], hlexeme⟩
      · exact ih hrest hmem

/-! ## Tokens one behind the other -/

theorem placed_append (column : Nat) (first second : List (TokenKind × Bytes)) :
    placed column (first ++ second) =
      placed column first ++ placed (column + (first.map fun t => t.2.length).sum) second := by
  induction first generalizing column with
  | nil => rfl
  | cons t first ih =>
      obtain ⟨kind, lexeme⟩ := t
      simp [placed, ih, Nat.add_assoc]

theorem mem_of_mem_placed {column : Nat} {lexed : List (TokenKind × Bytes)} {t : Token}
    (h : t ∈ placed column lexed) : (t.kind, t.lexeme) ∈ lexed := by
  induction lexed generalizing column with
  | nil => cases h
  | cons first rest ih =>
      rcases List.mem_cons.mp h with rfl | h
      · exact List.mem_cons_self
      · exact List.mem_cons_of_mem _ (ih h)

theorem Takes.length {inner rest : Bytes} {lexed : List (TokenKind × Bytes)}
    (h : Takes inner lexed rest) : (lexed.map fun t => t.2.length).sum = inner.length := by
  induction h with
  | nil => rfl
  | cons _ _ _ ih => simp [ih]

end Scan

/-! ## Segments of a text -/

inductive ValueDerived (template : Bytes) : List Token -> Option Expr -> Prop
  | none : ValueDerived template [] none
  | some {toks : List Token} {e : Expr} (h : e.Derived template .value toks) :
      ValueDerived template toks (some e)

def opening (column : Nat) : Token :=
  Scan.tokenAt column .openFormula ['$'.toUInt8, '{'.toUInt8]

def closing (column : Nat) : Token :=
  Scan.tokenAt column .closeBrace ['}'.toUInt8]

def textAt (template : Bytes) (column : Nat) (run : Bytes) : Segment :=
  .text ⟨tokenSpan template (Scan.tokenAt column .string run), run, none⟩

/-- The segment of a formula at a column, given the length of what is inside its braces. -/
def formulaAt (template : Bytes) (column length : Nat) (value : Option Expr) : Segment :=
  .formula (between template (opening column) (closing (column + 2 + length))) value

/-- The segments that a text makes at a column. -/
inductive Shape (template : Bytes) : Nat -> Bytes -> List Segment -> Prop
  | nil (column : Nat) : Shape template column [] []
  | text {column : Nat} {run : Bytes} (hne : run ≠ []) (hrun : NoOpening run) :
      Shape template column run [textAt template column run]
  | formula {column : Nat} {run inner rest : Bytes} {lexed : List (TokenKind × Bytes)}
      {value : Option Expr} {segments : List Segment} (hrun : NoOpening run)
      (hinner : Takes inner lexed ('}'.toUInt8 :: rest))
      (hvalue : ValueDerived template
        (significant (placed (column + run.length + 2) lexed)) value)
      (h : Shape template (column + run.length + inner.length + 3) rest segments) :
      Shape template column (run ++ '$'.toUInt8 :: '{'.toUInt8 :: (inner ++ '}'.toUInt8 :: rest))
        (textAt template column run ::
          formulaAt template (column + run.length) inner.length value :: segments)

theorem significant_append (first second : List Token) :
    significant (first ++ second) = significant first ++ significant second :=
  List.filter_append ..

theorem significant_tokenAt {kind : TokenKind} (h : kind ≠ .whitespace) (column : Nat)
    (lexeme : Bytes) (rest : List Token) :
    significant (Scan.tokenAt column kind lexeme :: rest) =
      Scan.tokenAt column kind lexeme :: significant rest := by
  simp [significant, Scan.tokenAt, h]

theorem significant_blank (column : Nat) (lexeme : Bytes) (rest : List Token) :
    significant (Scan.tokenAt column .whitespace lexeme :: rest) = significant rest := by
  simp [significant, Scan.tokenAt]

theorem significant_end (column : Nat) (lexed : List (TokenKind × Bytes)) :
    significant (placed column (lexed ++ [(.eof, [])])) =
      significant (placed column lexed) ++
        [Scan.tokenAt (column + (lexed.map fun t => t.2.length).sum) .eof []] := by
  rw [placed_append, significant_append]
  exact congrArg _ (significant_tokenAt (show TokenKind.eof ≠ .whitespace by decide) _ _ _)

theorem ValueDerived.segment {template : Bytes} {toks : List Token} {value : Option Expr}
    (h : ValueDerived template toks value) (column length : Nat) :
    Segment.Derived template (opening column :: toks ++ [closing (column + 2 + length)])
      (formulaAt template column length value) := by
  cases h with
  | none => exact .emptyFormula rfl rfl
  | some h => exact .formula rfl h rfl

/-- The tokens of a text run, a formula and what follows them. -/
theorem significant_placed (column : Nat) (run : Bytes) {inner rest : Bytes}
    {lexed : List (TokenKind × Bytes)} (hinner : Takes inner lexed rest)
    (more : List (TokenKind × Bytes)) :
    significant (placed column ((.string, run) :: (.openFormula, ['$'.toUInt8, '{'.toUInt8]) ::
        (lexed ++ (.closeBrace, ['}'.toUInt8]) :: more))) =
      [Scan.tokenAt column .string run] ++
        ((opening (column + run.length) :: significant (placed (column + run.length + 2) lexed) ++
            [closing (column + run.length + 2 + inner.length)]) ++
          significant (placed (column + run.length + inner.length + 3) more)) := by
  have hcolumn : column + run.length + 2 + inner.length + 1 =
      column + run.length + inner.length + 3 := by omega
  rw [placed, significant_tokenAt (show TokenKind.string ≠ .whitespace by decide), placed,
    significant_tokenAt (show TokenKind.openFormula ≠ .whitespace by decide), placed_append,
    significant_append, hinner.length, placed,
    significant_tokenAt (show TokenKind.closeBrace ≠ .whitespace by decide)]
  simp [opening, closing, hcolumn]

/-- A text with a shape is scanned into tokens that make its segments. -/
theorem Shape.lexes {template : Bytes} {column : Nat} {body : Bytes} {segments : List Segment}
    (h : Shape template column body segments) :
    ∃ lexed, Lexes .text body lexed ∧
      SegmentsDerived template (significant (placed column lexed)) segments := by
  induction h with
  | nil column => exact ⟨[], .done _, .nil⟩
  | @text column run hne hrun =>
      exact ⟨[(.string, run)], lexes_run hne hrun, .cons (.text rfl) .nil⟩
  | @formula column run inner rest lexed value segments hrun hinner hvalue _ ih =>
      obtain ⟨more, hmore, hderived⟩ := ih
      refine ⟨_, hinner.lexes_formula hrun hmore, ?_⟩
      rw [significant_placed column run hinner]
      exact .cons (.text rfl) (.cons (hvalue.segment _ _) hderived)

/-! ## The shape of what is scanned and parsed -/

theorem Scan.Lexeme.ne_nil {kind : TokenKind} {lexeme rest : Bytes} (h : Lexeme kind lexeme rest) :
    lexeme ≠ [] := by
  obtain ⟨first, more, rfl, -⟩ := h.formulaToken
  exact List.cons_ne_nil first more

theorem Scan.Lexeme.of_opening {kind : TokenKind} {lexeme rest after : Bytes}
    (h : Lexeme kind lexeme rest)
    (htext : lexeme ++ rest = '$'.toUInt8 :: '{'.toUInt8 :: after) :
    kind = .openFormula ∧ lexeme = ['$'.toUInt8, '{'.toUInt8] ∧ rest = after := by
  obtain ⟨first, more, rfl, htoken⟩ := h.formulaToken
  rw [List.cons_append, List.cons.injEq] at htext
  obtain ⟨rfl, htail⟩ := htext
  rw [htail] at htoken
  have hopen : Scan.formulaToken '$'.toUInt8 ('{'.toUInt8 :: after) = .ok (.openFormula, 1) := rfl
  rw [hopen, Except.ok.injEq, Prod.mk.injEq] at htoken
  obtain ⟨rfl, hlength⟩ := htoken
  obtain ⟨b, rfl⟩ := List.length_eq_one_iff.mp hlength.symm
  cases htail
  exact ⟨rfl, rfl, rfl⟩

/-- The class of a word is that of a reserved word or of a name. -/
theorem TokenKind.ne_ofWord {kind : TokenKind}
    (h : kind ∉ [.ifWord, .getWord, .lengthWord, .trueWord, .falseWord, .identifier])
    (word : Bytes) : kind ≠ .ofWord word := by
  rintro rfl
  revert h
  unfold TokenKind.ofWord
  repeat' split
  all_goals decide

theorem Scan.Lexeme.of_closeBrace {lexeme rest : Bytes} (h : Lexeme .closeBrace lexeme rest) :
    lexeme = ['}'.toUInt8] := by
  generalize hkind : TokenKind.closeBrace = kind at h
  cases h with
  | closeBrace => rfl
  | word => exact absurd hkind (TokenKind.ne_ofWord (by decide) _)
  | _ => cases hkind

theorem Scan.Lexeme.of_string {lexeme after : Bytes} (h : Lexeme .string lexeme after)
    (hafter : after ≠ []) :
    ∃ mark value, (mark = '"'.toUInt8 ∨ mark = '\''.toUInt8) ∧ mark ∉ value ∧
      lexeme = mark :: value ++ [mark] := by
  generalize hkind : TokenKind.string = kind at h
  cases h with
  | quoted hmark hvalue => exact ⟨_, _, hmark, hvalue, rfl⟩
  | unclosed => exact absurd rfl hafter
  | word => exact absurd hkind (TokenKind.ne_ofWord (by decide) _)
  | _ => cases hkind

/-- In the tokens behind the opening of a formula, the first closing brace ends its text. -/
theorem Scan.Lexes.split {mode : Mode} {after : Bytes} {more : List (TokenKind × Bytes)}
    (h : Lexes mode after more) (hmode : mode = .formula) {column : Nat}
    {toks others : List Token} {close : Token}
    (heq : significant (placed column more) = toks ++ close :: others)
    (htoks : ∀ t ∈ toks, t.kind ≠ .closeBrace) (hclose : close.kind = .closeBrace) :
    ∃ inner rest lexed others',
      after = inner ++ '}'.toUInt8 :: rest ∧ Takes inner lexed ('}'.toUInt8 :: rest) ∧
        Lexes .text rest others' ∧ toks = significant (placed column lexed) ∧
        close = closing (column + inner.length) ∧
        others = significant (placed (column + inner.length + 1) others') := by
  induction h generalizing column toks with
  | done mode => simp [placed, significant] at heq
  | text => cases hmode
  | @token kind lexeme rest more hlexeme h ih =>
      by_cases hbrace : kind = .closeBrace
      · subst hbrace
        obtain rfl := hlexeme.of_closeBrace
        rw [placed, significant_tokenAt (show TokenKind.closeBrace ≠ .whitespace by decide)] at heq
        have hnil : toks = [] := by
          cases toks with
          | nil => rfl
          | cons t toks =>
              rw [List.cons_append, List.cons.injEq] at heq
              exact absurd (heq.1 ▸ rfl) (htoks t List.mem_cons_self)
        subst hnil
        rw [List.nil_append, List.cons.injEq] at heq
        exact ⟨[], rest, [], more, rfl, .nil _, h, rfl, heq.1.symm, heq.2.symm⟩
      · have hafter : Mode.after kind = .formula := if_neg hbrace
        have hstep : ∃ toks', significant (placed (column + lexeme.length) more) =
              toks' ++ close :: others ∧ (∀ t ∈ toks', t.kind ≠ .closeBrace) ∧
            ∀ lexed, toks' = significant (placed (column + lexeme.length) lexed) →
              toks = significant (placed column ((kind, lexeme) :: lexed)) := by
          by_cases hblank : kind = .whitespace
          · subst hblank
            rw [placed, significant_blank] at heq
            refine ⟨toks, heq, htoks, fun lexed htake => ?_⟩
            rw [placed, significant_blank]
            exact htake
          · rw [placed, significant_tokenAt hblank] at heq
            cases toks with
            | nil =>
                rw [List.nil_append, List.cons.injEq] at heq
                exact absurd ((congrArg Token.kind heq.1).trans hclose) hbrace
            | cons t toks =>
                rw [List.cons_append, List.cons.injEq] at heq
                refine ⟨toks, heq.2, fun t ht => htoks t (List.mem_cons_of_mem _ ht),
                  fun lexed htake => ?_⟩
                rw [placed, significant_tokenAt hblank, heq.1, htake]
        obtain ⟨toks', heq', htoks', htake⟩ := hstep
        obtain ⟨inner, rest', lexed, others', rfl, htakes, hlexes, htoks'', hclose', hothers⟩ :=
          ih hafter heq' htoks'
        refine ⟨lexeme ++ inner, rest', (kind, lexeme) :: lexed, others', by simp,
          .cons hlexeme hbrace htakes, hlexes, htake lexed htoks'', ?_, ?_⟩
        · rw [hclose', List.length_append, Nat.add_assoc]
        · rw [hothers, List.length_append, ← Nat.add_assoc]

theorem SegmentsDerived.of_string {template : Bytes} {t : Token} {toks : List Token}
    {segments : List Segment} (h : SegmentsDerived template (t :: toks) segments)
    (ht : t.kind = .string) :
    ∃ more, segments = .text ⟨tokenSpan template t, t.lexeme, none⟩ :: more ∧
      SegmentsDerived template toks more := by
  generalize hall : t :: toks = all at h
  cases h with
  | nil => cases hall
  | cons hfirst hrest =>
      cases hfirst with
      | text h =>
          cases hall
          exact ⟨_, rfl, hrest⟩
      | emptyFormula hopening hclose =>
          cases hall
          rw [ht] at hopening
          cases hopening
      | formula hopening h hclose =>
          cases hall
          rw [ht] at hopening
          cases hopening

theorem SegmentsDerived.of_opening {template : Bytes} {t : Token} {toks : List Token}
    {segments : List Segment} (h : SegmentsDerived template (t :: toks) segments)
    (ht : t.kind = .openFormula) :
    ∃ inner close others value more, toks = inner ++ close :: others ∧
      (∀ t ∈ inner, t.kind ≠ .closeBrace) ∧ close.kind = .closeBrace ∧
      ValueDerived template inner value ∧
      segments = .formula (between template t close) value :: more ∧
      SegmentsDerived template others more := by
  generalize hall : t :: toks = all at h
  cases h with
  | nil => cases hall
  | cons hfirst hrest =>
      cases hfirst with
      | text h =>
          cases hall
          rw [ht] at h
          cases h
      | emptyFormula hopening hclose =>
          cases hall
          exact ⟨[], _, _, _, _, rfl, nofun, hclose, .none, rfl, hrest⟩
      | formula hopening h hclose =>
          rw [List.cons_append, List.cons_append, List.cons.injEq, List.append_assoc] at hall
          obtain ⟨rfl, rfl⟩ := hall
          exact ⟨_, _, _, _, _, rfl, fun t ht => (ne_brace_of_derived h t ht).1, hclose,
            .some h, rfl, hrest⟩

theorem Scan.Lexes.eq_nil {more : List (TokenKind × Bytes)} (h : Lexes .formula [] more) :
    more = [] := by
  generalize htext : ([] : Bytes) = text at h
  cases h with
  | done => rfl
  | token hlexeme _ => exact absurd (List.append_eq_nil_iff.mp htext.symm).1 hlexeme.ne_nil

theorem Scan.Lexes.of_opening {mode : Mode} {after : Bytes} {lexed : List (TokenKind × Bytes)}
    (h : Lexes mode ('$'.toUInt8 :: '{'.toUInt8 :: after) lexed) (hmode : mode = .formula) :
    ∃ more, lexed = (.openFormula, ['$'.toUInt8, '{'.toUInt8]) :: more ∧
      Lexes .formula after more := by
  generalize htext : '$'.toUInt8 :: '{'.toUInt8 :: after = text at h
  cases h with
  | done => cases htext
  | text => cases hmode
  | token hlexeme hrest =>
      obtain ⟨rfl, rfl, rfl⟩ := hlexeme.of_opening htext.symm
      exact ⟨_, rfl, hrest⟩

/-- A text that is scanned and parsed has a shape. -/
theorem Scan.Lexes.shape {template : Bytes} {column : Nat} {body : Bytes}
    {lexed : List (TokenKind × Bytes)} {segments : List Segment} (h : Lexes .text body lexed)
    (hderived : SegmentsDerived template (significant (placed column lexed)) segments) :
    Shape template column body segments := by
  induction hsize : body.length using Nat.strongRecOn
    generalizing column body lexed segments with
  | _ size ih =>
      cases h with
      | done =>
          obtain rfl := hderived.of_nil
          exact .nil column
      | @text run rest more hne hrun hrest hmore =>
          rw [placed, significant_tokenAt (show TokenKind.string ≠ .whitespace by decide)]
            at hderived
          obtain ⟨segments, rfl, hafter⟩ := hderived.of_string rfl
          rcases hrest with rfl | ⟨after, rfl⟩
          · obtain rfl := hmore.eq_nil
            obtain rfl := hafter.of_nil
            rw [List.append_nil] at hne ⊢
            exact .text hne hrun
          · obtain ⟨more, rfl, hnext⟩ := hmore.of_opening rfl
            rw [placed, significant_tokenAt (show TokenKind.openFormula ≠ .whitespace by decide)]
              at hafter
            obtain ⟨toks, close, others, value, more, heq, htoks, hclose, hvalue, rfl, hrest⟩ :=
              hafter.of_opening rfl
            obtain ⟨inner, rest, lexed, others', rfl, htakes, hlexes, rfl, rfl, rfl⟩ :=
              hnext.split rfl heq htoks hclose
            have hcolumn : column + run.length + 2 + inner.length + 1 =
                column + run.length + inner.length + 3 := by omega
            have hshorter : rest.length < size := by
              simp only [List.length_append, List.length_cons] at hsize
              omega
            refine .formula hrun htakes hvalue (ih rest.length hshorter hlexes ?_ rfl)
            rw [← hcolumn]
            exact hrest

/-! ## Compiled templates -/

def inBackticks (body : Bytes) : Bytes :=
  '`'.toUInt8 :: (body ++ ['`'.toUInt8])

theorem length_inBackticks (body : Bytes) : (inBackticks body).length = body.length + 2 := by
  simp [inBackticks]

theorem drop_inBackticks (body : Bytes) : (inBackticks body).drop 1 = body ++ ['`'.toUInt8] := rfl

theorem body?_inBackticks (body : Bytes) : body? (inBackticks body) = some body := by
  simp [body?, inBackticks]

theorem tokenize_inBackticks (body : Bytes) :
    tokenize (inBackticks body) = Scan.tokens .text 1 body := by
  rw [tokenize, body?_inBackticks]

theorem eq_inBackticks_of_body? {template body : Bytes} (h : body? template = some body) :
    template = inBackticks body := by
  cases template with
  | nil => cases h
  | cons first rest =>
      simp only [body?] at h
      split at h
      · rename_i hmarks
        cases h
        simp only [Bool.and_eq_true, decide_eq_true_eq] at hmarks
        obtain ⟨rfl, hlast⟩ := hmarks
        rw [inBackticks, List.dropLast_append_getLast? _ hlast]
      · cases h

/-! Trees made from tokens can be written as scripts. -/

theorem GetCall.Derived.emits {template : Bytes} {toks : List Token} {call : GetCall}
    (h : call.Derived template toks) : ∃ text, call.emit = .ok text := by
  cases h with
  | mk => exact ⟨_, rfl⟩

theorem function?_of_comparator {kind : TokenKind} {op : Comparator}
    (h : kind.comparator? = some op) : ∃ name, op.function? = some name := by
  cases kind <;> cases h <;> exact ⟨_, rfl⟩

theorem Expr.Derived.emits {template : Bytes} {place : Grammar.Place} {toks : List Token}
    {e : Expr} (h : e.Derived template place toks) : ∃ text, e.emit = .ok text := by
  induction h with
  | string | number | yes | no => exact ⟨_, rfl⟩
  | get h => exact h.emits
  | length _ _ h _ =>
      obtain ⟨text, htext⟩ := h.emits
      exact ⟨_, bind_eq_ok_iff.mpr ⟨text, htext, rfl⟩⟩
  | choose _ _ _ _ _ _ _ _ ihtest ihyes ihno =>
      obtain ⟨test, htest⟩ := ihtest
      obtain ⟨yes, hyes⟩ := ihyes
      obtain ⟨no, hno⟩ := ihno
      simp only [Expr.emit, htest, hyes, hno, ok_bind]
      exact ⟨_, rfl⟩
  | condition _ ih => exact ih
  | comparison _ hop _ ihleft ihright =>
      obtain ⟨left, hleft⟩ := ihleft
      obtain ⟨right, hright⟩ := ihright
      obtain ⟨name, hname⟩ := function?_of_comparator hop
      simp only [Expr.emit, hleft, hright, hname, ok_bind]
      exact ⟨_, rfl⟩

theorem emitSegments_cons {segment : Segment} {rest : List Segment} {text : Bytes}
    {parts : List Bytes} (htext : segment.emit = .ok text)
    (hparts : emitSegments rest = .ok parts) :
    emitSegments (segment :: rest) = .ok ((↑"toText(" ++ text ++ ↑")") :: parts) := by
  rw [emitSegments, htext, ok_bind, hparts, ok_bind]
  rfl

theorem Segment.Derived.emits {template : Bytes} {toks : List Token} {segment : Segment}
    (h : segment.Derived template toks) : ∃ text, segment.emit = .ok text := by
  cases h with
  | text => exact ⟨_, rfl⟩
  | emptyFormula => exact ⟨_, rfl⟩
  | formula _ h _ => exact h.emits

theorem SegmentsDerived.emits {template : Bytes} {toks : List Token} {segments : List Segment}
    (h : SegmentsDerived template toks segments) : ∃ parts, emitSegments segments = .ok parts := by
  induction h with
  | nil => exact ⟨[], rfl⟩
  | cons hfirst _ ih =>
      obtain ⟨text, htext⟩ := hfirst.emits
      obtain ⟨parts, hparts⟩ := ih
      exact ⟨_, emitSegments_cons htext hparts⟩

theorem SourceFile.Derived.emits {template : Bytes} {toks : List Token} {file : SourceFile}
    (h : file.Derived template toks) : ∃ source, file.emit = .ok source := by
  cases h with
  | mk hbody _ =>
      obtain ⟨parts, hparts⟩ := hbody.segments.emits
      unfold SourceFile.emit SourceFile.segments
      dsimp only
      rw [hparts]
      split <;> exact ⟨_, rfl⟩

/-- The stages of a compilation of a text in backticks. -/
theorem outcome_compile (cancelled : Bool) (body : Bytes) :
    (compile cancelled (inBackticks body)).outcome =
      match Scan.tokens .text 1 body with
      | .error e => .error e.toFault
      | .ok toks =>
          if cancelled then
            .error (Fault.ofKind .cancelled)
          else
            match parse (inBackticks body) toks with
            | .error e => .error e.toFault
            | .ok file => Template.ofFile (some file) := by
  unfold compile tokenize
  rw [body?_inBackticks]
  dsimp only
  cases htokens : Scan.tokens .text 1 body with
  | error e => rfl
  | ok toks =>
      obtain ⟨lexed, -, rfl⟩ := tokens_eq_ok_iff.mp htokens
      have hne : (placed 1 (lexed ++ [(.eof, [])])).isEmpty = false := by
        rw [placed_append]
        simp [placed]
      dsimp only
      rw [hne, if_neg Bool.false_ne_true]
      cases cancelled with
      | true => rfl
      | false =>
          rw [if_neg Bool.false_ne_true, if_neg Bool.false_ne_true]
          unfold Compile.arrange
          cases hparse : parse (inBackticks body) (placed 1 (lexed ++ [(.eof, [])])) with
          | error e => rfl
          | ok file =>
              unfold Compile.check
              cases hfile : Template.ofFile (some file) <;> simp [hfile]

/-- What a successful compilation of a text in backticks says. -/
theorem compile_inBackticks {cancelled : Bool} {body : Bytes} {t : Template} :
    (compile cancelled (inBackticks body)).outcome = .ok t ↔
      cancelled = false ∧ ∃ toks file, Scan.tokens .text 1 body = .ok toks ∧
        parse (inBackticks body) toks = .ok file ∧ Template.ofFile (some file) = .ok t := by
  rw [outcome_compile]
  cases htokens : Scan.tokens .text 1 body with
  | error e => simp
  | ok toks =>
      cases cancelled with
      | true => simp
      | false => cases hparse : parse (inBackticks body) toks <;> simp [hparse]

structure Compiled (body : Bytes) (t : Template) (file : SourceFile) : Prop where
  tree : t.file = some file
  derived : ∃ toks, file.Derived (inBackticks body) toks
  shape : Shape (inBackticks body) 1 body file.segments
  source : file.emit = .ok t.source
  names : t.names = file.names

theorem Compiled.render {body : Bytes} {t : Template} {file : SourceFile}
    (h : Compiled body t file) (fn : Bindings) : t.render fn = renderSegments fn file.segments := by
  rw [Template.render, h.tree]
  rfl

/-- The tree of a compiled template has the shape of its text. -/
theorem compiled_of_ok {cancelled : Bool} {body : Bytes} {t : Template}
    (h : (compile cancelled (inBackticks body)).outcome = .ok t) :
    cancelled = false ∧ ∃ file, Compiled body t file := by
  obtain ⟨hcancelled, toks, file, htokens, hparse, hfile⟩ := compile_inBackticks.mp h
  refine ⟨hcancelled, file, ?_⟩
  obtain ⟨lexed, hlexes, rfl⟩ := tokens_eq_ok_iff.mp htokens
  obtain ⟨source, hsource, hfile⟩ := bind_eq_ok_iff.mp hfile
  cases hfile
  have hderived := parse_eq_ok_iff.mp hparse
  refine ⟨rfl, ⟨_, hderived⟩, ?_, hsource, rfl⟩
  rw [significant_end] at hderived
  generalize hall : significant _ ++ _ = all at hderived
  cases hderived with
  | mk hbody heof =>
      obtain ⟨rfl, -⟩ := List.append_inj' hall rfl
      exact hlexes.shape hbody.segments

/-- A text with a shape compiles. -/
theorem Shape.compile {body : Bytes} {segments : List Segment}
    (h : Shape (inBackticks body) 1 body segments) :
    ∃ t file, (compile false (inBackticks body)).outcome = .ok t ∧ Compiled body t file ∧
      file.segments = segments := by
  obtain ⟨lexed, hlexes, hderived⟩ := h.lexes
  obtain ⟨tree, hbody, htree⟩ := exists_bodyDerived hderived
  obtain ⟨file, hfile, hsegments⟩ : ∃ file : SourceFile,
      file.Derived (inBackticks body) (significant (placed 1 (lexed ++ [(.eof, [])]))) ∧
        file.segments = segments := by
    rw [significant_end]
    exact ⟨_, .mk hbody rfl, htree⟩
  obtain ⟨source, hsource⟩ := hfile.emits
  have hcompiled : Compiled body ⟨some file, file.names, source⟩ file :=
    ⟨rfl, ⟨_, hfile⟩, hsegments ▸ h, hsource, rfl⟩
  refine ⟨_, file, ?_, hcompiled, hsegments⟩
  refine compile_inBackticks.mpr ⟨rfl, _, file, hlexes.tokens 1, parse_eq_ok_iff.mpr hfile, ?_⟩
  exact bind_eq_ok_iff.mpr ⟨source, hsource, rfl⟩

/-- A compiled template renders nothing, or its tree has the shape of its text. -/
theorem compile_cases {cancelled : Bool} {template : Bytes} {t : Template}
    (h : (compile cancelled template).outcome = .ok t) :
    t = Template.blank none ∨
      cancelled = false ∧ ∃ body file, template = inBackticks body ∧ Compiled body t file := by
  cases hbody : Scan.body? template with
  | none =>
      have htokens : tokenize template = .ok [] := by rw [tokenize, hbody]
      unfold compile at h
      rw [htokens] at h
      cases h
      exact .inl rfl
  | some body =>
      obtain rfl := eq_inBackticks_of_body? hbody
      obtain ⟨hcancelled, file, hfile⟩ := compiled_of_ok h
      exact .inr ⟨hcancelled, body, file, rfl, hfile⟩

end Backtick
