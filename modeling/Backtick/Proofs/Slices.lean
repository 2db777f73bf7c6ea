import Mathlib
import Backtick.Proofs.Spans
import Backtick.Proofs.Tiling

/-!
# Values by their source

The text that a value covers, put into a formula of its own, makes that value again.
Its tokens are the same ones at other columns, because what follows a value in a
template never belongs to its last token; and a value depends on its tokens and on the
text between them alone. So all of it moves by one offset.
-/

namespace Backtick

open Scan Parse

/-! ## Moving along the columns -/

def Span.shift (offset : Int) (span : Span) : Span :=
  ⟨span.start + offset, span.stop + offset, span.source⟩

theorem Span.start_shift (offset : Int) (span : Span) :
    (span.shift offset).start = span.start + offset := rfl

theorem Span.stop_shift (offset : Int) (span : Span) :
    (span.shift offset).stop = span.stop + offset := rfl

def StringLiteral.shift (offset : Int) (literal : StringLiteral) : StringLiteral :=
  ⟨literal.span.shift offset, literal.value, literal.mark⟩

def GetCall.shift (offset : Int) (call : GetCall) : GetCall :=
  ⟨call.span.shift offset, call.name.map (StringLiteral.shift offset)⟩

def Expr.shift (offset : Int) : Expr -> Expr
  | .string literal => .string (literal.shift offset)
  | .number span x => .number (span.shift offset) x
  | .boolean span b => .boolean (span.shift offset) b
  | .get call => .get (call.shift offset)
  | .length span arg => .length (span.shift offset) (arg.map (GetCall.shift offset))
  | .choose span test yes no =>
      .choose (span.shift offset) (test.shift offset) (yes.shift offset) (no.shift offset)
  | .compare span left op right =>
      .compare (span.shift offset) (left.shift offset) op (right.shift offset)
  | .missing => .missing

def Token.shift (offset : Int) (t : Token) : Token :=
  ⟨t.lexeme, t.kind, t.start + offset, t.stop + offset⟩

theorem Expr.span?_shift (offset : Int) (e : Expr) :
    (e.shift offset).span? = e.span?.map (Span.shift offset) := by
  cases e <;> rfl

theorem significant_shift (offset : Int) (toks : List Token) :
    significant (toks.map (Token.shift offset)) =
      (significant toks).map (Token.shift offset) := by
  rw [significant, List.filter_map]
  rfl

theorem placed_shift (column column' : Nat) (lexed : List (TokenKind × Bytes)) :
    placed column' lexed = (placed column lexed).map (Token.shift (column' - column)) := by
  induction lexed generalizing column column' with
  | nil => rfl
  | cons first lexed ih =>
      obtain ⟨kind, lexeme⟩ := first
      have hrest := ih (column + lexeme.length) (column' + lexeme.length)
      have hoffset : ((column' + lexeme.length : Nat) : Int) - (column + lexeme.length : Nat) =
          column' - column := by omega
      rw [hoffset] at hrest
      rw [placed, placed, List.map_cons, hrest]
      refine congrArg (· :: _) ?_
      simp only [Scan.tokenAt, Token.shift, Token.mk.injEq, true_and]
      omega

/-- The text of a span inside a text that stands at a column. -/
theorem source_spanOf {template text : Bytes} {column : Nat} (h : text <+: template.drop column)
    {start stop : Int} (hstart : column ≤ start) (hstop : stop ≤ column + text.length) :
    (spanOf template start stop).source =
      (text.drop (start - column).toNat).take (stop - start).toNat := by
  obtain ⟨after, hafter⟩ := h
  have hlength := congrArg List.length hafter
  rw [List.length_append, List.length_drop] at hlength
  unfold spanOf
  split
  · rename_i hout
    simp only [Bool.or_eq_true, decide_eq_true_eq] at hout
    -- a place outside the template leaves room for no text
    have hempty : (stop - start).toNat = 0 ∨ text.length = 0 := by omega
    rcases hempty with hempty | hempty
    · rw [hempty, List.take_zero]
    · rw [List.eq_nil_of_length_eq_zero hempty, List.drop_nil, List.take_nil]
  · rename_i hinside
    simp only [Bool.or_eq_true, decide_eq_true_eq] at hinside
    have hplace : start.toNat = column + (start - column).toNat := by omega
    have hfits : (stop - start).toNat ≤ (text.drop (start - column).toNat).length := by
      rw [List.length_drop]
      omega
    dsimp only
    rw [hplace, ← List.drop_drop, ← hafter, List.drop_append_of_le_length (by omega),
      List.take_append_of_le_length hfits]

/-! ## Trees in another template -/

section Transport

variable {template template' text : Bytes} {column column' : Nat}

def Token.Within (column length : Nat) (t : Token) : Prop :=
  column ≤ t.start ∧ t.stop ≤ column + length

theorem spanOf_shift (h : text <+: template.drop column) (h' : text <+: template'.drop column')
    {start stop : Int} (hstart : column ≤ start) (hstop : stop ≤ column + text.length) :
    spanOf template' (start + (column' - column)) (stop + (column' - column)) =
      (spanOf template start stop).shift (column' - column) := by
  have hsource := source_spanOf h hstart hstop
  have hsource' : (spanOf template' (start + (column' - column))
      (stop + (column' - column))).source = _ := source_spanOf h' (by omega) (by omega)
  have hbegin : start + (column' - column) - column' = start - column := by omega
  have hwidth : stop + (column' - column) - (start + (column' - column)) = stop - start := by omega
  rw [hbegin, hwidth, ← hsource] at hsource'
  have hmk : ∀ span : Span, span = ⟨span.start, span.stop, span.source⟩ := fun _ => rfl
  rw [hmk (spanOf template' _ _), hsource', spanOf_start, spanOf_stop, Span.shift, spanOf_start,
    spanOf_stop]

theorem span_quoted (template : Bytes) (t : Token) :
    (quoted template t).span = between template t t := by
  unfold quoted
  cases t.lexeme <;> rfl

/-- The span of a value goes from its first token to its last one. -/
theorem Expr.Derived.ends {place : Grammar.Place} {toks : List Token} {e : Expr}
    (h : e.Derived template place toks) (hplace : place = .value) :
    ∃ first last, toks.head? = some first ∧ toks.getLast? = some last ∧
      e.span? = some (between template first last) := by
  cases h with
  | string => exact ⟨_, _, rfl, rfl, congrArg some (span_quoted template _)⟩
  | number | yes | no => exact ⟨_, _, rfl, rfl, rfl⟩
  | get h =>
      cases h with
      | mk => exact ⟨_, _, rfl, rfl, rfl⟩
  | length | choose => exact ⟨_, _, rfl, List.getLast?_concat, rfl⟩
  | condition | comparison => cases hplace

variable (h : text <+: template.drop column) (h' : text <+: template'.drop column')

include h h'

theorem between_shift {first last : Token} (hfirst : first.Within column text.length)
    (hlast : last.Within column text.length) :
    between template' (first.shift (column' - column)) (last.shift (column' - column)) =
      (between template first last).shift (column' - column) :=
  spanOf_shift h h' hfirst.1 hlast.2

theorem quoted_shift {t : Token} (ht : t.Within column text.length) :
    quoted template' (t.shift (column' - column)) =
      (quoted template t).shift (column' - column) := by
  have hspan : tokenSpan template' (t.shift (column' - column)) =
      (tokenSpan template t).shift (column' - column) := between_shift h h' ht ht
  unfold quoted
  rw [hspan]
  cases t with
  | mk lexeme kind start stop => cases lexeme <;> rfl

theorem GetCall.Derived.shift {toks : List Token} {call : GetCall}
    (hderived : call.Derived template toks) (htoks : ∀ t ∈ toks, t.Within column text.length) :
    (call.shift (column' - column)).Derived template'
      (toks.map (Token.shift (column' - column))) := by
  cases hderived with
  | @mk word opening name close hword hopening hname hclose =>
      have hspan := between_shift h h' (htoks word (by simp)) (htoks close (by simp))
      have hquoted := quoted_shift h h' (htoks name (by simp))
      rw [GetCall.shift, Option.map_some, ← hspan, ← hquoted]
      exact .mk hword hopening hname hclose

theorem comparisonSpan_shift {lefts rights : List Token} {left right : Expr}
    (hleft : left.Derived template .value lefts) (hright : right.Derived template .value rights)
    (hlefts : ∀ t ∈ lefts, t.Within column text.length)
    (hrights : ∀ t ∈ rights, t.Within column text.length) :
    comparisonSpan template' (left.shift (column' - column)) (right.shift (column' - column)) =
      (comparisonSpan template left right).shift (column' - column) := by
  obtain ⟨first, _, hfirst, -, hspan⟩ := hleft.ends rfl
  obtain ⟨_, last, -, hlast, hspan'⟩ := hright.ends rfl
  have hstart := (hlefts first (List.mem_of_head? hfirst)).1
  have hstop := (hrights last (List.mem_of_getLast? hlast)).2
  simp only [comparisonSpan, Expr.span?_shift, hspan, hspan', Option.map_some, Option.getD_some,
    Span.start_shift, Span.stop_shift, between, spanOf_start, spanOf_stop]
  exact spanOf_shift h h' hstart hstop

/-- Tokens moved with the text they lie in make the expression moved. -/
theorem Expr.Derived.shift {place : Grammar.Place} {toks : List Token} {e : Expr}
    (hderived : e.Derived template place toks)
    (htoks : ∀ t ∈ toks, t.Within column text.length) :
    (e.shift (column' - column)).Derived template' place
      (toks.map (Token.shift (column' - column))) := by
  induction hderived with
  | string hkind =>
      rw [Expr.shift, ← quoted_shift h h' (htoks _ List.mem_cons_self)]
      exact .string hkind
  | number hkind hread =>
      have ht := htoks _ List.mem_cons_self
      rw [Expr.shift, tokenSpan, ← between_shift h h' ht ht]
      exact .number hkind hread
  | yes hkind =>
      have ht := htoks _ List.mem_cons_self
      rw [Expr.shift, tokenSpan, ← between_shift h h' ht ht]
      exact .yes hkind
  | no hkind =>
      have ht := htoks _ List.mem_cons_self
      rw [Expr.shift, tokenSpan, ← between_shift h h' ht ht]
      exact .no hkind
  | get hcall => exact .get (hcall.shift h h' htoks)
  | @length word opening close toks call hword hopening hcall hclose =>
      rw [Expr.shift, ← between_shift h h' (htoks word (by simp)) (htoks close (by simp)),
        List.map_append]
      exact .length hword hopening (hcall.shift h h' fun t ht => htoks t (by simp [ht])) hclose
  | @choose word opening comma comma' close tests yess nos test yes no hword hopening _ hcomma _
      hcomma' _ hclose ihtest ihyes ihno =>
      rw [Expr.shift, ← between_shift h h' (htoks word (by simp)) (htoks close (by simp)),
        List.map_append, List.map_append, List.map_append]
      exact .choose hword hopening (ihtest fun t ht => htoks t (by simp [ht])) hcomma
        (ihyes fun t ht => htoks t (by simp [ht])) hcomma'
        (ihno fun t ht => htoks t (by simp [ht])) hclose
  | condition _ ih => exact .condition (ih htoks)
  | @comparison sign lefts rights op left right hleft hop hright ihleft ihright =>
      have hlefts : ∀ t ∈ lefts, t.Within column text.length :=
        fun t ht => htoks t (by simp [ht])
      have hrights : ∀ t ∈ rights, t.Within column text.length :=
        fun t ht => htoks t (by simp [ht])
      rw [Expr.shift, ← comparisonSpan_shift h h' hleft hright hlefts hrights, List.map_append,
        List.map_cons]
      exact .comparison (ihleft hlefts) hop (ihright hrights)

end Transport

/-! ## Values inside an expression -/

def GetCall.values (call : GetCall) : List Expr :=
  .get call :: (call.name.map Expr.string).toList

/-- The values inside an expression, which is one of them unless it is a comparison. -/
def Expr.values : Expr -> List Expr
  | .string literal => [.string literal]
  | .number span x => [.number span x]
  | .boolean span b => [.boolean span b]
  | .get call => call.values
  | .length span arg => .length span arg :: arg.elim [] GetCall.values
  | .choose span test yes no =>
      .choose span test yes no :: (test.values ++ yes.values ++ no.values)
  | .compare _ left _ right => left.values ++ right.values
  | .missing => []

def Segment.values : Segment -> List Expr
  | .formula _ (some e) => e.values
  | _ => []

def SourceFile.values (file : SourceFile) : List Expr :=
  file.segments.flatMap Segment.values

section Parts

variable {template : Bytes}

def Expr.MadeIn (template : Bytes) (toks : List Token) (v : Expr) : Prop :=
  ∃ part, part <:+: toks ∧ v.Derived template .value part

theorem Expr.MadeIn.mono {toks more : List Token} {v : Expr} (h : v.MadeIn template toks)
    (hmore : toks <:+: more) : v.MadeIn template more := by
  obtain ⟨part, hpart, hderived⟩ := h
  exact ⟨part, hpart.trans hmore, hderived⟩

theorem GetCall.Derived.values {toks : List Token} {call : GetCall}
    (h : call.Derived template toks) : ∀ v ∈ call.values, v.MadeIn template toks := by
  cases h with
  | @mk word opening name close hword hopening hname hclose =>
      refine List.forall_mem_cons.mpr ⟨?_, List.forall_mem_singleton.mpr ?_⟩
      · exact ⟨_, List.infix_rfl, .get (.mk hword hopening hname hclose)⟩
      · exact ⟨[name], ⟨[word, opening], [close], rfl⟩, .string hname⟩

theorem Expr.Derived.values {place : Grammar.Place} {toks : List Token} {e : Expr}
    (h : e.Derived template place toks) : ∀ v ∈ e.values, v.MadeIn template toks := by
  induction h with
  | string h => exact List.forall_mem_singleton.mpr ⟨_, List.infix_rfl, .string h⟩
  | number h hread => exact List.forall_mem_singleton.mpr ⟨_, List.infix_rfl, .number h hread⟩
  | yes h => exact List.forall_mem_singleton.mpr ⟨_, List.infix_rfl, .yes h⟩
  | no h => exact List.forall_mem_singleton.mpr ⟨_, List.infix_rfl, .no h⟩
  | get h => exact h.values
  | @length word opening close toks call hword hopening h hclose =>
      refine List.forall_mem_cons.mpr ⟨?_, fun v hv => (h.values v hv).mono ?_⟩
      · exact ⟨_, List.infix_rfl, .length hword hopening h hclose⟩
      · exact ⟨[word, opening], [close], rfl⟩
  | @choose word opening comma comma' close tests yess nos test yes no hword hopening htest hcomma
      hyes hcomma' hno hclose ihtest ihyes ihno =>
      refine List.forall_mem_cons.mpr ⟨?_, List.forall_mem_append.mpr
        ⟨List.forall_mem_append.mpr ⟨fun v hv => (ihtest v hv).mono ?_,
          fun v hv => (ihyes v hv).mono ?_⟩, fun v hv => (ihno v hv).mono ?_⟩⟩
      · exact ⟨_, List.infix_rfl, .choose hword hopening htest hcomma hyes hcomma' hno hclose⟩
      · exact ⟨[word, opening], comma :: yess ++ comma' :: nos ++ [close], by simp⟩
      · exact ⟨word :: opening :: tests ++ [comma], comma' :: nos ++ [close], by simp⟩
      · exact ⟨word :: opening :: tests ++ comma :: yess ++ [comma'], [close], by simp⟩
  | condition _ ih => exact ih
  | @comparison sign lefts rights op left right _ _ _ ihleft ihright =>
      refine List.forall_mem_append.mpr
        ⟨fun v hv => (ihleft v hv).mono ?_, fun v hv => (ihright v hv).mono ?_⟩
      · exact ⟨[], sign :: rights, rfl⟩
      · exact ⟨lefts ++ [sign], [], by simp⟩

theorem ValueDerived.values {toks : List Token} {value : Option Expr}
    (h : ValueDerived template toks value) (span : Span) :
    ∀ v ∈ (Segment.formula span value).values, v.MadeIn template toks := by
  cases h with
  | none => exact List.forall_mem_nil _
  | some h => exact h.values

end Parts

/-! ## Tokens and the text they are in -/

/-- Members of a filtered list that stand together are those of a part that begins and ends with
them. -/
theorem exists_part {α : Type} {p : α → Bool} {all part : List α} (h : part <:+: all.filter p)
    (hne : part ≠ []) :
    ∃ before mid after, all = before ++ mid ++ after ∧ mid.filter p = part ∧
      mid.head? = part.head? ∧ mid.getLast? = part.getLast? := by
  obtain ⟨front, behind, hfilter⟩ := h
  obtain ⟨first, more, rfl⟩ := List.exists_cons_of_ne_nil hne
  rw [List.append_assoc, eq_comm, List.filter_eq_append_iff] at hfilter
  obtain ⟨before, rest, rfl, -, hrest⟩ := hfilter
  rw [List.cons_append, List.filter_eq_cons_iff] at hrest
  obtain ⟨skipped, rest, rfl, -, hfirst, hmore⟩ := hrest
  rcases List.eq_nil_or_concat' more with rfl | ⟨init, last, rfl⟩
  · exact ⟨before ++ skipped, [first], rest, by simp, by simp [hfirst], rfl, rfl⟩
  · rw [List.append_assoc, List.filter_eq_append_iff] at hmore
    obtain ⟨mid, rest, rfl, hmid, hrest⟩ := hmore
    rw [List.singleton_append, List.filter_eq_cons_iff] at hrest
    obtain ⟨gap, after, rfl, hgap, hlast, -⟩ := hrest
    refine ⟨before ++ skipped, first :: (mid ++ gap ++ [last]), after, by simp, ?_, rfl, ?_⟩
    · simp [hfirst, hmid, hlast, List.filter_eq_nil_iff.mpr hgap]
    · change ((first :: (mid ++ gap)) ++ [last]).getLast? = ((first :: init) ++ [last]).getLast?
      rw [List.getLast?_concat, List.getLast?_concat]

namespace Scan

theorem placed_eq_append {column : Nat} {lexed : List (TokenKind × Bytes)}
    {first second : List Token} (h : placed column lexed = first ++ second) :
    ∃ before after, lexed = before ++ after ∧ placed column before = first ∧
      placed (column + (before.map fun t => t.2.length).sum) after = second := by
  induction first generalizing column lexed with
  | nil => exact ⟨[], lexed, rfl, rfl, h⟩
  | cons t first ih =>
      cases lexed with
      | nil => cases h
      | cons word lexed =>
          obtain ⟨kind, lexeme⟩ := word
          obtain ⟨rfl, hrest⟩ := List.cons.inj h
          obtain ⟨before, after, rfl, rfl, rfl⟩ := ih hrest
          refine ⟨(kind, lexeme) :: before, after, rfl, rfl, ?_⟩
          rw [List.map_cons, List.sum_cons, Nat.add_assoc]

theorem Takes.split {inner rest : Bytes} {first second : List (TokenKind × Bytes)}
    (h : Takes inner (first ++ second) rest) :
    ∃ before after, inner = before ++ after ∧ Takes before first (after ++ rest) ∧
      Takes after second rest := by
  induction first generalizing inner with
  | nil => exact ⟨[], inner, rfl, .nil _, h⟩
  | cons word first ih =>
      cases h with
      | @cons kind lexeme inner _ _ hlexeme hkind h =>
          obtain ⟨before, after, rfl, hfirst, hsecond⟩ := ih h
          rw [List.append_assoc] at hlexeme
          exact ⟨lexeme ++ before, after, by simp, .cons hlexeme hkind hfirst, hsecond⟩

theorem grows_brace (kind : TokenKind) : grows kind '}'.toUInt8 = false := by
  cases kind <;> rfl

/-- Whatever follows a text inside a formula, a brace may stand there. -/
theorem Takes.before_brace {inner rest : Bytes} {lexed : List (TokenKind × Bytes)}
    (h : Takes inner lexed rest) (hrest : rest ≠ []) (tail : Bytes) :
    Takes inner lexed ('}'.toUInt8 :: tail) := by
  induction h with
  | nil => exact .nil _
  | @cons kind lexeme inner rest more hlexeme hkind _ ih =>
      refine .cons ?_ hkind (ih hrest)
      cases inner with
      | nil =>
          refine hlexeme.before hrest fun b hb => .inr ?_
          obtain rfl := Option.some.inj hb
          exact grows_brace kind
      | cons c inner => exact hlexeme.congr_tail _

/-- The tokens of a text begin where it begins and end where it ends. -/
theorem ends_placed {column : Nat} {lexed : List (TokenKind × Bytes)} {first last : Token}
    (hfirst : (placed column lexed).head? = some first)
    (hlast : (placed column lexed).getLast? = some last) :
    first.start = column ∧ last.stop = (column + (lexed.map fun t => t.2.length).sum : Nat) := by
  constructor
  · cases lexed with
    | nil => cases hfirst
    | cons word lexed =>
        cases hfirst
        rfl
  · rcases List.eq_nil_or_concat' lexed with rfl | ⟨init, word, rfl⟩
    · cases hlast
    · rw [placed_append, placed, placed, List.getLast?_concat, Option.some.injEq] at hlast
      subst hlast
      simp [Scan.tokenAt, Nat.add_assoc]

end Scan

/-! ## A value in a formula of its own -/

def inFormula (text : Bytes) : Bytes :=
  inBackticks ('$'.toUInt8 :: '{'.toUInt8 :: (text ++ ['}'.toUInt8]))

theorem prefix_drop_inFormula (text : Bytes) : text <+: (inFormula text).drop 3 :=
  ⟨['}'.toUInt8, '`'.toUInt8], by simp [inFormula, inBackticks]⟩

def SourceFile.formulas (file : SourceFile) : List (Option Expr) :=
  file.segments.filterMap fun
    | .formula _ value => some value
    | _ => none

/-- A text with a shape is scanned and parsed into its segments. -/
theorem Shape.parse {body : Bytes} {segments : List Segment}
    (h : Shape (inBackticks body) 1 body segments) :
    ∃ toks file, tokenize (inBackticks body) = .ok toks ∧
      Backtick.parse (inBackticks body) toks = .ok file ∧ file.segments = segments := by
  obtain ⟨t, file, hok, hcompiled, hsegments⟩ := h.compile
  obtain ⟨-, toks, tree, htokens, hparse, htree⟩ := compile_inBackticks.mp hok
  obtain ⟨source, -, ht⟩ := bind_eq_ok_iff.mp htree
  cases ht
  obtain rfl := Option.some.inj hcompiled.tree
  exact ⟨toks, tree, (tokenize_inBackticks body).trans htokens, hparse, hsegments⟩

/-- A template that is scanned and parsed has the shape of its segments. -/
theorem shape_of_parse {body : Bytes} {toks : List Token} {file : SourceFile}
    (htokens : tokenize (inBackticks body) = .ok toks)
    (hparse : parse (inBackticks body) toks = .ok file) :
    Shape (inBackticks body) 1 body file.segments := by
  obtain ⟨source, hsource⟩ := (parse_eq_ok_iff.mp hparse).emits
  rw [tokenize_inBackticks] at htokens
  have hcompile : (compile false (inBackticks body)).outcome =
      .ok ⟨some file, file.names, source⟩ :=
    compile_inBackticks.mpr ⟨rfl, toks, file, htokens, hparse, bind_eq_ok_iff.mpr
      ⟨source, hsource, rfl⟩⟩
  obtain ⟨-, tree, hcompiled⟩ := compiled_of_ok hcompile
  obtain rfl := Option.some.inj hcompiled.tree
  exact hcompiled.shape

/-- A value alone in a formula is the one value of its template. -/
theorem parse_inFormula {text : Bytes} {words : List (TokenKind × Bytes)} {v : Expr}
    (htakes : Takes text words ['}'.toUInt8])
    (hderived : v.Derived (inFormula text) .value (significant (placed 3 words))) :
    ∃ toks file, tokenize (inFormula text) = .ok toks ∧ parse (inFormula text) toks = .ok file ∧
      file.formulas = [some v] := by
  have hshape : Shape (inFormula text) 1 _ _ :=
    .formula noOpening_nil htakes (.some hderived) (.nil _)
  obtain ⟨toks, file, htokens, hparse, hsegments⟩ := Shape.parse hshape
  refine ⟨toks, file, htokens, hparse, ?_⟩
  rw [SourceFile.formulas, hsegments]
  rfl

/-- The source of a value, put into a formula of its own, makes the value moved to its column. -/
def Expr.FromSource (v : Expr) : Prop :=
  ∃ span, v.span? = some span ∧ ∃ toks file, tokenize (inFormula span.source) = .ok toks ∧
    parse (inFormula span.source) toks = .ok file ∧
    file.formulas = [some (v.shift (3 - span.start))]

theorem Expr.Derived.fromSource {template text rest : Bytes} {column : Nat}
    {words : List (TokenKind × Bytes)} {v : Expr} {first last : Token}
    (hderived : v.Derived template .value (significant (placed column words)))
    (hfirst : (placed column words).head? = some first)
    (hlast : (placed column words).getLast? = some last)
    (hspan : v.span? = some (between template first last))
    (htakes : Takes text words rest) (hrest : rest ≠ [])
    (hplace : text <+: template.drop column) : v.FromSource := by
  obtain ⟨hstart, hstop⟩ := ends_placed hfirst hlast
  rw [htakes.length] at hstop
  have hsource : (between template first last).source = text := by
    have hwidth : last.stop - first.start = text.length := by omega
    rw [between, source_spanOf hplace (by omega) (by omega), hwidth, hstart]
    simp
  have hwithin : ∀ t ∈ significant (placed column words), t.Within column text.length := by
    intro t ht
    obtain ⟨after, hafter⟩ := hplace
    obtain ⟨place, hplaced, hend, hle, hfits, -⟩ :=
      place_of_mem_placed (by rw [htakes.flatMap, hafter]) (List.mem_of_mem_filter ht)
    rw [htakes.flatMap] at hfits
    exact ⟨by omega, by omega⟩
  have hshift := hderived.shift hplace (prefix_drop_inFormula text) hwithin
  rw [← significant_shift, ← placed_shift] at hshift
  refine ⟨_, hspan, ?_⟩
  rw [hsource, between, spanOf_start, hstart]
  exact parse_inFormula (htakes.before_brace hrest []) hshift

/-- A value made by some of the tokens of a formula. -/
theorem Expr.MadeIn.fromSource {template inner rest after : Bytes} {column : Nat}
    {lexed : List (TokenKind × Bytes)} {v : Expr}
    (h : v.MadeIn template (significant (placed column lexed)))
    (hinner : Takes inner lexed rest) (hrest : rest ≠ [])
    (hplace : template.drop column = inner ++ after) : v.FromSource := by
  obtain ⟨part, hpart, hderived⟩ := h
  obtain ⟨first, last, hfirst, hlast, hspan⟩ := hderived.ends rfl
  have hne : part ≠ [] := by
    rintro rfl
    cases hfirst
  -- the lexemes from the first token of the value to its last, with the blanks between them
  obtain ⟨front, mid, behind, hall, rfl, hhead, hend⟩ := exists_part hpart hne
  rw [List.append_assoc] at hall
  obtain ⟨before, more, rfl, rfl, hmore⟩ := placed_eq_append hall
  obtain ⟨words, others, rfl, rfl, rfl⟩ := placed_eq_append hmore
  obtain ⟨skipped, inside, rfl, hbefore, hinside⟩ := hinner.split
  obtain ⟨text, behind, rfl, htakes, -⟩ := hinside.split
  refine Expr.Derived.fromSource hderived (hhead.trans hfirst) (hend.trans hlast) hspan
    htakes (by simp [hrest]) ?_
  rw [List.append_assoc] at hplace
  rw [hbefore.length, drop_of_append hplace, List.append_assoc]
  exact List.prefix_append _ _

/-- The values of a text that has a shape. -/
theorem Shape.fromSource {template body after : Bytes} {column : Nat} {segments : List Segment}
    (h : Shape template column body segments) (hplace : template.drop column = body ++ after) :
    ∀ segment ∈ segments, ∀ v ∈ segment.values, v.FromSource := by
  induction h with
  | nil => exact List.forall_mem_nil _
  | text => exact List.forall_mem_singleton.mpr (List.forall_mem_nil _)
  | @formula column run inner rest lexed value segments hrun hinner hvalue _ ih =>
      obtain ⟨hinside, hbehind⟩ := drop_of_formula hplace
      refine List.forall_mem_cons.mpr ⟨List.forall_mem_nil _,
        List.forall_mem_cons.mpr ⟨fun v hv => ?_, ih hbehind⟩⟩
      exact (hvalue.values _ v hv).fromSource hinner (by simp) hinside

/-- The source of every value of a template is that value, moved to another column. -/
theorem value_source_reparses {template : Bytes} {toks : List Token} {file : SourceFile}
    (htokens : tokenize template = .ok toks) (hparse : parse template toks = .ok file) :
    ∀ v ∈ file.values, ∃ span, v.span? = some span ∧
      ∃ toks' file', tokenize (inFormula span.source) = .ok toks' ∧
        parse (inFormula span.source) toks' = .ok file' ∧
        file'.formulas = [some (v.shift (3 - span.start))] := by
  intro v hv
  cases hbody : Scan.body? template with
  | none =>
      rw [tokenize, hbody] at htokens
      cases htokens
      cases hparse
  | some body =>
      obtain rfl := eq_inBackticks_of_body? hbody
      obtain ⟨segment, hsegment, hv⟩ := List.mem_flatMap.mp hv
      exact (shape_of_parse htokens hparse).fromSource (drop_inBackticks body) segment hsegment v hv

/-- A template with a call of `LENGTH` as the condition of `IF`, and blanks around it. -/
def sliceText : Bytes :=
  inBackticks "a $\x7bIF( LENGTH(GET( 'x')) ,'b', GET('y'))\x7d"

def sliceValue : Expr :=
  .length ⟨9, 26, "LENGTH(GET( 'x'))"⟩
    (some ⟨⟨16, 25, "GET( 'x')"⟩, some ⟨⟨21, 24, "'x'"⟩, "x", some '\''.toUInt8⟩⟩)

theorem value_source_reparses_sample :
    ∃ toks file, tokenize sliceText = .ok toks ∧ parse sliceText toks = .ok file ∧
      sliceValue ∈ file.values ∧
      ∃ toks' file', tokenize (inFormula "LENGTH(GET( 'x'))") = .ok toks' ∧
        parse (inFormula "LENGTH(GET( 'x'))") toks' = .ok file' ∧
        file'.formulas = [some (sliceValue.shift (-6))] := by
  have hok : ((compile false sliceText).outcome.map fun t =>
      t.file.map fun file => file.values[1]?) = .ok (some (some sliceValue)) := by cbv
  obtain ⟨t, ht, hfile⟩ := map_eq_ok_iff.mp hok
  obtain ⟨-, toks, file, htokens, hparse, hmake⟩ := compile_inBackticks.mp ht
  rw [← tokenize_inBackticks] at htokens
  obtain ⟨source, -, ht⟩ := bind_eq_ok_iff.mp hmake
  cases ht
  have hmem : sliceValue ∈ file.values := List.mem_of_getElem? (Option.some.inj hfile)
  obtain ⟨_, ⟨⟩, hsource⟩ := value_source_reparses htokens hparse sliceValue hmem
  exact ⟨toks, file, htokens, hparse, hmem, hsource⟩

end Backtick
