import Mathlib
import Backtick.Proofs.Shape

/-!
# Trees of the same form

Two trees are alike if they have the same form and the same contents, wherever
they stand and however their texts are quoted. Tokens that are alike make trees
that are alike, and such trees are evaluated alike: only the columns of their
faults differ, and as the columns of their calls do.
-/

namespace Backtick

open Parse

/-! ## Trees without places and marks -/

def Span.nowhere : Span :=
  ⟨0, 0, []⟩

/-- A literal without its place; all marks are the same. -/
def StringLiteral.plain (literal : StringLiteral) : StringLiteral :=
  ⟨.nowhere, literal.value, literal.mark.map fun _ => '"'.toUInt8⟩

def GetCall.plain (call : GetCall) : GetCall :=
  ⟨.nowhere, call.name.map StringLiteral.plain⟩

/-- An expression without its places; a number keeps the text it was written with. -/
def Expr.plain : Expr -> Expr
  | .string literal => .string literal.plain
  | .number span x => .number ⟨0, 0, span.source⟩ x
  | .boolean _ b => .boolean .nowhere b
  | .get call => .get call.plain
  | .length _ arg => .length .nowhere (arg.map GetCall.plain)
  | .choose _ test yes no => .choose .nowhere test.plain yes.plain no.plain
  | .compare _ left op right => .compare .nowhere left.plain op right.plain
  | .missing => .missing

def Segment.plain : Segment -> Segment
  | .text literal => .text literal.plain
  | .formula _ value => .formula .nowhere (value.map Expr.plain)
  | .missing => .missing

def SourceFile.plain (file : SourceFile) : SourceFile :=
  ⟨.nowhere, file.body.map fun body => ⟨.nowhere, body.segments.map Segment.plain⟩,
    file.eof.map fun _ => .nowhere⟩

/-! ## Likeness -/

variable {P : Int → Int → Prop}

inductive GetCall.Alike (P : Int → Int → Prop) : GetCall -> GetCall -> Prop
  | mk {span span' : Span} {name name' : StringLiteral} (hcolumn : P span.start span'.start)
      (hname : name.plain = name'.plain) : GetCall.Alike P ⟨span, some name⟩ ⟨span', some name'⟩

/-- Expressions of the same form whose calls stand at related columns. -/
inductive Expr.Alike (P : Int → Int → Prop) : Expr -> Expr -> Prop
  | string {literal literal' : StringLiteral} (h : literal.plain = literal'.plain) :
      Expr.Alike P (.string literal) (.string literal')
  | number {span span' : Span} (h : span.source = span'.source) (x : Binary64) :
      Expr.Alike P (.number span x) (.number span' x)
  | boolean (span span' : Span) (b : Bool) : Expr.Alike P (.boolean span b) (.boolean span' b)
  | get {call call' : GetCall} (h : call.Alike P call') : Expr.Alike P (.get call) (.get call')
  | length {span span' : Span} {call call' : GetCall} (hcolumn : P span.start span'.start)
      (h : call.Alike P call') :
      Expr.Alike P (.length span (some call)) (.length span' (some call'))
  | choose {test yes no test' yes' no' : Expr} (span span' : Span)
      (htest : Expr.Alike P test test') (hyes : Expr.Alike P yes yes')
      (hno : Expr.Alike P no no') :
      Expr.Alike P (.choose span test yes no) (.choose span' test' yes' no')
  | compare {left right left' right' : Expr} (span span' : Span) (op : Comparator)
      (hleft : Expr.Alike P left left') (hright : Expr.Alike P right right') :
      Expr.Alike P (.compare span left op right) (.compare span' left' op right')

inductive Segment.Alike (P : Int → Int → Prop) : Segment -> Segment -> Prop
  | text {literal literal' : StringLiteral} (h : literal.plain = literal'.plain) :
      Segment.Alike P (.text literal) (.text literal')
  | empty (span span' : Span) : Segment.Alike P (.formula span none) (.formula span' none)
  | formula {e e' : Expr} (span span' : Span) (h : e.Alike P e') :
      Segment.Alike P (.formula span (some e)) (.formula span' (some e'))

theorem GetCall.Alike.plain {call call' : GetCall} (h : call.Alike P call') :
    call.plain = call'.plain := by
  cases h with
  | mk _ hname => simp [GetCall.plain, hname]

theorem Expr.Alike.plain {e e' : Expr} (h : e.Alike P e') : e.plain = e'.plain := by
  induction h with
  | string h => rw [Expr.plain, Expr.plain, h]
  | number h x => rw [Expr.plain, Expr.plain, h]
  | boolean => rfl
  | get h => rw [Expr.plain, Expr.plain, h.plain]
  | length _ h => simp [Expr.plain, h.plain]
  | choose _ _ _ _ _ ihtest ihyes ihno => rw [Expr.plain, Expr.plain, ihtest, ihyes, ihno]
  | compare _ _ _ _ _ ihleft ihright => rw [Expr.plain, Expr.plain, ihleft, ihright]

theorem Segment.Alike.plain {segment segment' : Segment} (h : segment.Alike P segment') :
    segment.plain = segment'.plain := by
  cases h with
  | text h => rw [Segment.plain, Segment.plain, h]
  | empty => rfl
  | formula _ _ h => simp [Segment.plain, h.plain]

theorem plain_of_alike {segments segments' : List Segment}
    (h : List.Forall₂ (Segment.Alike P) segments segments') :
    segments.map Segment.plain = segments'.map Segment.plain := by
  induction h with
  | nil => rfl
  | cons hfirst _ ih => rw [List.map_cons, List.map_cons, hfirst.plain, ih]

/-! ## Names -/

theorem GetCall.names_plain (call : GetCall) : call.plain.names = call.names := by
  unfold GetCall.names GetCall.plain
  cases call.name <;> rfl

theorem Expr.names_plain (e : Expr) : e.plain.names = e.names := by
  induction e with
  | string | number | boolean | missing => rfl
  | get call => exact call.names_plain
  | length span arg =>
      cases arg with
      | none => rfl
      | some call => exact call.names_plain
  | choose span test yes no ihtest ihyes ihno =>
      rw [Expr.plain, Expr.names, Expr.names, ihtest, ihyes, ihno]
  | compare span left op right ihleft ihright =>
      rw [Expr.plain, Expr.names, Expr.names, ihleft, ihright]

theorem Segment.names_plain (segment : Segment) : segment.plain.names = segment.names := by
  cases segment with
  | text | missing => rfl
  | formula span value =>
      cases value with
      | none => rfl
      | some e => exact e.names_plain

theorem names_of_alike {segments segments' : List Segment}
    (h : List.Forall₂ (Segment.Alike P) segments segments') :
    segments.flatMap Segment.names = segments'.flatMap Segment.names := by
  have hplain := congrArg (List.flatMap Segment.names) (plain_of_alike h)
  simpa [List.flatMap_map, Segment.names_plain] using hplain

/-! ## Tokens -/

/-- Tokens that stand for the same leaf, at related columns of two templates. -/
structure Token.Like (template template' : Bytes) (P : Int → Int → Prop) (t t' : Token) :
    Prop where
  kind : t'.kind = t.kind
  column : P t.start t'.start
  string : t.kind = .string → (quoted template t).plain = (quoted template' t').plain
  number : t.kind = .number →
    t.lexeme = t'.lexeme ∧ (tokenSpan template t).source = (tokenSpan template' t').source

theorem exists_append_of_forall₂ {α β : Type} {R : α → β → Prop} {first second : List α}
    {all : List β} (h : List.Forall₂ R (first ++ second) all) :
    ∃ first' second', all = first' ++ second' ∧ List.Forall₂ R first first' ∧
      List.Forall₂ R second second' := by
  induction first generalizing all with
  | nil => exact ⟨[], all, rfl, .nil, h⟩
  | cons a first ih =>
      obtain ⟨b, all, hab, hall, rfl⟩ := List.forall₂_cons_left_iff.mp h
      obtain ⟨first', second', rfl, hfirst, hsecond⟩ := ih hall
      exact ⟨b :: first', second', rfl, .cons hab hfirst, hsecond⟩

theorem start_between (template : Bytes) (first last : Token) :
    (between template first last).start = first.start := by
  unfold between spanOf
  split <;> rfl

section Transport

variable {template template' : Bytes}

theorem GetCall.Derived.alike {toks toks' : List Token} {call : GetCall}
    (h : call.Derived template toks)
    (htoks : List.Forall₂ (Token.Like template template' P) toks toks') :
    ∃ call', call'.Derived template' toks' ∧ call.Alike P call' := by
  cases h with
  | mk hword hopening hname hclose =>
      obtain _ | ⟨hlike, _ | ⟨hlikeopen, _ | ⟨hlikename, _ | ⟨hlikeclose, _ | _⟩⟩⟩⟩ := htoks
      refine ⟨_, .mk (hlike.kind.trans hword) (hlikeopen.kind.trans hopening)
        (hlikename.kind.trans hname) (hlikeclose.kind.trans hclose), ?_⟩
      refine .mk ?_ (hlikename.string hname)
      rw [start_between, start_between]
      exact hlike.column

/-- Tokens that are alike make expressions that are alike. -/
theorem Expr.Derived.alike {place : Grammar.Place} {toks toks' : List Token} {e : Expr}
    (h : e.Derived template place toks)
    (htoks : List.Forall₂ (Token.Like template template' P) toks toks') :
    ∃ e', e'.Derived template' place toks' ∧ e.Alike P e' := by
  induction h generalizing toks' with
  | string h =>
      obtain _ | ⟨hlike, _ | _⟩ := htoks
      exact ⟨_, .string (hlike.kind.trans h), .string (hlike.string h)⟩
  | number h hread =>
      obtain _ | ⟨hlike, _ | _⟩ := htoks
      obtain ⟨hlexeme, hsource⟩ := hlike.number h
      exact ⟨_, .number (hlike.kind.trans h) (hlexeme ▸ hread), .number hsource _⟩
  | yes h =>
      obtain _ | ⟨hlike, _ | _⟩ := htoks
      exact ⟨_, .yes (hlike.kind.trans h), .boolean _ _ _⟩
  | no h =>
      obtain _ | ⟨hlike, _ | _⟩ := htoks
      exact ⟨_, .no (hlike.kind.trans h), .boolean _ _ _⟩
  | get h =>
      obtain ⟨call', hcall, halike⟩ := h.alike htoks
      exact ⟨_, .get hcall, .get halike⟩
  | length hword hopening h hclose =>
      obtain ⟨_, _, rfl, hfront, hlast⟩ := exists_append_of_forall₂ htoks
      obtain _ | ⟨hlike, _ | ⟨hlikeopen, hinner⟩⟩ := hfront
      obtain _ | ⟨hlikeclose, _ | _⟩ := hlast
      obtain ⟨call', hcall, halike⟩ := h.alike hinner
      refine ⟨_, .length (hlike.kind.trans hword) (hlikeopen.kind.trans hopening) hcall
        (hlikeclose.kind.trans hclose), .length ?_ halike⟩
      rw [start_between, start_between]
      exact hlike.column
  | choose hword hopening _ hcomma _ hcomma' _ hclose ihtest ihyes ihno =>
      obtain ⟨_, _, rfl, hfront, hlast⟩ := exists_append_of_forall₂ htoks
      obtain ⟨_, _, rfl, hfront, hthird⟩ := exists_append_of_forall₂ hfront
      obtain ⟨_, _, rfl, hfirst, hsecond⟩ := exists_append_of_forall₂ hfront
      obtain _ | ⟨hlike, _ | ⟨hlikeopen, htests⟩⟩ := hfirst
      obtain _ | ⟨hlikecomma, hyess⟩ := hsecond
      obtain _ | ⟨hlikecomma', hnos⟩ := hthird
      obtain _ | ⟨hlikeclose, _ | _⟩ := hlast
      obtain ⟨test', htest, haliketest⟩ := ihtest htests
      obtain ⟨yes', hyes, halikeyes⟩ := ihyes hyess
      obtain ⟨no', hno, halikeno⟩ := ihno hnos
      exact ⟨_, .choose (hlike.kind.trans hword) (hlikeopen.kind.trans hopening) htest
        (hlikecomma.kind.trans hcomma) hyes (hlikecomma'.kind.trans hcomma') hno
        (hlikeclose.kind.trans hclose), .choose _ _ haliketest halikeyes halikeno⟩
  | condition _ ih =>
      obtain ⟨e', he, halike⟩ := ih htoks
      exact ⟨e', .condition he, halike⟩
  | comparison _ hop _ ihleft ihright =>
      obtain ⟨lefts', _, rfl, hlefts, hrest⟩ := exists_append_of_forall₂ htoks
      obtain _ | ⟨hlike, hrights⟩ := hrest
      obtain ⟨left', hleft, halikeleft⟩ := ihleft hlefts
      obtain ⟨right', hright, halikeright⟩ := ihright hrights
      exact ⟨_, .comparison hleft (by rw [hlike.kind, hop]) hright,
        .compare _ _ _ halikeleft halikeright⟩

theorem ValueDerived.alike {toks toks' : List Token} {value : Option Expr}
    (h : ValueDerived template toks value)
    (htoks : List.Forall₂ (Token.Like template template' P) toks toks') :
    ∃ value', ValueDerived template' toks' value' ∧
      ∀ span span', Segment.Alike P (.formula span value) (.formula span' value') := by
  cases h with
  | none =>
      obtain rfl := List.forall₂_nil_left_iff.mp htoks
      exact ⟨_, .none, .empty⟩
  | some h =>
      obtain ⟨e', he, halike⟩ := h.alike htoks
      exact ⟨_, .some he, fun span span' => .formula span span' halike⟩

end Transport

/-! ## Evaluation -/

/-- The faults of the same call at related columns. -/
def SameCall (P : Int → Int → Prop) (f g : Fault) : Prop :=
  ∃ name cause column column', P column column' ∧ f = evaluationFault name column cause ∧
    g = evaluationFault name column' cause

theorem Traced.Related.mapFault {α : Type} {R : Fault → Fault → Prop} (x : Traced α)
    {f g : Fault → Fault} (h : ∀ fault, R (f fault) (g fault)) :
    Traced.Related R (x.mapFault f) (x.mapFault g) := by
  refine ⟨rfl, ?_⟩
  unfold Traced.mapFault
  cases x.outcome with
  | ok a => exact .ok a
  | error fault => exact .error (h fault)

theorem StringLiteral.value_of_plain {literal literal' : StringLiteral}
    (h : literal.plain = literal'.plain) : literal.value = literal'.value := by
  simpa [StringLiteral.plain] using congrArg StringLiteral.value h

theorem GetCall.Alike.related {call call' : GetCall} (h : call.Alike P call') (fn : Bindings) :
    Traced.Related (SameCall P) (call.evaluate fn) (call'.evaluate fn) := by
  cases h with
  | mk hcolumn hname =>
      unfold GetCall.evaluate
      dsimp only
      rw [StringLiteral.value_of_plain hname]
      exact .mapFault _ fun cause => ⟨_, cause, _, _, hcolumn, rfl, rfl⟩

theorem GetCall.Alike.nameValue {call call' : GetCall} (h : call.Alike P call') :
    call.nameValue = call'.nameValue := by
  cases h with
  | mk _ hname => exact StringLiteral.value_of_plain hname

theorem Expr.Alike.related {e e' : Expr} (h : e.Alike P e') (fn : Bindings) :
    Traced.Related (SameCall P) (e.evaluate fn) (e'.evaluate fn) := by
  induction h with
  | string h =>
      rw [Expr.evaluate, Expr.evaluate, StringLiteral.value_of_plain h]
      exact .pure _
  | number | boolean => exact .pure _
  | get h => exact h.related fn
  | length hcolumn h =>
      refine .bind (h.related fn) fun v => ?_
      rw [h.nameValue]
      exact .mapFault _ fun cause => ⟨_, cause, _, _, hcolumn, rfl, rfl⟩
  | choose _ _ _ _ _ ihtest ihyes ihno =>
      refine .bind ihtest fun c => ?_
      split
      · exact ihyes
      · exact ihno
  | compare _ _ _ _ _ ihleft ihright =>
      exact .bind ihleft fun l => .bind ihright fun r => .pure _

theorem Segment.Alike.related {segment segment' : Segment} (h : segment.Alike P segment')
    (fn : Bindings) :
    Traced.Related (SameCall P) (segment.evaluate fn) (segment'.evaluate fn) := by
  cases h with
  | text h =>
      rw [Segment.evaluate, Segment.evaluate, StringLiteral.value_of_plain h]
      exact .pure _
  | empty => exact .pure _
  | formula _ _ h => exact .bind (h.related fn) fun r => .pure _

/-- Segments that are alike render alike. -/
theorem related_of_alike {segments segments' : List Segment}
    (h : List.Forall₂ (Segment.Alike P) segments segments') (fn : Bindings) :
    Traced.Related (SameCall P) (renderSegments fn segments) (renderSegments fn segments') := by
  induction h with
  | nil => exact .pure _
  | cons hfirst _ ih => exact .bind (hfirst.related fn) fun v => .bind ih fun more => .pure _

/-! ## Tokens in their template -/

namespace Scan

theorem drop_of_append {template first rest : Bytes} {column : Nat}
    (h : template.drop column = first ++ rest) :
    template.drop (column + first.length) = rest := by
  rw [← List.drop_drop, h, List.drop_left]

/-- Where the inside of a formula and the text behind the formula stand. -/
theorem drop_of_formula {template run inner rest after : Bytes} {column : Nat}
    (h : template.drop column =
      run ++ '$'.toUInt8 :: '{'.toUInt8 :: (inner ++ '}'.toUInt8 :: rest) ++ after) :
    template.drop (column + run.length + 2) = inner ++ ('}'.toUInt8 :: rest ++ after) ∧
      template.drop (column + run.length + inner.length + 3) = rest ++ after := by
  have hopening : template.drop (column + run.length) =
      ['$'.toUInt8, '{'.toUInt8] ++ (inner ++ ('}'.toUInt8 :: rest ++ after)) :=
    drop_of_append (by rw [h]; simp)
  have hinner := drop_of_append hopening
  have hclosing : template.drop (column + run.length + 2 + inner.length) =
      ['}'.toUInt8] ++ (rest ++ after) := drop_of_append hinner
  have hcolumn : column + run.length + inner.length + 3 =
      column + run.length + 2 + inner.length + 1 := by omega
  exact ⟨hinner, by rw [hcolumn]; exact drop_of_append hclosing⟩

theorem source_tokenAt {template lexeme rest : Bytes} {column : Nat}
    (h : template.drop column = lexeme ++ rest) (kind : TokenKind) :
    (tokenSpan template (tokenAt column kind lexeme)).source = lexeme := by
  have hlength := congrArg List.length h
  rw [List.length_drop, List.length_append] at hlength
  unfold tokenSpan between spanOf tokenAt
  dsimp only
  split
  · rename_i hout
    simp only [Bool.or_eq_true, decide_eq_true_eq] at hout
    -- a place outside the template leaves room for no lexeme
    exact (List.eq_nil_of_length_eq_zero (by omega)).symm
  · have hspan : (((column + lexeme.length : Nat) : Int) - column).toNat = lexeme.length := by omega
    rw [hspan, Int.toNat_natCast, h, List.take_left]

/-- A token covers its lexeme in the template where it was scanned. -/
theorem source_of_mem_placed {template rest : Bytes} {column : Nat}
    {lexed : List (TokenKind × Bytes)}
    (h : template.drop column = lexed.flatMap Prod.snd ++ rest) {t : Token}
    (ht : t ∈ placed column lexed) : (tokenSpan template t).source = t.lexeme := by
  induction lexed generalizing column with
  | nil => cases ht
  | cons first lexed ih =>
      obtain ⟨kind, lexeme⟩ := first
      rw [List.flatMap_cons, List.append_assoc] at h
      rcases List.mem_cons.mp ht with rfl | ht
      · exact source_tokenAt h kind
      · exact ih (drop_of_append h) ht

theorem Takes.flatMap {inner rest : Bytes} {lexed : List (TokenKind × Bytes)}
    (h : Takes inner lexed rest) : lexed.flatMap Prod.snd = inner := by
  induction h with
  | nil => rfl
  | cons _ _ _ ih => rw [List.flatMap_cons, ih]

end Scan

end Backtick
