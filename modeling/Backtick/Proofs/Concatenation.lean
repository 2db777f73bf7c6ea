import Mathlib
import Backtick.Proofs.Likeness

/-!
# Templates one behind the other

If two texts compile, the text made of both compiles too, unless a formula opens
where they meet. Its segments are those of the two texts, but that a text run at
the end of the first and one at the start of the second are one run. So it
renders as the first does and then as the second does, with the columns of the
second moved by the length of the first.
-/

namespace Backtick

open Scan Parse

/-! ## The same text at another column -/

/-- A column of a template, and the same place after a text was put in front. -/
def Moved (offset : Nat) (column column' : Int) : Prop :=
  0 < column ∧ column' = column + offset

theorem plain_quoted_of_lexeme {template template' : Bytes} {t t' : Token}
    (h : t.lexeme = t'.lexeme) : (quoted template t).plain = (quoted template' t').plain := by
  unfold quoted
  rw [h]
  cases t'.lexeme <;> rfl

/-- The same lexemes placed at another column. -/
theorem like_moved {template template' rest rest' : Bytes} {lexed : List (TokenKind × Bytes)}
    {column offset : Nat} (hcolumn : 0 < column)
    (hplace : template.drop column = lexed.flatMap Prod.snd ++ rest)
    (hplace' : template'.drop (column + offset) = lexed.flatMap Prod.snd ++ rest') :
    List.Forall₂ (Token.Like template template' (Moved offset))
      (significant (placed column lexed)) (significant (placed (column + offset) lexed)) := by
  induction lexed generalizing column with
  | nil => exact .nil
  | cons word lexed ih =>
      obtain ⟨kind, lexeme⟩ := word
      rw [List.flatMap_cons, List.append_assoc] at hplace hplace'
      have hnext : column + offset + lexeme.length = column + lexeme.length + offset := by omega
      have hmore := ih (by omega) (drop_of_append hplace) (hnext ▸ drop_of_append hplace')
      rw [placed, placed, hnext]
      by_cases hblank : kind = .whitespace
      · subst hblank
        rw [significant_blank, significant_blank]
        exact hmore
      · rw [significant_tokenAt hblank, significant_tokenAt hblank]
        refine .cons ⟨rfl, ?_, fun _ => plain_quoted_of_lexeme rfl, fun _ => ⟨rfl, ?_⟩⟩ hmore
        · exact ⟨Int.natCast_pos.mpr hcolumn, Int.natCast_add column offset⟩
        · rw [source_tokenAt hplace, source_tokenAt hplace']

/-- A text keeps its shape at another column of another template. -/
theorem Shape.moved {template template' after after' body : Bytes} {column : Nat}
    {segments : List Segment} (h : Shape template column body segments) (offset : Nat)
    (hcolumn : 0 < column)
    (hplace : template.drop column = body ++ after)
    (hplace' : template'.drop (column + offset) = body ++ after') :
    ∃ segments', Shape template' (column + offset) body segments' ∧
      List.Forall₂ (Segment.Alike (Moved offset)) segments segments' := by
  induction h with
  | nil => exact ⟨[], .nil _, .nil⟩
  | text hne hrun => exact ⟨_, .text hne hrun, .cons (.text rfl) .nil⟩
  | @formula column run inner rest lexed value segments hrun hinner hvalue _ ih =>
      obtain ⟨hinside, hbehind⟩ := drop_of_formula hplace
      obtain ⟨hinside', hbehind'⟩ := drop_of_formula hplace'
      have hstart : column + offset + run.length + 2 = column + run.length + 2 + offset := by omega
      have hstop : column + offset + run.length + inner.length + 3 =
          column + run.length + inner.length + 3 + offset := by omega
      rw [hstart] at hinside'
      rw [hstop] at hbehind'
      obtain ⟨segments', hshape, halike⟩ := ih (by omega) hbehind hbehind'
      rw [← hinner.flatMap] at hinside hinside'
      have hlike := like_moved (by omega) hinside hinside'
      obtain ⟨value', hvalue', hformula⟩ := hvalue.alike hlike
      rw [← hstart] at hvalue'
      rw [← hstop] at hshape
      exact ⟨_, .formula hrun hinner hvalue' hshape,
        .cons (.text rfl) (.cons (hformula _ _) halike)⟩

/-! ## Segments put together -/

/-- Segments that ask for what two lists of segments ask for, and render what both render. -/
structure Joined (first second all : List Segment) : Prop where
  names : all.flatMap Segment.names = first.flatMap Segment.names ++ second.flatMap Segment.names
  render : ∀ fn, renderSegments fn all = (do
    let out <- renderSegments fn first
    let more <- renderSegments fn second
    return out ++ more)

theorem Joined.nil (segments : List Segment) : Joined [] segments segments where
  names := rfl
  render fn := by
    rw [renderSegments, Traced.pure_bind]
    simp only [List.nil_append, Traced.bind_pure]

theorem Joined.cons {first second all : List Segment} (h : Joined first second all)
    (segment : Segment) : Joined (segment :: first) second (segment :: all) where
  names := by rw [List.flatMap_cons, List.flatMap_cons, h.names, List.append_assoc]
  render fn := by
    simp only [renderSegments, h.render, Traced.bind_assoc, Traced.pure_bind, List.append_assoc]

/-- Nothing behind a list of segments. -/
theorem Joined.end (segments : List Segment) : Joined segments [] segments := by
  induction segments with
  | nil => exact .nil []
  | cons segment rest ih => exact ih.cons segment

/-- Two text runs that meet become one. -/
theorem Joined.text (template : Bytes) (column : Nat) (run run' : Bytes) (rest : List Segment) :
    Joined [textAt template column run] (textAt template (column + run.length) run' :: rest)
      (textAt template column (run ++ run') :: rest) where
  names := rfl
  render fn := by
    simp only [renderSegments, textAt, Segment.evaluate, Traced.bind_assoc, Traced.pure_bind,
      Value.text, List.append_nil, List.append_assoc]

/-- The first text ends in a dollar sign and the second begins with a brace. -/
def OpensBetween (first second : Bytes) : Prop :=
  first.getLast? = some '$'.toUInt8 ∧ second.head? = some '{'.toUInt8

theorem not_opensBetween_of_append {first last second : Bytes}
    (h : ¬OpensBetween (first ++ last) second) : ¬OpensBetween last second := by
  rintro ⟨hlast, hhead⟩
  exact h ⟨by rw [List.getLast?_append, hlast]; rfl, hhead⟩

theorem head?_of_append {run rest : Bytes} {b : UInt8} (h : run.head? = some b) :
    (run ++ rest).head? = some b := by
  rw [List.head?_append, h]
  rfl

/-- A text run and a shape behind it. -/
theorem Shape.behind_text {template run body : Bytes} {column : Nat} {segments : List Segment}
    (hne : run ≠ []) (hrun : NoOpening run)
    (h : Shape template (column + run.length) body segments) (hmeet : ¬OpensBetween run body) :
    ∃ all, Shape template column (run ++ body) all ∧
      Joined [textAt template column run] segments all := by
  generalize hplace : column + run.length = place at h
  cases h with
  | nil =>
      rw [List.append_nil]
      exact ⟨_, .text hne hrun, .end _⟩
  | text _ hrun' =>
      subst hplace
      have hboth := noOpening_append_iff.mpr ⟨hrun, hrun', hmeet⟩
      exact ⟨_, .text (by simp [hne]) hboth, .text template column run body []⟩
  | @formula _ run' inner rest lexed value segments hrun' hinner hvalue hrest =>
      subst hplace
      have hboth : NoOpening (run ++ run') := by
        refine noOpening_append_iff.mpr ⟨hrun, hrun', ?_⟩
        rintro ⟨hlast, hhead⟩
        exact hmeet ⟨hlast, head?_of_append hhead⟩
      have hlength : column + (run ++ run').length = column + run.length + run'.length := by
        rw [List.length_append, Nat.add_assoc]
      rw [← hlength] at hvalue hrest
      have hall := Shape.formula hboth hinner hvalue hrest
      rw [hlength, List.append_assoc] at hall
      exact ⟨_, hall, .text template column run run' _⟩

/-- Two shapes one behind the other make a shape. -/
theorem Shape.append {template first second : Bytes} {column : Nat}
    {segments segments' : List Segment} (h : Shape template column first segments)
    (h' : Shape template (column + first.length) second segments')
    (hmeet : ¬OpensBetween first second) :
    ∃ all, Shape template column (first ++ second) all ∧ Joined segments segments' all := by
  induction h with
  | nil column => exact ⟨segments', h', .nil segments'⟩
  | text hne hrun => exact Shape.behind_text hne hrun h' hmeet
  | @formula column run inner rest lexed value segments hrun hinner hvalue hrest ih =>
      have hplace : column + (run ++ '$'.toUInt8 :: '{'.toUInt8 ::
            (inner ++ '}'.toUInt8 :: rest)).length =
          column + run.length + inner.length + 3 + rest.length := by
        simp only [List.length_append, List.length_cons]
        omega
      have htext : run ++ '$'.toUInt8 :: '{'.toUInt8 :: (inner ++ '}'.toUInt8 :: rest) =
          (run ++ '$'.toUInt8 :: '{'.toUInt8 :: (inner ++ ['}'.toUInt8])) ++ rest := by
        simp
      rw [htext] at hmeet
      obtain ⟨all, hshape, hjoined⟩ := ih (hplace ▸ h') (not_opensBetween_of_append hmeet)
      have hall := Shape.formula hrun (hinner.congr_tail (rest ++ second)) hvalue hshape
      refine ⟨_, ?_, (hjoined.cons _).cons _⟩
      simpa using hall

/-! ## Rendering -/

def Fault.moved (offset : Nat) (f : Fault) : Fault :=
  f.withColumn (f.column + offset)

theorem column_evaluationFault {column : Int} (h : 0 < column) (name : Bytes) (cause : Fault) :
    (evaluationFault name column cause).column = column :=
  if_pos h

theorem SameCall.eq_moved {offset : Nat} {f g : Fault} (h : SameCall (Moved offset) f g) :
    g = f.moved offset ∧ 0 < f.column ∧ (f.moved offset).column = f.column + offset := by
  obtain ⟨name, cause, column, _, ⟨hpos, rfl⟩, rfl, rfl⟩ := h
  have hmoved : (evaluationFault name column cause).moved offset =
      evaluationFault name (column + offset) cause := by
    rw [Fault.moved, column_evaluationFault hpos]
    rfl
  have hpos' : 0 < column + offset := by omega
  rw [hmoved, column_evaluationFault hpos, column_evaluationFault hpos']
  exact ⟨rfl, hpos, rfl⟩

theorem SameCall.eq_of_zero {f g : Fault} (h : SameCall (Moved 0) f g) : g = f := by
  obtain ⟨name, cause, column, _, ⟨hpos, rfl⟩, rfl, rfl⟩ := h
  rw [Nat.cast_zero, Int.add_zero]

theorem Traced.SameOutcome.of_moved {α : Type} {offset : Nat} {x y : Except Fault α}
    (h : SameOutcome (SameCall (Moved offset)) x y) : y = x.mapError (Fault.moved offset) := by
  cases h with
  | ok a => rfl
  | error h => exact congrArg Except.error h.eq_moved.1

theorem Traced.SameOutcome.column_moved {α : Type} {offset : Nat} {fault : Fault}
    {y : Except Fault α} (h : SameOutcome (SameCall (Moved offset)) (.error fault) y) :
    0 < fault.column ∧ (fault.moved offset).column = fault.column + offset := by
  cases h with
  | error h => exact h.eq_moved.2

theorem Traced.SameOutcome.of_same_place {α : Type} {x y : Except Fault α}
    (h : SameOutcome (SameCall (Moved 0)) x y) : y = x := by
  cases h with
  | ok a => rfl
  | error h => exact congrArg Except.error h.eq_of_zero

/-- What two renderings one behind the other end with. -/
def joinedOutcome (first second : Except Fault Bytes) : Except Fault Bytes :=
  match first, second with
  | .ok out, .ok more => .ok (out ++ more)
  | .error fault, _ => .error fault
  | .ok _, .error fault => .error fault

theorem outcome_of_joined {first second all : List Segment} (h : Joined first second all)
    (fn : Bindings) :
    (renderSegments fn all).outcome =
      joinedOutcome (renderSegments fn first).outcome (renderSegments fn second).outcome := by
  rw [h.render]
  cases hfirst : (renderSegments fn first).outcome with
  | error fault =>
      rw [Traced.bind_of_error hfirst]
      rfl
  | ok out =>
      rw [Traced.bind_of_ok hfirst]
      cases hsecond : (renderSegments fn second).outcome with
      | error fault =>
          rw [Traced.bind_of_error hsecond]
          rfl
      | ok more =>
          rw [Traced.bind_of_ok hsecond]
          rfl

/-- The two texts within their concatenation. -/
theorem drop_inBackticks_append (first second : Bytes) :
    (inBackticks (first ++ second)).drop 1 = first ++ (second ++ ['`'.toUInt8]) ∧
      (inBackticks (first ++ second)).drop (1 + first.length) = second ++ ['`'.toUInt8] := by
  have hfirst : (inBackticks (first ++ second)).drop 1 = first ++ (second ++ ['`'.toUInt8]) := by
    rw [drop_inBackticks, List.append_assoc]
  exact ⟨hfirst, drop_of_append hfirst⟩

/--
Two texts that compile do so one behind the other, if no formula opens where
they meet. The whole asks for the names of the first and then of the second. It
renders what both render. It fails as the first does, or else as the second does,
with the column moved by the length of the first.
-/
theorem compile_append {first second : Bytes} {t t' : Template}
    (h : (compile false (inBackticks first)).outcome = .ok t)
    (h' : (compile false (inBackticks second)).outcome = .ok t')
    (hmeet : ¬(first.getLast? = some '$'.toUInt8 ∧ second.head? = some '{'.toUInt8)) :
    ∃ all, (compile false (inBackticks (first ++ second))).outcome = .ok all ∧
      all.names = t.names ++ t'.names ∧
      ∀ fn,
        (all.render fn).outcome = joinedOutcome (t.render fn).outcome
          ((t'.render fn).outcome.mapError (Fault.moved first.length)) ∧
        ∀ fault, (t'.render fn).outcome = .error fault →
          0 < fault.column ∧ (fault.moved first.length).column = fault.column + first.length := by
  obtain ⟨-, file, hfile⟩ := compiled_of_ok h
  obtain ⟨-, file', hfile'⟩ := compiled_of_ok h'
  obtain ⟨hplace, hplace'⟩ := drop_inBackticks_append first second
  obtain ⟨segments, hshape, halike⟩ :=
    hfile.shape.moved 0 Nat.one_pos (drop_inBackticks first) hplace
  obtain ⟨segments', hshape', halike'⟩ :=
    hfile'.shape.moved first.length Nat.one_pos (drop_inBackticks second) hplace'
  obtain ⟨joined, hjoined, hparts⟩ := hshape.append hshape' hmeet
  obtain ⟨all, tree, hcompile, hall, rfl⟩ := hjoined.compile
  refine ⟨all, hcompile, ?_, fun fn => ?_⟩
  · rw [hall.names, hfile.names, hfile'.names, SourceFile.names, hparts.names,
      ← names_of_alike halike, ← names_of_alike halike']
    rfl
  · have hfirst := (related_of_alike halike fn).outcome
    have hsecond := (related_of_alike halike' fn).outcome
    rw [hall.render, hfile.render, hfile'.render, outcome_of_joined hparts, hfirst.of_same_place,
      hsecond.of_moved]
    exact ⟨rfl, fun fault hfault => (hfault ▸ hsecond).column_moved⟩

/-- Text in front of a formula whose call fails: the fault moves by four columns. -/
theorem compile_append_sample :
    ∃ t t' all : Template, (compile false (inBackticks "cost")).outcome = .ok t ∧
      (compile false (inBackticks "$\x7bGET('x')\x7d")).outcome = .ok t' ∧
      (compile false (inBackticks "cost$\x7bGET('x')\x7d")).outcome = .ok all ∧
      all.names = t.names ++ t'.names ∧
      ∀ fn, (all.render fn).outcome = joinedOutcome (t.render fn).outcome
        ((t'.render fn).outcome.mapError (Fault.moved 4)) := by
  have hfirst : (compile false (inBackticks "cost")).outcome.isOk = true := by cbv
  have hsecond : (compile false (inBackticks "$\x7bGET('x')\x7d")).outcome.isOk = true := by cbv
  obtain ⟨t, ht⟩ := exists_ok hfirst
  obtain ⟨t', ht'⟩ := exists_ok hsecond
  obtain ⟨all, hall, hnames, hrender⟩ := compile_append ht ht' (by decide +kernel)
  exact ⟨t, t', all, ht, ht', hall, hnames, fun fn => (hrender fn).1⟩

end Backtick
