import Mathlib
import Backtick.Fault.Basic

/-!
# How faults are built

A fault is built from a kind in steps: a cause is set, attributes are added, a column is
set. The steps do not interfere with one another: the fault is of its kind throughout, the
last cause and the last column count, and the attributes add up in order. Its wording
and its column are those of the outermost link and of the cause, however deep the fault
itself is wrapped.
-/

namespace Backtick.Fault

/-! ## The parts of a fault -/

def cause? (f : Fault) : Option Fault :=
  match f.causes with
  | [] => none
  | head :: causes => some ⟨head, causes⟩

def ownAttrs (f : Fault) : List Log.Attr :=
  match f.head with
  | .raised _ _ attrs => attrs
  | .said _ => []

def ofParts (kind : FaultKind) (column : Int) (attrs : List Log.Attr) (cause : Option Fault) :
    Fault :=
  ⟨.raised kind column attrs, cause.elim [] links⟩

section Parts

variable (kind other : FaultKind) (column : Int) (attrs : List Log.Attr) (cause : Option Fault)

@[simp] theorem cause?_ofParts : (ofParts kind column attrs cause).cause? = cause := by
  cases cause <;> rfl

@[simp] theorem ownColumn_ofParts : (ofParts kind column attrs cause).ownColumn = column := rfl

@[simp] theorem ownAttrs_ofParts : (ofParts kind column attrs cause).ownAttrs = attrs := rfl

theorem kinds_ofParts :
    (ofParts kind column attrs cause).kinds = kind :: cause.elim [] Fault.kinds := by
  cases cause <;> rfl

theorem isA_ofParts : (ofParts kind column attrs cause).isA other =
    (decide (other = kind) || cause.any (·.isA other)) := by
  rw [isA, kinds_ofParts, List.contains_cons, beq_eq_decide]
  cases cause <;> rfl

theorem message_ofParts (hkind : kind.text ≠ []) : (ofParts kind column attrs cause).message =
    kind.text ++ cause.elim [] (fun c => (": " : Bytes) ++ c.message) ++
      (if 0 < column then " at column " ++ Bytes.ofInt column else []) := by
  have hown : kind.text.isEmpty = false := List.isEmpty_eq_false_iff.mpr hkind
  cases cause with
  | none => simp [message, ofParts, links, messageOf, hown, Bytes.join]
  | some c => simp [message, ofParts, links, messageOf, hown, Bytes.join]

theorem column_ofParts : (ofParts kind column attrs cause).column =
    if 0 < column then column else cause.elim 0 Fault.column := by
  cases cause <;> rfl

end Parts

theorem column_sayingOf (message : Bytes) (f : Fault) :
    (sayingOf message f).column = f.column := rfl

/-! ## Steps -/

inductive Step
  /-- Sets the cause, or takes it away. -/
  | wrap (cause : Option Fault)
  /-- Sets a message as the cause, which may have a cause of its own. -/
  | because (message : Bytes) (inner : Option Fault)
  | withAttrs (more : List Log.Attr)
  | withColumn (column : Int)

namespace Step

def apply (f : Fault) : Step -> Fault
  | .wrap cause => f.wrap cause
  | .because message none => f.because message
  | .because message (some inner) => f.wrap (some (sayingOf message inner))
  | .withAttrs more => f.withAttrs more
  | .withColumn column => f.withColumn column

/-- The cause that a step sets, if it sets one or takes it away. -/
def cause? : Step -> Option (Option Fault)
  | .wrap cause => some cause
  | .because message none => some (some (saying message))
  | .because message (some inner) => some (some (sayingOf message inner))
  | .withAttrs _ | .withColumn _ => none

def column? : Step -> Option Int
  | .withColumn column => some column
  | .wrap _ | .because _ _ | .withAttrs _ => none

def attrs : Step -> List Log.Attr
  | .withAttrs more => more
  | .wrap _ | .because _ _ | .withColumn _ => []

def lastCause (steps : List Step) : Option Fault :=
  (steps.filterMap cause?).getLast?.join

/-- The column that is set last, or 0. -/
def lastColumn (steps : List Step) : Int :=
  (steps.filterMap column?).getLast?.getD 0

def allAttrs (steps : List Step) : List Log.Attr :=
  steps.flatMap attrs

end Step

def built (kind : FaultKind) (steps : List Step) : Fault :=
  steps.foldl Step.apply (ofKind kind)

/-- One step changes the part that it is about, and no other. -/
theorem apply_ofParts (kind : FaultKind) (column : Int) (attrs : List Log.Attr)
    (cause : Option Fault) (step : Step) :
    step.apply (ofParts kind column attrs cause) =
      ofParts kind (step.column?.getD column) (attrs ++ step.attrs) (step.cause?.getD cause) := by
  cases step with
  | wrap cause =>
      simp only [Step.attrs, List.append_nil]
      rfl
  | because message inner =>
      simp only [Step.attrs, List.append_nil]
      cases inner <;> rfl
  | withAttrs more => rfl
  | withColumn column =>
      simp only [Step.attrs, List.append_nil]
      rfl

/-- The last of what the elements of a list give is given by the last one, if it gives any. -/
theorem getLast?_filterMap_concat {α β : Type} (p : α -> Option β) (xs : List α) (x : α) :
    ((xs ++ [x]).filterMap p).getLast? = (p x).or (xs.filterMap p).getLast? := by
  rw [List.filterMap_append, List.getLast?_append]
  cases hx : p x <;> simp [hx]

/-- Whatever the order of the steps, a fault has the parts that were set last. -/
theorem built_eq (kind : FaultKind) (steps : List Step) :
    built kind steps =
      ofParts kind (Step.lastColumn steps) (Step.allAttrs steps) (Step.lastCause steps) := by
  induction steps using List.reverseRecOn with
  | nil => rfl
  | append_singleton steps step ih =>
      have hcolumn : Step.lastColumn (steps ++ [step]) =
          step.column?.getD (Step.lastColumn steps) := by
        rw [Step.lastColumn, getLast?_filterMap_concat, Step.lastColumn]
        cases step.column? <;> rfl
      have hcause : Step.lastCause (steps ++ [step]) = step.cause?.getD (Step.lastCause steps) := by
        rw [Step.lastCause, getLast?_filterMap_concat, Step.lastCause]
        cases step.cause? <;> rfl
      have hattrs : Step.allAttrs (steps ++ [step]) = Step.allAttrs steps ++ step.attrs := by
        rw [Step.allAttrs, List.flatMap_append, List.flatMap_singleton, Step.allAttrs]
      rw [built, List.foldl_concat, ← built, ih, apply_ofParts, hcolumn, hcause, hattrs]

/-! ## Faults around a fault -/

/--
A fault that wraps another one in any number of layers: plain messages, and faults that are
built around it, with the columns of these, the outermost first.
-/
inductive Wraps (f : Fault) : List Int -> Fault -> Prop
  | itself : Wraps f [] f
  | said {columns : List Int} {g : Fault} (message : Bytes) (inner : Wraps f columns g) :
      Wraps f columns (sayingOf message g)
  | raised {columns : List Int} {g : Fault} (kind : FaultKind) (steps : List Step)
      (inner : Wraps f columns g) (cause : Step.lastCause steps = some g) :
      Wraps f (Step.lastColumn steps :: columns) (built kind steps)

/-- The column of a wrapped fault is the first positive one of a layer, if there is any. -/
theorem Wraps.column_eq {f g : Fault} {columns : List Int} (h : f.Wraps columns g) :
    g.column = (columns.find? (0 < ·)).getD f.column := by
  induction h with
  | itself => rfl
  | said message inner ih => rw [column_sayingOf, ih]
  | @raised columns g kind steps inner cause ih =>
      rw [built_eq, column_ofParts, cause, Option.elim_some, ih]
      by_cases hcolumn : 0 < Step.lastColumn steps
      · rw [if_pos hcolumn, List.find?_cons_of_pos (by simpa using hcolumn), Option.getD_some]
      · rw [if_neg hcolumn, List.find?_cons_of_neg (by simpa using hcolumn)]

/-- A wrapped fault is still of its kinds. -/
theorem Wraps.isA_of_isA {f g : Fault} {columns : List Int} (h : f.Wraps columns g)
    {kind : FaultKind} (hkind : f.isA kind = true) : g.isA kind = true := by
  induction h with
  | itself => exact hkind
  | said message inner ih => exact ih
  | raised kind steps inner cause ih =>
      rw [built_eq, isA_ofParts, cause, Option.any_some, ih, Bool.or_true]

/-! ## The law of the steps -/

def templateKinds : List FaultKind :=
  [.lexical, .grammar, .internal, .evaluation, .notSized, .expression]

theorem text_ne_nil {kind : FaultKind} (h : kind ∈ templateKinds) : kind.text ≠ [] := by
  revert kind
  decide

/--
In whatever order the steps are taken, a fault is of the kind it was built from and, that
apart, of the kinds of its cause. Its cause and its column are those set last, and it has all
attributes in order. It is worded by its kind, its cause and its column. Its column, if it is
not positive, is that of its cause, and counts behind those of the layers around the fault.
-/
theorem built_in_any_order (kind : FaultKind) (hkind : kind ∈ templateKinds)
    (steps : List Step) :
    let f := built kind steps
    let cause := Step.lastCause steps
    let column := Step.lastColumn steps
    (f.isA kind = true ∧ ∀ other, other ≠ kind → f.isA other = cause.any (·.isA other)) ∧
    (f.cause? = cause ∧ f.ownColumn = column ∧ f.ownAttrs = Step.allAttrs steps) ∧
    f.message = kind.text ++ cause.elim [] (fun c => (": " : Bytes) ++ c.message) ++
      (if 0 < column then " at column " ++ Bytes.ofInt column else []) ∧
    f.column = (if 0 < column then column else cause.elim 0 Fault.column) ∧
    ∀ columns g, f.Wraps columns g →
      g.isA kind = true ∧ g.column = (columns.find? (0 < ·)).getD f.column := by
  intro f cause column
  have hparts : f = ofParts kind column (Step.allAttrs steps) cause := built_eq kind steps
  have hkept : f.isA kind = true := by
    rw [hparts, isA_ofParts, decide_eq_true rfl, Bool.true_or]
  refine ⟨⟨hkept, ?_⟩, ⟨?_, ?_, ?_⟩, ?_, ?_, ?_⟩
  · intro other hother
    rw [hparts, isA_ofParts, decide_eq_false hother, Bool.false_or]
  · rw [hparts, cause?_ofParts]
  · rw [hparts, ownColumn_ofParts]
  · rw [hparts, ownAttrs_ofParts]
  · rw [hparts, message_ofParts _ _ _ _ (text_ne_nil hkind)]
  · rw [hparts, column_ofParts]
  · intro columns g hwraps
    exact ⟨hwraps.isA_of_isA hkept, hwraps.column_eq⟩

/-- Steps with two causes, of which the second has a column, and two columns. -/
def mixedSteps : List Step :=
  [.withColumn 3, .because "x" none, .withAttrs [("a", .int 1)],
    .wrap (some (built .notSized [.because "int" none, .withColumn 9])), .withColumn 0,
    .withAttrs [("b", .flag true)]]

/-- The column 3 is gone, and that of the cause counts. -/
theorem built_in_any_order_sample :
    FaultKind.evaluation ∈ templateKinds ∧
    let f := built .evaluation mixedSteps
    (f.isA .evaluation = true ∧ f.isA .notSized = true ∧ f.isA .grammar = false) ∧
    (f.ownColumn = 0 ∧ f.ownAttrs = [(↑"a", Log.Datum.int 1), (↑"b", Log.Datum.flag true)]) ∧
    f.message = "evaluation failed: value has no length: int at column 9" ∧
    (sayingOf "render" f).column = 9 := by
  obtain ⟨⟨hkind, hothers⟩, ⟨-, hown, hattrs⟩, hmessage, hcolumn, hwraps⟩ :=
    built_in_any_order .evaluation (by decide) mixedSteps
  refine ⟨by decide, ⟨hkind, ?_, ?_⟩, ⟨hown, hattrs⟩, ?_, ?_⟩
  · exact (hothers .notSized (by decide)).trans (by decide)
  · exact (hothers .grammar (by decide)).trans (by decide)
  · exact hmessage.trans (by decide +kernel)
  · have hsaid := (hwraps [] _ (.said "render" .itself)).2
    exact hsaid.trans (hcolumn.trans (by decide))

end Backtick.Fault
