import Backtick.Proofs.Outcome
import Backtick.Template.Compile

/-!
# Trees that make a template

A tree built by hand may lack children or hold an operator that is none. The check
that makes a tree a template accepts exactly the trees whose nodes are all well
formed, and the rendering of an accepted tree fails only where the bindings do.
-/

namespace Backtick

inductive TreeNode
  | segment (segment : Segment)
  | expr (e : Expr)
  | get (call : GetCall)

def Expr.present : Expr → List TreeNode
  | .missing => []
  | e => [.expr e]

namespace TreeNode

def children : TreeNode → List TreeNode
  | .segment (.formula _ (some e)) => e.present
  | .expr (.get call) => [.get call]
  | .expr (.length _ (some call)) => [.get call]
  | .expr (.choose _ test yes no) => test.present ++ yes.present ++ no.present
  | .expr (.compare _ left _ right) => left.present ++ right.present
  | _ => []

/-- Whether a node has the children it needs and, if it compares, an operator. -/
def WellFormed : TreeNode → Prop
  | .segment .missing => False
  | .segment (.formula _ value) => value ≠ some .missing
  | .expr (.length _ arg) => arg ≠ none
  | .expr (.choose _ test yes no) => test ≠ .missing ∧ yes ≠ .missing ∧ no ≠ .missing
  | .expr (.compare _ left op right) => left ≠ .missing ∧ right ≠ .missing ∧ op ∈ Comparator.all
  | .get call => call.name ≠ none
  | _ => True

def Reaches : TreeNode → TreeNode → Prop :=
  Relation.ReflTransGen fun node child => child ∈ node.children

def Sound (node : TreeNode) : Prop :=
  ∀ below, node.Reaches below → below.WellFormed

theorem sound_iff {node : TreeNode} :
    node.Sound ↔ node.WellFormed ∧ ∀ child ∈ node.children, child.Sound := by
  constructor
  · intro h
    exact ⟨h node .refl, fun child hchild below hbelow => h below (.head hchild hbelow)⟩
  · rintro ⟨hnode, hchildren⟩ below hbelow
    rcases Relation.ReflTransGen.cases_head hbelow with rfl | ⟨child, hchild, hbelow⟩
    · exact hnode
    · exact hchildren child hchild below hbelow

end TreeNode

def SourceFile.Reaches (tree : SourceFile) (node : TreeNode) : Prop :=
  ∃ segment ∈ tree.segments, (TreeNode.segment segment).Reaches node

def Expr.Whole (e : Expr) : Prop :=
  e ≠ .missing ∧ (TreeNode.expr e).Sound

theorem Expr.forall_mem_present {e : Expr} {p : TreeNode → Prop} :
    (∀ node ∈ e.present, p node) ↔ (e ≠ .missing → p (.expr e)) := by
  cases e <;> simp [Expr.present]

namespace TreeNode

theorem sound_of_leaf {node : TreeNode} (hnode : node.WellFormed) (hchildren : node.children = []) :
    node.Sound := by
  rw [sound_iff, hchildren]
  exact ⟨hnode, List.forall_mem_nil _⟩

theorem sound_get {call : GetCall} : (TreeNode.get call).Sound ↔ call.name ≠ none := by
  rw [sound_iff]
  simp [WellFormed, children]

theorem sound_expr_get {call : GetCall} :
    (TreeNode.expr (.get call)).Sound ↔ (TreeNode.get call).Sound := by
  rw [sound_iff]
  simp [WellFormed, children]

theorem sound_length {span : Span} {arg : Option GetCall} :
    (TreeNode.expr (.length span arg)).Sound ↔
      ∃ call, arg = some call ∧ (TreeNode.get call).Sound := by
  rw [sound_iff]
  cases arg <;> simp [WellFormed, children]

theorem sound_choose {span : Span} {test yes no : Expr} :
    (TreeNode.expr (.choose span test yes no)).Sound ↔ test.Whole ∧ yes.Whole ∧ no.Whole := by
  rw [sound_iff]
  simp only [WellFormed, children, List.forall_mem_append, Expr.forall_mem_present, Expr.Whole]
  tauto

theorem sound_compare {span : Span} {left right : Expr} {op : Comparator} :
    (TreeNode.expr (.compare span left op right)).Sound ↔
      left.Whole ∧ right.Whole ∧ op ∈ Comparator.all := by
  rw [sound_iff]
  simp only [WellFormed, children, List.forall_mem_append, Expr.forall_mem_present, Expr.Whole]
  tauto

theorem sound_formula {span : Span} {e : Expr} :
    (TreeNode.segment (.formula span (some e))).Sound ↔ e.Whole := by
  rw [sound_iff]
  simp only [WellFormed, children, Expr.forall_mem_present, Expr.Whole, ne_eq, Option.some.injEq]
  tauto

end TreeNode

/-! ## The check accepts the sound trees -/

theorem Comparator.mem_all_iff {op : Comparator} :
    op ∈ Comparator.all ↔ ∃ name, op.function? = some name := by
  cases op <;> simp [Comparator.all, Comparator.function?]

theorem GetCall.emits_iff {call : GetCall} :
    (∃ text, call.emit = .ok text) ↔ (TreeNode.get call).Sound := by
  obtain ⟨span, name⟩ := call
  rw [TreeNode.sound_get]
  cases name <;> simp [GetCall.emit]

theorem Expr.emits_iff {e : Expr} : (∃ text, e.emit = .ok text) ↔ e.Whole := by
  induction e with
  | string literal | number span x | boolean span b =>
      exact ⟨fun _ => ⟨nofun, TreeNode.sound_of_leaf trivial rfl⟩, fun _ => ⟨_, rfl⟩⟩
  | get call =>
      rw [Expr.Whole, TreeNode.sound_expr_get, ← GetCall.emits_iff]
      simp [Expr.emit]
  | length span arg =>
      rw [Expr.Whole, TreeNode.sound_length]
      cases arg with
      | none => simp [Expr.emit]
      | some call => simp [Expr.emit, exists_bind_eq_ok, ← GetCall.emits_iff, pure, Except.pure]
  | choose span test yes no ihtest ihyes ihno =>
      rw [Expr.Whole, TreeNode.sound_choose, ← ihtest, ← ihyes, ← ihno]
      simp [Expr.emit, exists_bind_eq_ok, pure, Except.pure]
  | compare span left op right ihleft ihright =>
      rw [Expr.Whole, TreeNode.sound_compare, ← ihleft, ← ihright, Comparator.mem_all_iff]
      cases hop : op.function? <;> simp [Expr.emit, exists_bind_eq_ok, hop, pure, Except.pure]
  | missing => simp [Expr.emit, Expr.Whole]

theorem Segment.emits_iff {segment : Segment} :
    (∃ text, segment.emit = .ok text) ↔ (TreeNode.segment segment).Sound := by
  cases segment with
  | text literal => exact ⟨fun _ => TreeNode.sound_of_leaf trivial rfl, fun _ => ⟨_, rfl⟩⟩
  | formula span value =>
      cases value with
      | none => exact ⟨fun _ => TreeNode.sound_of_leaf nofun rfl, fun _ => ⟨_, rfl⟩⟩
      | some e => exact Expr.emits_iff.trans TreeNode.sound_formula.symm
  | missing =>
      rw [TreeNode.sound_iff]
      simp [Segment.emit, TreeNode.WellFormed]

theorem emitSegments_isOk_iff {segments : List Segment} :
    (∃ parts, emitSegments segments = .ok parts) ↔
      ∀ segment ∈ segments, (TreeNode.segment segment).Sound := by
  induction segments with
  | nil => exact ⟨fun _ => List.forall_mem_nil _, fun _ => ⟨[], rfl⟩⟩
  | cons segment rest ih =>
      rw [List.forall_mem_cons, ← ih, ← Segment.emits_iff]
      simp [emitSegments, exists_bind_eq_ok, pure, Except.pure]

/-- A tree is sound if all that its segments reach is well formed. -/
theorem SourceFile.sound_iff {tree : SourceFile} :
    (∀ segment ∈ tree.segments, (TreeNode.segment segment).Sound) ↔
      ∀ node, tree.Reaches node → node.WellFormed := by
  constructor
  · rintro h node ⟨segment, hsegment, hnode⟩
    exact h segment hsegment node hnode
  · intro h segment hsegment node hnode
    exact h node ⟨segment, hsegment, hnode⟩

theorem SourceFile.emits_iff {tree : SourceFile} :
    (∃ source, tree.emit = .ok source) ↔ ∀ node, tree.Reaches node → node.WellFormed := by
  rw [← SourceFile.sound_iff, ← emitSegments_isOk_iff, SourceFile.emit]
  split
  · rename_i hempty
    rw [List.isEmpty_iff.mp hempty]
    exact ⟨fun _ => ⟨[], rfl⟩, fun _ => ⟨_, rfl⟩⟩
  · simp [exists_bind_eq_ok, pure, Except.pure]

/-! ## A sound tree fails only with the bindings -/

def Bindings.Refuses (fn : Bindings) (cause : Fault) : Call → Prop
  | .get name => fn.get name = .error cause
  | .length v => fn.length v = .error cause

/-- A fault that wraps the one with which the bindings answered the last call. -/
def Bindings.Blamed (fn : Bindings) (calls : List Call) (fault : Fault) : Prop :=
  ∃ name column cause call, fault = evaluationFault name column cause ∧
    calls.getLast? = some call ∧ fn.Refuses cause call

theorem not_blamed_cannotEvaluate {fn : Bindings} {calls : List Call} :
    ¬ fn.Blamed calls cannotEvaluate := by
  rintro ⟨name, column, cause, call, hfault, -⟩
  cases congrArg Fault.head hfault

/-- A computation that fails only where the bindings do. -/
def Traced.Safe {α : Type} (fn : Bindings) (x : Traced α) : Prop :=
  ∀ fault, x.outcome = .error fault → fn.Blamed x.calls fault

namespace Traced.Safe

variable {α β : Type} {fn : Bindings}

theorem pure (a : α) : Safe fn (Pure.pure a : Traced α) := by
  rintro _ ⟨⟩

theorem bind {x : Traced α} {f : α → Traced β} (hx : Safe fn x) (hf : ∀ a, Safe fn (f a)) :
    Safe fn (x >>= f) := by
  intro fault hfault
  cases houtcome : x.outcome with
  | error cause =>
      rw [bind_of_error houtcome] at hfault ⊢
      cases hfault
      exact hx _ houtcome
  | ok a =>
      rw [bind_of_ok houtcome] at hfault ⊢
      obtain ⟨name, column, cause, call, hshape, hlast, hrefuses⟩ := hf a fault hfault
      refine ⟨name, column, cause, call, hshape, ?_, hrefuses⟩
      rw [List.getLast?_append, hlast, Option.some_or]

theorem askGet (name variable_ : Bytes) (column : Int) :
    Safe fn ((fn.askGet name).mapFault (evaluationFault variable_ column)) := by
  intro fault hfault
  cases hget : fn.get name with
  | ok v => simp [mapFault, Bindings.askGet, hget, Except.map, Except.mapError] at hfault
  | error cause =>
      simp only [mapFault, Bindings.askGet, hget, Except.map, Except.mapError] at hfault
      cases hfault
      exact ⟨variable_, column, cause, .get name, rfl, rfl, hget⟩

theorem askLength (v : Value) (variable_ : Bytes) (column : Int) :
    Safe fn ((fn.askLength v).mapFault (evaluationFault variable_ column)) := by
  intro fault hfault
  cases hlength : fn.length v with
  | ok n => simp [mapFault, Bindings.askLength, hlength, Except.map, Except.mapError] at hfault
  | error cause =>
      simp only [mapFault, Bindings.askLength, hlength, Except.map, Except.mapError] at hfault
      cases hfault
      exact ⟨variable_, column, cause, .length v, rfl, rfl, hlength⟩

end Traced.Safe

section

open Traced

variable (fn : Bindings)

theorem GetCall.safe {call : GetCall} (h : (TreeNode.get call).Sound) :
    Safe fn (call.evaluate fn) := by
  obtain ⟨span, name⟩ := call
  cases name with
  | none => exact absurd rfl (TreeNode.sound_get.mp h)
  | some name => exact .askGet _ _ _

theorem Expr.safe {e : Expr} (h : e.Whole) : Safe fn (e.evaluate fn) := by
  induction e with
  | string literal | number span x | boolean span b => exact .pure _
  | get call => exact call.safe fn (TreeNode.sound_expr_get.mp h.2)
  | length span arg =>
      obtain ⟨call, rfl, hcall⟩ := TreeNode.sound_length.mp h.2
      exact (call.safe fn hcall).bind fun v => .askLength _ _ _
  | choose span test yes no ihtest ihyes ihno =>
      obtain ⟨htest, hyes, hno⟩ := TreeNode.sound_choose.mp h.2
      refine (ihtest htest).bind fun c => ?_
      split
      · exact ihyes hyes
      · exact ihno hno
  | compare span left op right ihleft ihright =>
      obtain ⟨hleft, hright, -⟩ := TreeNode.sound_compare.mp h.2
      exact (ihleft hleft).bind fun l => (ihright hright).bind fun r => .pure _
  | missing => exact absurd rfl h.1

theorem Segment.safe {segment : Segment} (h : (TreeNode.segment segment).Sound) :
    Safe fn (segment.evaluate fn) := by
  cases segment with
  | text literal => exact .pure _
  | formula span value =>
      cases value with
      | none => exact .pure _
      | some e => exact (e.safe fn (TreeNode.sound_formula.mp h)).bind fun r => .pure _
  | missing => exact (TreeNode.sound_iff.mp h).1.elim

theorem safe_renderSegments {segments : List Segment}
    (h : ∀ segment ∈ segments, (TreeNode.segment segment).Sound) :
    Safe fn (renderSegments fn segments) := by
  induction segments with
  | nil => exact .pure _
  | cons segment rest ih =>
      rw [List.forall_mem_cons] at h
      exact (segment.safe fn h.1).bind fun v => (ih h.2).bind fun more => .pure _

theorem safe_render_of_ofFile {file : Option SourceFile} {t : Template}
    (h : Template.ofFile file = .ok t) : Safe fn (t.render fn) := by
  cases file with
  | none =>
      cases h
      exact .pure _
  | some tree =>
      obtain ⟨source, hsource, ht⟩ := bind_eq_ok_iff.mp h
      cases ht
      have hsound := SourceFile.sound_iff.mpr (SourceFile.emits_iff.mp ⟨source, hsource⟩)
      exact safe_renderSegments fn hsound

end

theorem exists_ofFile_iff {file : Option SourceFile} :
    (∃ t, Template.ofFile file = .ok t) ↔ file = none ∨ ∃ tree, file = some tree ∧
      (tree.body = none ∨ ∀ node, tree.Reaches node → node.WellFormed) := by
  cases file with
  | none => exact ⟨fun _ => .inl rfl, fun _ => ⟨_, rfl⟩⟩
  | some tree =>
      have hbody : tree.body = none → ∀ node, tree.Reaches node → node.WellFormed := by
        rintro hnone node ⟨segment, hsegment, -⟩
        simp [SourceFile.segments, hnone] at hsegment
      have hcheck : (∃ t, Template.ofFile (some tree) = .ok t) ↔
          ∃ source, tree.emit = .ok source := by
        simp [Template.ofFile, exists_bind_eq_ok, pure, Except.pure]
      rw [hcheck, SourceFile.emits_iff]
      simp only [reduceCtorEq, Option.some.injEq, exists_eq_left', false_or]
      exact ⟨.inr, fun h => h.elim hbody id⟩

/--
A tree makes a template if and only if it is empty or all its nodes are well
formed; the template then renders, or fails with an answer of the bindings, whatever
functions of a name and of a value these are.
-/
theorem ofFile_validates_rendering :
    (∀ file : Option SourceFile, (∃ t, Template.ofFile file = .ok t) ↔
      file = none ∨ ∃ tree, file = some tree ∧
        (tree.body = none ∨ ∀ node, tree.Reaches node → node.WellFormed)) ∧
    ∀ (file : Option SourceFile) (t : Template), Template.ofFile file = .ok t →
      ∀ fn : Bindings, (t.render fn).outcome ≠ .error cannotEvaluate ∧
        ((∃ text, (t.render fn).outcome = .ok text) ∨
          ∃ fault, (t.render fn).outcome = .error fault ∧ fn.Blamed (t.render fn).calls fault) := by
  refine ⟨fun file => exists_ofFile_iff, fun file t h fn => ?_⟩
  have hsafe := safe_render_of_ofFile fn h
  cases houtcome : (t.render fn).outcome with
  | ok text => exact ⟨nofun, .inl ⟨text, rfl⟩⟩
  | error fault =>
      have hblamed := hsafe fault houtcome
      refine ⟨?_, .inr ⟨fault, rfl, hblamed⟩⟩
      rintro ⟨⟩
      exact not_blamed_cannotEvaluate hblamed

/-- A tree built by hand, with `GET` inside `LENGTH` inside a comparison of an `IF`. -/
def lengthTest : SourceFile :=
  let span : Span := ⟨1, 9, []⟩
  let name : GetCall := ⟨span, some ⟨span, "x", none⟩⟩
  let test : Expr := .compare span (.length span (some name)) .less (.get name)
  let value : Expr := .choose span test (.get name) (.boolean span true)
  ⟨span, some ⟨span, [.formula span (some value)]⟩, none⟩

/-- Its nodes are well formed, and no bindings lead its rendering to an absent one. -/
theorem ofFile_validates_rendering_sample :
    (∀ node, lengthTest.Reaches node → node.WellFormed) ∧
    ∃ t, Template.ofFile (some lengthTest) = .ok t ∧
      ∀ fn : Bindings, (t.render fn).outcome ≠ .error cannotEvaluate := by
  have hok : (Template.ofFile (some lengthTest)).isOk = true := by cbv
  obtain ⟨t, ht⟩ := exists_ok hok
  obtain ⟨hiff, hrender⟩ := ofFile_validates_rendering
  refine ⟨?_, t, ht, fun fn => (hrender _ t ht fn).1⟩
  obtain hnone | ⟨tree, htree, hbody | hnodes⟩ := (hiff _).mp ⟨t, ht⟩
  · cases hnone
  · cases htree
    cases hbody
  · cases htree
    exact hnodes

end Backtick
