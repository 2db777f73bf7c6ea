import Mathlib
import Backtick.Proofs.Tiling
import Backtick.Tree.Visit

/-!
# Where the nodes of a tree stand

The tokens of a template stand one behind the other, and a node covers its tokens
from the first to the last. So the nodes below a node lie within it, one behind the
other, and the text of each is that of the template between its columns. The
segments follow each other without gaps from one backtick to the other.
-/

namespace Backtick

open Scan Parse

/-! ## Things one behind the other -/

/-- Things one behind the other between two columns; `place` says where each begins and ends. -/
inductive InOrder {α : Type} (place : α → Int × Int) : Int → List α → Int → Prop
  | nil {a b : Int} (h : a ≤ b) : InOrder place a [] b
  | cons {a b : Int} {x : α} {rest : List α} (hbefore : a ≤ (place x).1)
      (hplace : (place x).1 ≤ (place x).2) (hrest : InOrder place (place x).2 rest b) :
      InOrder place a (x :: rest) b

namespace InOrder

variable {α : Type} {place : α → Int × Int} {a b c : Int} {x : α} {xs ys : List α}

theorem le (h : InOrder place a xs b) : a ≤ b := by
  induction h with
  | nil h => exact h
  | cons hbefore hplace _ ih => omega

theorem from_le (h : InOrder place a xs b) (hle : c ≤ a) : InOrder place c xs b := by
  cases h with
  | nil h => exact .nil (by omega)
  | cons hbefore hplace hrest => exact .cons (by omega) hplace hrest

theorem append (hxs : InOrder place a xs b) (hys : InOrder place b ys c) :
    InOrder place a (xs ++ ys) c := by
  induction hxs with
  | nil h => exact hys.from_le h
  | cons hbefore hplace _ ih => exact .cons hbefore hplace (ih hys)

theorem to_le (h : InOrder place a xs b) (hle : b ≤ c) : InOrder place a xs c := by
  rw [← List.append_nil xs]
  exact h.append (.nil hle)

theorem of_append (h : InOrder place a (xs ++ ys) b) :
    ∃ m, InOrder place a xs m ∧ InOrder place m ys b := by
  induction xs generalizing a with
  | nil => exact ⟨a, .nil (Int.le_refl a), h⟩
  | cons x xs ih =>
      cases h with
      | cons hbefore hplace hrest =>
          obtain ⟨m, hxs, hys⟩ := ih hrest
          exact ⟨m, .cons hbefore hplace hxs, hys⟩

theorem cons_iff : InOrder place a (x :: xs) b ↔
    a ≤ (place x).1 ∧ (place x).1 ≤ (place x).2 ∧ InOrder place (place x).2 xs b := by
  constructor
  · rintro ⟨⟩
    exact ⟨‹_›, ‹_›, ‹_›⟩
  · rintro ⟨hbefore, hplace, hrest⟩
    exact .cons hbefore hplace hrest

theorem filter (p : α → Bool) (h : InOrder place a xs b) : InOrder place a (xs.filter p) b := by
  induction h with
  | nil h => exact .nil h
  | @cons a b x rest hbefore hplace _ ih =>
      rw [List.filter_cons]
      split
      · exact .cons hbefore hplace ih
      · exact ih.from_le (by omega)

theorem bounds (h : InOrder place a xs b) (hx : x ∈ xs) :
    a ≤ (place x).1 ∧ (place x).2 ≤ b := by
  induction h with
  | nil => cases hx
  | cons hbefore hplace hrest ih =>
      rcases List.mem_cons.mp hx with rfl | hx
      · exact ⟨hbefore, hrest.le⟩
      · obtain ⟨hstart, hstop⟩ := ih hx
        exact ⟨by omega, hstop⟩

theorem pairwise (h : InOrder place a xs b) :
    xs.Pairwise fun x y => (place x).2 ≤ (place y).1 := by
  induction h with
  | nil => exact .nil
  | cons _ _ hrest ih => exact .cons (fun y hy => (hrest.bounds hy).1) ih

end InOrder

def Token.columns (t : Token) : Int × Int :=
  (t.start, t.stop)

theorem Scan.inOrder_placed (column : Nat) (lexed : List (TokenKind × Bytes)) :
    InOrder Token.columns column (placed column lexed)
      (column + (lexed.map fun t => t.2.length).sum : Nat) := by
  induction lexed generalizing column with
  | nil => exact .nil (by simp)
  | cons first rest ih =>
      obtain ⟨kind, lexeme⟩ := first
      refine .cons (Int.le_refl _) (by simp [Token.columns, tokenAt]) ?_
      rw [List.map_cons, List.sum_cons, ← Nat.add_assoc]
      exact ih (column + lexeme.length)

/-! ## The nodes of a tree -/

/-- A node with the nodes directly below it, in source order. -/
structure SpanTree where
  kind : NodeKind
  span : Span
  children : List SpanTree

namespace SpanTree

def columns (node : SpanTree) : Int × Int :=
  (node.span.start, node.span.stop)

/-- A node reaches itself and what the nodes below it reach. -/
def Reaches : SpanTree → SpanTree → Prop :=
  Relation.ReflTransGen fun node child => child ∈ node.children

/-- The nodes in depth-first order, as far as the walk descends. -/
def visit (descend : NodeKind → Bool) : SpanTree → List Visited
  | ⟨kind, span, children⟩ => visitNode descend kind span (children.flatMap (visit descend))

end SpanTree

def StringLiteral.spanTree (literal : StringLiteral) : SpanTree :=
  ⟨.stringLiteral, literal.span, []⟩

def GetCall.spanTree (call : GetCall) : SpanTree :=
  ⟨.getCall, call.span, call.name.elim [] fun name => [name.spanTree]⟩

/-- The node of an expression; an absent one has none. -/
def Expr.spanTrees : Expr → List SpanTree
  | .string literal => [literal.spanTree]
  | .number span _ => [⟨.numericLiteral, span, []⟩]
  | .boolean span _ => [⟨.booleanLiteral, span, []⟩]
  | .get call => [call.spanTree]
  | .length span arg => [⟨.lengthCall, span, arg.elim [] fun call => [call.spanTree]⟩]
  | .choose span test yes no =>
      [⟨.ifExpression, span, test.spanTrees ++ yes.spanTrees ++ no.spanTrees⟩]
  | .compare span left _ right =>
      [⟨.binaryComparison, span, left.spanTrees ++ right.spanTrees⟩]
  | .missing => []

def Segment.spanTrees : Segment → List SpanTree
  | .text literal => [literal.spanTree]
  | .formula span value => [⟨.formula, span, value.elim [] Expr.spanTrees⟩]
  | .missing => []

def TemplateBody.spanTree (body : TemplateBody) : SpanTree :=
  ⟨.templateString, body.span, body.segments.flatMap Segment.spanTrees⟩

def SourceFile.spanTree (file : SourceFile) : SpanTree :=
  ⟨.sourceFile, file.span,
    (file.body.elim [] fun body => [body.spanTree]) ++
      file.eof.elim [] fun span => [⟨.endOfFile, span, []⟩]⟩

section Walk

variable (descend : NodeKind → Bool)

theorem StringLiteral.visit_spanTree (literal : StringLiteral) :
    literal.spanTree.visit descend = literal.visit descend := by
  simp [StringLiteral.spanTree, StringLiteral.visit, SpanTree.visit]

theorem GetCall.visit_spanTree (call : GetCall) :
    call.spanTree.visit descend = call.visit descend := by
  obtain ⟨span, name⟩ := call
  cases name <;>
    simp [GetCall.spanTree, GetCall.visit, SpanTree.visit, StringLiteral.visit_spanTree]

theorem Expr.visit_spanTrees (e : Expr) :
    e.spanTrees.flatMap (SpanTree.visit descend) = e.visit descend := by
  induction e with
  | string literal => simp [Expr.spanTrees, Expr.visit, StringLiteral.visit_spanTree]
  | number | boolean | missing => simp [Expr.spanTrees, Expr.visit, SpanTree.visit]
  | get call => simp [Expr.spanTrees, Expr.visit, GetCall.visit_spanTree]
  | length span arg =>
      cases arg <;> simp [Expr.spanTrees, Expr.visit, SpanTree.visit, GetCall.visit_spanTree]
  | choose span test yes no ihtest ihyes ihno =>
      simp [Expr.spanTrees, Expr.visit, SpanTree.visit, ihtest, ihyes, ihno]
  | compare span left op right ihleft ihright =>
      simp [Expr.spanTrees, Expr.visit, SpanTree.visit, ihleft, ihright]

theorem Segment.visit_spanTrees (segment : Segment) :
    segment.spanTrees.flatMap (SpanTree.visit descend) = segment.visit descend := by
  cases segment with
  | text literal => simp [Segment.spanTrees, Segment.visit, StringLiteral.visit_spanTree]
  | formula span value =>
      cases value <;> simp [Segment.spanTrees, Segment.visit, SpanTree.visit, Expr.visit_spanTrees]
  | missing => rfl

theorem TemplateBody.visit_spanTree (body : TemplateBody) :
    body.spanTree.visit descend = body.visit descend := by
  simp [TemplateBody.spanTree, TemplateBody.visit, SpanTree.visit, List.flatMap_assoc,
    Segment.visit_spanTrees]

/-- The walk over a tree is the walk over its nodes. -/
theorem SourceFile.visit_spanTree (file : SourceFile) :
    file.spanTree.visit descend = file.visit descend := by
  obtain ⟨span, body, eof⟩ := file
  cases body <;> cases eof <;>
    simp [SourceFile.spanTree, SourceFile.visit, SpanTree.visit, TemplateBody.visit_spanTree]

end Walk

/-! ## Nodes that cover their text -/

/-- The text of a span is what a template holds between its columns. -/
structure Span.Exact (template : Bytes) (span : Span) : Prop where
  start : 0 ≤ span.start
  order : span.start ≤ span.stop
  stop : span.stop ≤ template.length
  source : span.source =
    (template.drop span.start.toNat).take (span.stop - span.start).toNat

namespace SpanTree

/-- A node covers its text, and its children lie within it, one behind the other. -/
structure Fits (template : Bytes) (node : SpanTree) : Prop where
  exact : node.span.Exact template
  within : ∀ child ∈ node.children,
    node.span.start ≤ child.span.start ∧ child.span.stop ≤ node.span.stop
  ordered : node.children.Pairwise fun child next => child.span.stop ≤ next.span.start

/-- A node of which all that it reaches fits. -/
inductive Sound (template : Bytes) : SpanTree → Prop
  | mk {kind : NodeKind} {span : Span} {children : List SpanTree} (hexact : span.Exact template)
      (horder : InOrder columns span.start children span.stop)
      (hchildren : ∀ child ∈ children, Sound template child) :
      Sound template ⟨kind, span, children⟩

variable {template : Bytes}

theorem Sound.exact {node : SpanTree} (h : node.Sound template) : node.span.Exact template := by
  cases h with
  | mk hexact _ _ => exact hexact

theorem Sound.of_mem {node child : SpanTree} (h : node.Sound template)
    (hchild : child ∈ node.children) : child.Sound template := by
  cases h with
  | mk _ _ hchildren => exact hchildren child hchild

theorem Sound.fits {node below : SpanTree} (h : node.Sound template) (hbelow : node.Reaches below) :
    below.Fits template := by
  induction hbelow using Relation.ReflTransGen.head_induction_on with
  | refl =>
      cases h with
      | mk hexact horder _ => exact ⟨hexact, fun child => horder.bounds, horder.pairwise⟩
  | head hchild _ ih => exact ih (h.of_mem hchild)

/-- Where a visited node begins, as a place without extent. -/
def entry (visited : Visited) : Int × Int :=
  (visited.2.start, visited.2.start)

theorem inOrder_flatMap {f : SpanTree → List Visited} {nodes : List SpanTree} {a b : Int}
    (h : InOrder columns a nodes b)
    (hf : ∀ node ∈ nodes, InOrder entry node.span.start (f node) node.span.stop) :
    InOrder entry a (nodes.flatMap f) b := by
  induction h with
  | nil h => exact .nil h
  | cons hbefore _ _ ih =>
      rw [List.forall_mem_cons] at hf
      exact (hf.1.from_le hbefore).append (ih hf.2)

/-- The walk meets the nodes in the order in which they begin. -/
theorem Sound.inOrder_visit {node : SpanTree} (h : node.Sound template)
    (descend : NodeKind → Bool) :
    InOrder entry node.span.start (node.visit descend) node.span.stop := by
  induction h with
  | @mk kind span children hexact horder _ ih =>
      rw [visit, visitNode]
      refine .cons (Int.le_refl _) (Int.le_refl _) ?_
      split
      · exact inOrder_flatMap horder ih
      · exact .nil hexact.order

structure Laid (template : Bytes) (a : Int) (nodes : List SpanTree) (b : Int) : Prop where
  order : InOrder columns a nodes b
  sound : ∀ node ∈ nodes, node.Sound template

namespace Laid

variable {a b c d : Int} {nodes more : List SpanTree}

theorem nil (h : a ≤ b) : Laid template a [] b :=
  ⟨.nil h, List.forall_mem_nil _⟩

theorem append (hnodes : Laid template a nodes b) (hmore : Laid template c more d) (h : b ≤ c) :
    Laid template a (nodes ++ more) d :=
  ⟨hnodes.order.append (hmore.order.from_le h),
    List.forall_mem_append.mpr ⟨hnodes.sound, hmore.sound⟩⟩

/-- A node lies between its own columns. -/
theorem tight {node : SpanTree} (h : Laid template a [node] b) :
    Laid template node.span.start [node] node.span.stop ∧
      a ≤ node.span.start ∧ node.span.stop ≤ b := by
  obtain ⟨hstart, horder, hstop⟩ := InOrder.cons_iff.mp h.order
  exact ⟨⟨.cons (Int.le_refl _) horder (.nil (Int.le_refl _)), h.sound⟩, hstart, hstop.le⟩

theorem widen (h : Laid template b nodes c) (hstart : a ≤ b) (hstop : c ≤ d) :
    Laid template a nodes d :=
  ⟨(h.order.from_le hstart).to_le hstop, h.sound⟩

end Laid

end SpanTree

@[simp] theorem Parse.spanOf_start (template : Bytes) (a b : Int) :
    (spanOf template a b).start = a := by
  unfold spanOf
  split <;> rfl

@[simp] theorem Parse.spanOf_stop (template : Bytes) (a b : Int) :
    (spanOf template a b).stop = b := by
  unfold spanOf
  split <;> rfl

theorem Parse.exact_spanOf {template : Bytes} {a b : Int} (ha : 0 ≤ a) (hab : a ≤ b)
    (hb : b ≤ template.length) : (spanOf template a b).Exact template := by
  have hinside : ¬(a < 0 || (template.length : Int) < b || b < a) = true := by
    simp only [Bool.or_eq_true, decide_eq_true_eq]
    omega
  rw [spanOf, if_neg hinside]
  exact ⟨ha, hab, hb, rfl⟩

/-! ## The nodes that tokens make -/

section Derivation

open SpanTree

variable {template : Bytes} {toks : List Token} {a b : Int}

/-- A node from one column to another, around nodes that lie between them. -/
theorem SpanTree.Laid.node {children : List SpanTree} (h : Laid template a children b)
    (ha : 0 ≤ a) (hb : b ≤ template.length) (kind : NodeKind) :
    Laid template a [⟨kind, spanOf template a b, children⟩] b := by
  refine ⟨.cons ?_ ?_ (.nil ?_), List.forall_mem_singleton.mpr (.mk ?_ ?_ h.sound)⟩
  · simp [columns]
  · simpa [columns] using h.order.le
  · simp [columns]
  · exact exact_spanOf ha h.order.le hb
  · simpa using h.order

/-- A token makes a node without children. -/
theorem laid_token (kind : NodeKind) {t : Token} (htoken : InOrder Token.columns a [t] b)
    (ha : 0 ≤ a) (hb : b ≤ template.length) :
    Laid template a [⟨kind, tokenSpan template t, []⟩] b := by
  simp only [InOrder.cons_iff, Token.columns] at htoken
  obtain ⟨hstart, horder, hstop⟩ := htoken
  have hstop := hstop.le
  exact ((Laid.nil horder).node (by omega) (by omega) kind).widen hstart hstop

theorem laid_quoted {t : Token} (htoken : InOrder Token.columns a [t] b) (ha : 0 ≤ a)
    (hb : b ≤ template.length) : Laid template a [(quoted template t).spanTree] b := by
  have hspan : (quoted template t).span = tokenSpan template t := by
    unfold quoted
    split <;> rfl
  rw [StringLiteral.spanTree, hspan]
  exact laid_token .stringLiteral htoken ha hb

/-- A node from the start of one token to the end of another, around what lies between them. -/
theorem laid_between (kind : NodeKind) {first last : Token} (middle : List Token)
    {children : List SpanTree}
    (htoks : InOrder Token.columns a (first :: middle ++ [last]) b) (ha : 0 ≤ a)
    (hb : b ≤ template.length)
    (hchildren : ∀ c d : Int, 0 ≤ c → d ≤ template.length → InOrder Token.columns c middle d →
      Laid template c children d) :
    Laid template a [⟨kind, between template first last, children⟩] b := by
  rw [List.cons_append, InOrder.cons_iff] at htoks
  obtain ⟨hfirst, hfirst', hrest⟩ := htoks
  obtain ⟨m, hmiddle, hlast⟩ := hrest.of_append
  obtain ⟨hlast, hlast', hend⟩ := InOrder.cons_iff.mp hlast
  have hm := hmiddle.le
  have hend := hend.le
  simp only [Token.columns] at *
  have hinside := hchildren first.stop m (by omega) (by omega) hmiddle
  exact ((hinside.widen hfirst' (by omega)).node (by omega) (by omega) kind).widen hfirst hend

theorem GetCall.Derived.laid {call : GetCall} (h : call.Derived template toks)
    (htoks : InOrder Token.columns a toks b) (ha : 0 ≤ a) (hb : b ≤ template.length) :
    Laid template a [call.spanTree] b := by
  cases h with
  | @mk word opening name close =>
      refine laid_between .getCall [opening, name] htoks ha hb ?_
      intro c d hc hd hmiddle
      obtain ⟨hopening, hopening', hname⟩ := InOrder.cons_iff.mp hmiddle
      simp only [Token.columns] at hopening hopening' hname
      exact (laid_quoted hname (by omega) hd).widen (by omega) (Int.le_refl d)

/-- An expression that is there has one node, with its span. -/
theorem Expr.spanTrees_of_span? {e : Expr} {span : Span} (h : e.span? = some span) :
    ∃ node, e.spanTrees = [node] ∧ node.span = span := by
  cases e <;> cases h <;> exact ⟨_, rfl, rfl⟩

theorem Expr.Derived.span? {place : Grammar.Place} {e : Expr} (h : e.Derived template place toks) :
    ∃ span, e.span? = some span := by
  induction h with
  | condition _ ih => exact ih
  | _ => exact ⟨_, rfl⟩

theorem Expr.Derived.laid {place : Grammar.Place} {e : Expr} (h : e.Derived template place toks)
    (htoks : InOrder Token.columns a toks b) (ha : 0 ≤ a) (hb : b ≤ template.length) :
    Laid template a e.spanTrees b := by
  induction h generalizing a b with
  | string => exact laid_quoted htoks ha hb
  | number | yes | no => exact laid_token _ htoks ha hb
  | get h => exact h.laid htoks ha hb
  | @length word opening close toks call _ _ h _ =>
      refine laid_between .lengthCall (opening :: toks) htoks ha hb ?_
      intro c d hc hd hmiddle
      obtain ⟨hopening, hopening', htoks⟩ := InOrder.cons_iff.mp hmiddle
      exact (h.laid htoks (by omega) hd).widen (by omega) (Int.le_refl d)
  | @choose word opening comma comma' close tests yess nos test yes no _ _ _ _ _ _ _ _
      ihtest ihyes ihno =>
      refine laid_between .ifExpression
        (opening :: tests ++ comma :: yess ++ comma' :: nos) htoks ha hb ?_
      intro c d hc hd hmiddle
      obtain ⟨n, hfront, hnos⟩ := hmiddle.of_append
      obtain ⟨m, hfront, hyess⟩ := hfront.of_append
      obtain ⟨hopening, hopening', htests⟩ := InOrder.cons_iff.mp hfront
      obtain ⟨hcomma, hcomma', hyess⟩ := InOrder.cons_iff.mp hyess
      obtain ⟨hcomma₂, hcomma₂', hnos⟩ := InOrder.cons_iff.mp hnos
      have hm := htests.le
      have hn := hyess.le
      have hd' := hnos.le
      have ltest := ihtest htests (by omega) (by omega)
      have lyes := ihyes hyess (by omega) (by omega)
      have lno := ihno hnos (by omega) hd
      exact ((ltest.append lyes (by omega)).append lno (by omega)).widen (by omega) (Int.le_refl d)
  | condition _ ih => exact ih htoks ha hb
  | @comparison sign lefts rights op left right hleft _ hright ihleft ihright =>
      obtain ⟨m, hlefts, hrest⟩ := htoks.of_append
      obtain ⟨hsign, hsign', hrights⟩ := InOrder.cons_iff.mp hrest
      have hm := hlefts.le
      have hb' := hrights.le
      have lleft := ihleft hlefts ha (by omega)
      have lright := ihright hrights (by omega) hb
      obtain ⟨lspan, hlspan⟩ := hleft.span?
      obtain ⟨rspan, hrspan⟩ := hright.span?
      -- the span of a comparison is taken from those of its operands
      have hspan : comparisonSpan template left right = spanOf template lspan.start rspan.stop := by
        rw [comparisonSpan, hlspan, hrspan]
        rfl
      obtain ⟨lnode, hlnode, rfl⟩ := Expr.spanTrees_of_span? hlspan
      obtain ⟨rnode, hrnode, rfl⟩ := Expr.spanTrees_of_span? hrspan
      rw [hlnode] at lleft
      rw [hrnode] at lright
      obtain ⟨lleft, hstart, hlstop⟩ := lleft.tight
      obtain ⟨lright, hrstart, hstop⟩ := lright.tight
      rw [Expr.spanTrees, hspan, hlnode, hrnode]
      exact ((lleft.append lright (by omega)).node (by omega) (by omega) _).widen hstart hstop

theorem Segment.Derived.laid {segment : Segment} (h : segment.Derived template toks)
    (htoks : InOrder Token.columns a toks b) (ha : 0 ≤ a) (hb : b ≤ template.length) :
    Laid template a segment.spanTrees b := by
  cases h with
  | text => exact laid_token .stringLiteral htoks ha hb
  | emptyFormula => exact laid_between .formula [] htoks ha hb fun c d _ _ h => .nil h.le
  | @formula opening close toks e _ h _ =>
      exact laid_between .formula toks htoks ha hb fun c d hc hd htoks => h.laid htoks hc hd

theorem SegmentsDerived.laid {segments : List Segment}
    (h : SegmentsDerived template toks segments) (htoks : InOrder Token.columns a toks b)
    (ha : 0 ≤ a) (hb : b ≤ template.length) :
    Laid template a (segments.flatMap Segment.spanTrees) b := by
  induction h generalizing a with
  | nil => exact .nil htoks.le
  | cons hfirst _ ih =>
      obtain ⟨m, hfirst', hrest⟩ := htoks.of_append
      have hm := hfirst'.le
      have hb' := hrest.le
      exact (hfirst.laid hfirst' ha (by omega)).append (ih hrest (by omega)) (Int.le_refl m)

end Derivation

/-! ## Segments without gaps -/

namespace SpanTree

/-- Nodes that follow each other without gaps from one column to another. -/
inductive Joined : Int → List SpanTree → Int → Prop
  | nil (a : Int) : Joined a [] a
  | cons {a b : Int} {node : SpanTree} {rest : List SpanTree} (hstart : node.span.start = a)
      (hrest : Joined node.span.stop rest b) : Joined a (node :: rest) b

/-- The children of a node cover all of it, each beginning where the one before it ends. -/
structure Tiled (node : SpanTree) : Prop where
  adjacent : node.children.IsChain fun child next => child.span.stop = next.span.start
  first : ∀ child, node.children.head? = some child → child.span.start = node.span.start
  last : ∀ child, node.children.getLast? = some child → child.span.stop = node.span.stop
  joined : node.children.flatMap (fun child => child.span.source) = node.span.source

namespace Joined

variable {template : Bytes} {a b : Int} {nodes : List SpanTree} {node : SpanTree}

theorem isChain (h : Joined a nodes b) :
    nodes.IsChain fun child next => child.span.stop = next.span.start := by
  induction h with
  | nil => exact .nil
  | cons _ hrest ih =>
      cases hrest with
      | nil => exact .singleton _
      | cons hnext => exact .cons_cons hnext.symm ih

theorem start_head (h : Joined a nodes b) (hhead : nodes.head? = some node) :
    node.span.start = a := by
  cases h with
  | nil => cases hhead
  | cons hstart =>
      cases hhead
      exact hstart

theorem stop_getLast (h : Joined a nodes b) (hlast : nodes.getLast? = some node) :
    node.span.stop = b := by
  induction h with
  | nil => cases hlast
  | cons _ hrest ih =>
      cases hrest with
      | nil =>
          cases hlast
          rfl
      | cons => exact ih hlast

/-- The texts of nodes without gaps are together the text between their ends. -/
theorem source (h : Joined a nodes b) (hexact : ∀ node ∈ nodes, node.span.Exact template)
    (ha : 0 ≤ a) :
    a ≤ b ∧ nodes.flatMap (fun node => node.span.source) =
      (template.drop a.toNat).take (b - a).toNat := by
  induction h with
  | nil a => simp
  | @cons a b node rest hstart _ ih =>
      rw [List.forall_mem_cons] at hexact
      obtain ⟨⟨-, horder, -, hsource⟩, hexact⟩ := hexact
      obtain ⟨hle, htexts⟩ := ih hexact (by omega)
      refine ⟨by omega, ?_⟩
      have hdrop : node.span.stop.toNat = node.span.start.toNat +
          (node.span.stop - node.span.start).toNat := by omega
      have htake : (b - node.span.start).toNat =
          (node.span.stop - node.span.start).toNat + (b - node.span.stop).toNat := by omega
      rw [List.flatMap_cons, htexts, hsource, ← hstart, htake, List.take_add, List.drop_drop, hdrop]

/-- A sound node is tiled by children without gaps. -/
theorem tiled (h : Joined node.span.start node.children node.span.stop)
    (hsound : node.Sound template) : node.Tiled where
  adjacent := h.isChain
  first _ := h.start_head
  last _ := h.stop_getLast
  joined := by
    have hexact : ∀ child ∈ node.children, child.span.Exact template :=
      fun child hchild => (hsound.fits (.single hchild)).exact
    rw [(h.source hexact hsound.exact.start).2, hsound.exact.source]

end Joined

end SpanTree

section Segments

open SpanTree

variable {template : Bytes}

/-- The segments of a text follow each other without gaps. -/
theorem Shape.joined {column : Nat} {body : Bytes} {segments : List Segment}
    (h : Shape template column body segments) :
    SpanTree.Joined column (segments.flatMap Segment.spanTrees) (column + body.length : Nat) := by
  induction h with
  | nil column => exact .nil _
  | @text column run _ _ =>
      refine .cons (spanOf_start ..) ?_
      rw [StringLiteral.spanTree, tokenSpan, between, spanOf_stop]
      exact .nil _
  | @formula column run inner rest lexed value segments _ _ _ _ ih =>
      refine .cons (spanOf_start ..) (.cons ?_ ?_)
      · rw [StringLiteral.spanTree, tokenSpan, between, between, spanOf_start, spanOf_stop]
        rfl
      · have hstop : (closing (column + run.length + 2 + inner.length)).stop =
            (column + run.length + inner.length + 3 : Nat) := by
          simp only [closing, Scan.tokenAt, List.length_singleton]
          omega
        have hend : column + (run ++ '$'.toUInt8 :: '{'.toUInt8 ::
            (inner ++ '}'.toUInt8 :: rest)).length =
              column + run.length + inner.length + 3 + rest.length := by
          simp only [List.length_append, List.length_cons]
          omega
        rw [between, spanOf_stop, hstop, hend]
        exact ih

/-- The node of a segment goes from the first of its tokens to the last. -/
theorem Segment.Derived.spanTrees {toks : List Token} {segment : Segment}
    (h : segment.Derived template toks) :
    ∃ first last node, toks.head? = some first ∧ toks.getLast? = some last ∧
      segment.spanTrees = [node] ∧ node.span = between template first last := by
  cases h with
  | @text t => exact ⟨t, t, _, rfl, rfl, rfl, rfl⟩
  | @emptyFormula opening close => exact ⟨opening, close, _, rfl, rfl, rfl, rfl⟩
  | @formula opening close => exact ⟨opening, close, _, rfl, List.getLast?_concat, rfl, rfl⟩

/-- Segments begin with the first of their tokens and end with the last. -/
theorem SegmentsDerived.ends {toks : List Token} {segments : List Segment}
    (h : SegmentsDerived template toks segments) :
    toks.head?.map Token.start =
        (segments.flatMap Segment.spanTrees).head?.map (fun node => node.span.start) ∧
      toks.getLast?.map Token.stop =
        (segments.flatMap Segment.spanTrees).getLast?.map fun node => node.span.stop := by
  induction h with
  | nil => exact ⟨rfl, rfl⟩
  | cons hfirst _ ih =>
      obtain ⟨first, last, node, hhead, hlast, hnode, hspan⟩ := hfirst.spanTrees
      rw [List.flatMap_cons, hnode]
      constructor
      · simp [List.head?_append, hhead, hspan, between]
      · rw [List.getLast?_append, List.getLast?_append, Option.map_or, Option.map_or, ih.2, hlast,
          List.getLast?_singleton, Option.map_some, Option.map_some, hspan, between, spanOf_stop]

/-- The tokens of segments without gaps begin and end where the segments do. -/
theorem SegmentsDerived.columns_of_joined {first last : Token} {toks : List Token}
    {segments : List Segment} {a b : Int} (h : SegmentsDerived template toks segments)
    (hjoined : SpanTree.Joined a (segments.flatMap Segment.spanTrees) b)
    (hfirst : toks.head? = some first) (hlast : toks.getLast? = some last) :
    first.start = a ∧ last.stop = b := by
  obtain ⟨hhead, hend⟩ := h.ends
  rw [hfirst] at hhead
  rw [hlast] at hend
  obtain ⟨node, hnode, hstart⟩ := Option.map_eq_some_iff.mp hhead.symm
  obtain ⟨node', hnode', hstop⟩ := Option.map_eq_some_iff.mp hend.symm
  rw [← hstart, ← hstop]
  exact ⟨hjoined.start_head hnode, hjoined.stop_getLast hnode'⟩

theorem BodyDerived.span {toks : List Token} {tree : TemplateBody} {a b : Int}
    (h : BodyDerived template toks (some tree))
    (hjoined : SpanTree.Joined a (tree.segments.flatMap Segment.spanTrees) b) :
    tree.span = spanOf template a b := by
  cases h with
  | @cons first rest segments h =>
      have hlast : (first :: rest).getLast? = some ((first :: rest).getLastD first) := rfl
      obtain ⟨hstart, hstop⟩ := h.columns_of_joined hjoined rfl hlast
      rw [between, hstart, hstop]

/-- The nodes of a template whose segments follow each other without gaps. -/
theorem SourceFile.Derived.laid {toks : List Token} {eof : Token} {file : SourceFile} {a b : Int}
    (h : file.Derived template (toks ++ [eof])) (htoks : InOrder Token.columns a toks b)
    (heof : eof.start = b ∧ eof.stop = b) (ha : 0 ≤ a) (hb : b ≤ template.length)
    (hjoined : SpanTree.Joined a (file.segments.flatMap Segment.spanTrees) b) :
    Laid template a [file.spanTree] b ∧ file.span = spanOf template a b ∧
      ∀ body, file.body = some body → body.span = spanOf template a b := by
  generalize hall : toks ++ [eof] = all at h
  cases h with
  | @mk toks' eof' body hbody hkind =>
      obtain ⟨rfl, hlast⟩ := List.append_inj' hall rfl
      cases hlast
      have hfirst : ((toks ++ [eof]).headD eof).start = a := by
        cases toks with
        | nil =>
            cases hbody
            cases hjoined
            exact heof.1
        | cons first rest =>
            exact (hbody.segments.columns_of_joined hjoined rfl rfl).1
      have hspan : between template ((toks ++ [eof]).headD eof) eof = spanOf template a b := by
        rw [between, hfirst, heof.2]
      have htree : ∀ tree, body = some tree → tree.span = spanOf template a b := by
        rintro tree rfl
        exact hbody.span hjoined
      refine ⟨?_, hspan, htree⟩
      have hend : Laid template b [⟨.endOfFile, tokenSpan template eof, []⟩] b := by
        rw [tokenSpan, between, heof.1, heof.2]
        exact (Laid.nil (Int.le_refl b)).node (by have := htoks.le; omega) hb _
      have hbelow : Laid template a (body.elim [] fun tree => [tree.spanTree]) b := by
        have hsegments := hbody.segments.laid htoks ha hb
        cases body with
        | none => exact hsegments
        | some tree =>
            have hnode := hsegments.node ha hb .templateString
            rw [← htree tree rfl] at hnode
            exact hnode
      rw [SourceFile.spanTree, hspan]
      exact (hbelow.append hend (Int.le_refl b)).node ha hb _

end Segments

/-- A text that is scanned and parsed stands in backticks, its segments without gaps. -/
theorem joined_of_parse {template : Bytes} {toks : List Token} {file : SourceFile}
    (htokens : tokenize template = .ok toks) (hparse : parse template toks = .ok file) :
    ∃ body, template = inBackticks body ∧ ∃ front,
      file.Derived template (front ++ [Scan.tokenAt (1 + body.length) .eof []]) ∧
      InOrder Token.columns 1 front (1 + body.length : Nat) ∧
      SpanTree.Joined 1 (file.segments.flatMap Segment.spanTrees) (1 + body.length : Nat) := by
  cases hbody : Scan.body? template with
  | none =>
      rw [tokenize, hbody] at htokens
      cases htokens
      cases hparse
  | some body =>
      obtain rfl := eq_inBackticks_of_body? hbody
      rw [tokenize, hbody] at htokens
      obtain ⟨lexed, hlexes, rfl⟩ := tokens_eq_ok_iff.mp htokens
      have hderived := parse_eq_ok_iff.mp hparse
      have hlength : (lexed.map fun t => t.2.length).sum = body.length := by
        rw [← hlexes.flatMap, List.length_flatMap]
      rw [significant_end, hlength] at hderived
      refine ⟨body, rfl, _, hderived, ?_, ?_⟩
      · have horder := inOrder_placed 1 lexed
        rw [hlength] at horder
        exact horder.filter _
      · generalize hall : significant _ ++ _ = all at hderived
        cases hderived with
        | mk hparts _ =>
            obtain ⟨rfl, -⟩ := List.append_inj' hall rfl
            exact (hlexes.shape hparts.segments).joined

/--
The nodes of a template's tree cover their texts, lie within the nodes above them
and stand in source order. The segments tile the text between the backticks,
which is the text of the body and of the whole template, and a walk over the
tree meets its nodes in the order in which they begin.
-/
theorem spans_nest_in_source_order (template : Bytes) (toks : List Token) (file : SourceFile)
    (htokens : tokenize template = .ok toks) (hparse : parse template toks = .ok file) :
    (∀ node, file.spanTree.Reaches node → node.Fits template) ∧
    (∀ body, file.body = some body → body.spanTree.Tiled ∧
      body.span.source = (template.drop 1).take (template.length - 2)) ∧
    file.span.source = (template.drop 1).take (template.length - 2) ∧
    ∀ descend, (file.visit descend).Pairwise fun before after =>
      before.2.start ≤ after.2.start := by
  obtain ⟨text, rfl, front, hderived, horder, hjoined⟩ := joined_of_parse htokens hparse
  have hend : ((1 + text.length : Nat) : Int) ≤ (inBackticks text).length := by
    rw [length_inBackticks]
    omega
  obtain ⟨hlaid, hspan, hbody⟩ := hderived.laid horder ⟨rfl, rfl⟩ (by decide) hend hjoined
  have hsound : file.spanTree.Sound (inBackticks text) := hlaid.sound _ List.mem_cons_self
  have hsource : ∀ span : Span, span = spanOf (inBackticks text) 1 (1 + text.length : Nat) →
      span.source = ((inBackticks text).drop 1).take ((inBackticks text).length - 2) := by
    rintro span rfl
    have hexact := exact_spanOf (by decide) horder.le hend
    rw [hexact.source, spanOf_start, spanOf_stop, length_inBackticks]
    congr 1
    omega
  refine ⟨fun node => hsound.fits, ?_, hsource _ hspan, ?_⟩
  · intro body hsome
    have hspan := hbody body hsome
    have hchild : body.spanTree ∈ file.spanTree.children := by simp [SourceFile.spanTree, hsome]
    have hbelow : body.spanTree.Sound (inBackticks text) := hsound.of_mem hchild
    refine ⟨SpanTree.Joined.tiled ?_ hbelow, hsource _ hspan⟩
    rw [TemplateBody.spanTree, hspan, spanOf_start, spanOf_stop]
    rw [SourceFile.segments, hsome] at hjoined
    exact hjoined
  · intro descend
    rw [← SourceFile.visit_spanTree]
    exact (hsound.inOrder_visit descend).pairwise

/-- A comparison with blanks around its sign, behind a character of two bytes. -/
def comparisonText : Bytes :=
  "`é$\x7bIF(GET('x') <  TRUE,'a',\"\")\x7d`"

def comparisonTokens : List Token :=
  [⟨"é", .string, 1, 3⟩, ⟨"$\x7b", .openFormula, 3, 5⟩, ⟨"IF", .ifWord, 5, 7⟩,
    ⟨"(", .openParen, 7, 8⟩, ⟨"GET", .getWord, 8, 11⟩, ⟨"(", .openParen, 11, 12⟩,
    ⟨"'x'", .string, 12, 15⟩, ⟨")", .closeParen, 15, 16⟩, ⟨" ", .whitespace, 16, 17⟩,
    ⟨"<", .less, 17, 18⟩, ⟨"  ", .whitespace, 18, 20⟩, ⟨"TRUE", .trueWord, 20, 24⟩,
    ⟨",", .comma, 24, 25⟩, ⟨"'a'", .string, 25, 28⟩, ⟨",", .comma, 28, 29⟩,
    ⟨"\"\"", .string, 29, 31⟩, ⟨")", .closeParen, 31, 32⟩, ⟨"\x7d", .closeBrace, 32, 33⟩,
    ⟨"", .eof, 33, 33⟩]

theorem spans_nest_in_source_order_sample :
    tokenize comparisonText = .ok comparisonTokens ∧
    ∃ file, parse comparisonText comparisonTokens = .ok file ∧
      (∀ node, file.spanTree.Reaches node → node.Fits comparisonText) ∧
      file.span.source = (comparisonText.drop 1).take (comparisonText.length - 2) := by
  have htokens : tokenize comparisonText = .ok comparisonTokens := by cbv
  have hok : (parse comparisonText comparisonTokens).isOk = true := by cbv
  obtain ⟨file, hfile⟩ := exists_ok hok
  have hspans := spans_nest_in_source_order comparisonText _ file htokens hfile
  exact ⟨htokens, file, hfile, hspans.1, hspans.2.2.1⟩

end Backtick
