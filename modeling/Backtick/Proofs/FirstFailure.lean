import Mathlib
import Backtick.Proofs.Concatenation
import Backtick.Proofs.Tiling
import Backtick.Proofs.Validity

/-!
# The first call that fails

Rendering puts its questions in a fixed order: segments from the left, the test of `IF`
before the branch that it chooses, the left operand before the right one, and `GET`
before its `LENGTH`. It goes on while the bindings answer. At the first question they
refuse it stops, and the fault wraps theirs and names the node that asked.
-/

namespace Backtick

open Scan Parse

/-! ## Calls where they stand -/

/-- A call where it stands: the question, the variable that it is about, and the span of the node
that puts it. -/
structure CallSite where
  call : Call
  subject : Bytes
  span : Span

def Call.word : Call -> CallWord
  | .get _ => .get
  | .length _ => .length

def Call.node : Call -> NodeKind
  | .get _ => .getCall
  | .length _ => .lengthCall

def Bindings.Answers (fn : Bindings) : Call -> Prop
  | .get name => ∃ v, fn.get name = .ok v
  | .length v => ∃ n, fn.length v = .ok n

theorem Bindings.Refuses.not_answers {fn : Bindings} {cause : Fault} {call : Call}
    (h : fn.Refuses cause call) : ¬fn.Answers call := by
  cases call with
  | get name =>
      rintro ⟨v, hv⟩
      cases hv.symm.trans h
  | length v =>
      rintro ⟨n, hn⟩
      cases hn.symm.trans h

/-!
## The order of calls

Which branch of `IF` is asked depends on the answers, so the order is that of bindings whose
refusals are replaced by some answer. No site up to the first refusal depends on it.
-/

/-- The value of a variable; where the bindings refuse it, null. -/
def Bindings.valueOf (fn : Bindings) (name : Bytes) : Value :=
  (fn.get name).toOption.getD .null

def Bindings.lengthOf (fn : Bindings) (v : Value) : Int :=
  (fn.length v).toOption.getD 0

def GetCall.settled (fn : Bindings) (call : GetCall) : Reading :=
  ⟨fn.valueOf call.nameValue, some call.nameValue⟩

/-- What an expression comes to. -/
def Expr.settled (fn : Bindings) : Expr -> Reading
  | .string literal => .made (.string literal.value)
  | .number _ x => .made (.double x)
  | .boolean _ b => .made (.bool b)
  | .get call => call.settled fn
  | .length _ arg =>
      let v := arg.elim .null fun call => (call.settled fn).value
      .made (.double (Binary64.ofInt (fn.lengthOf v)))
  | .choose _ test yes no =>
      if (test.settled fn).value.truthy then yes.settled fn else no.settled fn
  | .compare _ left op right =>
      .made (.bool ((left.settled fn).compare op (right.settled fn)))
  | .missing => .made .null

def GetCall.site (call : GetCall) : CallSite :=
  ⟨.get call.nameValue, call.nameValue, call.span⟩

/-- The sites of an expression in the order of evaluation. -/
def Expr.sites (fn : Bindings) : Expr -> List CallSite
  | .get call => [call.site]
  | .length span (some call) =>
      [call.site, ⟨.length (call.settled fn).value, call.nameValue, span⟩]
  | .choose _ test yes no =>
      test.sites fn ++
        if (test.settled fn).value.truthy then yes.sites fn else no.sites fn
  | .compare _ left _ right => left.sites fn ++ right.sites fn
  | _ => []

def Segment.settled (fn : Bindings) : Segment -> Value
  | .text literal => .string literal.value
  | .formula _ value => value.elim (.string []) fun e => (e.settled fn).value
  | .missing => .null

def Segment.sites (fn : Bindings) : Segment -> List CallSite
  | .formula _ (some e) => e.sites fn
  | _ => []

def Template.sites (fn : Bindings) (t : Template) : List CallSite :=
  t.file.elim [] fun file => file.segments.flatMap (Segment.sites fn)

/-! ## Going through sites -/

/-- A computation that asks at sites in turn: it gives a result if all are answered, and else
stops at the first that is not. -/
inductive Traced.Follows {α : Type} (fn : Bindings) (sites : List CallSite) (result : α) :
    Traced α -> Prop
  | through (h : ∀ site ∈ sites, fn.Answers site.call) :
      Follows fn sites result ⟨sites.map CallSite.call, .ok result⟩
  | stops {before after : List CallSite} {site : CallSite} {cause : Fault}
      (hsites : sites = before ++ site :: after)
      (hbefore : ∀ site ∈ before, fn.Answers site.call) (hcause : fn.Refuses cause site.call) :
      Follows fn sites result ⟨(before ++ [site]).map CallSite.call,
        .error (evaluationFault site.subject site.span.start cause)⟩

namespace Traced.Follows

variable {α β : Type} {fn : Bindings}

theorem pure (a : α) : Follows fn [] a (Pure.pure a : Traced α) :=
  .through (by simp)

theorem bind {sites more : List CallSite} {a : α} {b : β} {x : Traced α} {f : α → Traced β}
    (hx : Follows fn sites a x) (hf : Follows fn more b (f a)) :
    Follows fn (sites ++ more) b (x >>= f) := by
  cases hx with
  | stops hsites hbefore hcause =>
      rw [bind_of_error rfl]
      exact .stops (by rw [hsites, List.append_assoc, List.cons_append]) hbefore hcause
  | through h =>
      rw [bind_of_ok rfl]
      generalize f a = y at hf
      cases hf with
      | through h' =>
          rw [← List.map_append]
          exact .through (List.forall_mem_append.mpr ⟨h, h'⟩)
      | stops hsites hbefore hcause =>
          rw [← List.map_append, ← List.append_assoc]
          exact .stops (by rw [hsites, List.append_assoc])
            (List.forall_mem_append.mpr ⟨h, hbefore⟩) hcause

theorem map {sites : List CallSite} {a : α} {x : Traced α} (hx : Follows fn sites a x)
    (k : α → β) : Follows fn sites (k a) (x >>= fun a => Pure.pure (k a)) := by
  have hmap := hx.bind (f := fun a => Pure.pure (k a)) (pure (k a))
  rwa [List.append_nil] at hmap

theorem askGet (name subject : Bytes) (span : Span) :
    Follows fn [⟨.get name, subject, span⟩] ⟨fn.valueOf name, some name⟩
      ((fn.askGet name).mapFault (evaluationFault subject span.start)) := by
  unfold Bindings.askGet Bindings.valueOf
  cases hget : fn.get name with
  | ok v => exact .through (List.forall_mem_singleton.mpr ⟨v, hget⟩)
  | error cause => exact .stops (List.nil_append _).symm (List.forall_mem_nil _) hget

theorem askLength (v : Value) (subject : Bytes) (span : Span) :
    Follows fn [⟨.length v, subject, span⟩] (.made (.double (Binary64.ofInt (fn.lengthOf v))))
      ((fn.askLength v).mapFault (evaluationFault subject span.start)) := by
  unfold Bindings.askLength Bindings.lengthOf
  cases hlength : fn.length v with
  | ok n => exact .through (List.forall_mem_singleton.mpr ⟨n, hlength⟩)
  | error cause => exact .stops (List.nil_append _).symm (List.forall_mem_nil _) hlength

end Traced.Follows

section Order

open Traced

variable (fn : Bindings) {template : Bytes} {toks : List Token}

theorem GetCall.Derived.follows {call : GetCall} (h : call.Derived template toks) :
    Follows fn [call.site] (call.settled fn) (call.evaluate fn) := by
  cases h with
  | mk => exact .askGet _ _ _

theorem Expr.Derived.follows {place : Grammar.Place} {e : Expr}
    (h : e.Derived template place toks) :
    Follows fn (e.sites fn) (e.settled fn) (e.evaluate fn) := by
  induction h with
  | string | number | yes | no => exact .pure _
  | get h => exact h.follows fn
  | length _ _ h _ => exact (h.follows fn).bind (.askLength _ _ _)
  | choose _ _ _ _ _ _ _ _ ihtest ihyes ihno =>
      refine ihtest.bind ?_
      rw [Expr.settled]
      split
      · exact ihyes
      · exact ihno
  | condition _ ih => exact ih
  | @comparison _ _ _ op left _ _ _ _ ihleft ihright =>
      exact ihleft.bind (ihright.map fun r => Reading.made (.bool ((left.settled fn).compare op r)))

theorem Segment.Derived.follows {segment : Segment} (h : segment.Derived template toks) :
    Follows fn (segment.sites fn) (segment.settled fn) (segment.evaluate fn) := by
  cases h with
  | text => exact .pure _
  | emptyFormula => exact .pure _
  | formula _ h _ => exact (h.follows fn).map Reading.value

theorem SegmentsDerived.follows {segments : List Segment}
    (h : SegmentsDerived template toks segments) :
    Follows fn (segments.flatMap (Segment.sites fn))
      (segments.flatMap fun segment => (segment.settled fn).text) (renderSegments fn segments) := by
  induction h with
  | nil => exact .pure _
  | cons hfirst _ ih => exact (hfirst.follows fn).bind (ih.map _)

/-! ## Where the calls stand -/

def Call.tokenKind : Call -> TokenKind
  | .get _ => .getWord
  | .length _ => .lengthWord

theorem Expr.mem_sites_choose {span : Span} {test yes no : Expr} {site : CallSite}
    (h : site ∈ (Expr.choose span test yes no).sites fn) :
    site ∈ test.sites fn ∨ site ∈ yes.sites fn ∨ site ∈ no.sites fn := by
  rw [Expr.sites, List.mem_append] at h
  refine h.imp_right fun hbranch => ?_
  split at hbranch
  · exact .inl hbranch
  · exact .inr hbranch

def CallSite.StartsIn (toks : List Token) (site : CallSite) : Prop :=
  ∃ t ∈ toks, t.kind = site.call.tokenKind ∧ site.span.start = t.start

theorem CallSite.StartsIn.mono {more : List Token} {site : CallSite} (h : site.StartsIn toks)
    (hmore : ∀ t ∈ toks, t ∈ more) : site.StartsIn more := by
  obtain ⟨t, ht, hstart⟩ := h
  exact ⟨t, hmore t ht, hstart⟩

theorem GetCall.Derived.startsIn {call : GetCall} (h : call.Derived template toks) :
    call.site.StartsIn toks := by
  cases h with
  | mk hword => exact ⟨_, List.mem_cons_self, hword, start_between _ _ _⟩

theorem Expr.Derived.startsIn {place : Grammar.Place} {e : Expr}
    (h : e.Derived template place toks) : ∀ site ∈ e.sites fn, site.StartsIn toks := by
  induction h with
  | string | number | yes | no => simp [Expr.sites]
  | get h => exact List.forall_mem_singleton.mpr h.startsIn
  | length hword _ h _ =>
      refine List.forall_mem_cons.mpr ⟨h.startsIn.mono ?_, List.forall_mem_singleton.mpr ?_⟩
      · simp +contextual
      · exact ⟨_, List.mem_cons_self, hword, start_between _ _ _⟩
  | choose _ _ _ _ _ _ _ _ ihtest ihyes ihno =>
      intro site hsite
      rcases Expr.mem_sites_choose fn hsite with hsite | hsite | hsite
      · exact (ihtest site hsite).mono (by simp +contextual)
      · exact (ihyes site hsite).mono (by simp +contextual)
      · exact (ihno site hsite).mono (by simp +contextual)
  | condition _ ih => exact ih
  | comparison _ _ _ ihleft ihright =>
      refine List.forall_mem_append.mpr ⟨fun site hsite => ?_, fun site hsite => ?_⟩
      · exact (ihleft site hsite).mono (by simp +contextual)
      · exact (ihright site hsite).mono (by simp +contextual)

/-- Each site of an expression is one of its nodes. -/
theorem Expr.sites_visit (e : Expr) :
    ∀ site ∈ e.sites fn, (site.call.node, site.span) ∈ e.visit fun _ => true := by
  induction e with
  | string | number | boolean | missing => simp [Expr.sites]
  | get call => exact List.forall_mem_singleton.mpr List.mem_cons_self
  | length span arg =>
      cases arg with
      | none => simp [Expr.sites]
      | some call =>
          simp [Expr.sites, GetCall.site, Expr.visit, GetCall.visit, visitNode, Call.node]
  | choose span test yes no ihtest ihyes ihno =>
      intro site hsite
      rw [Expr.visit, visitNode, if_pos rfl]
      rcases Expr.mem_sites_choose fn hsite with hsite | hsite | hsite
      · simp [ihtest site hsite]
      · simp [ihyes site hsite]
      · simp [ihno site hsite]
  | compare span left op right ihleft ihright =>
      intro site hsite
      rw [Expr.visit, visitNode, if_pos rfl]
      rcases List.mem_append.mp hsite with hsite | hsite
      · simp [ihleft site hsite]
      · simp [ihright site hsite]

theorem SourceFile.sites_visit {file : SourceFile} {segment : Segment}
    (hsegment : segment ∈ file.segments) :
    ∀ site ∈ segment.sites fn, (site.call.node, site.span) ∈ file.nodes := by
  intro site hsite
  have hnode : (site.call.node, site.span) ∈ segment.visit fun _ => true := by
    cases segment with
    | text | missing => cases hsite
    | formula span value =>
        cases value with
        | none => cases hsite
        | some e =>
            rw [Segment.visit, visitNode, if_pos rfl]
            exact List.mem_cons_of_mem _ (e.sites_visit fn site hsite)
  cases hbody : file.body with
  | none => simp [SourceFile.segments, hbody] at hsegment
  | some body =>
      rw [SourceFile.segments, hbody] at hsegment
      simp only [SourceFile.nodes, SourceFile.visit, TemplateBody.visit, visitNode, hbody, if_pos,
        Option.elim_some, List.mem_cons, List.mem_append, List.mem_flatMap]
      exact .inr (.inl (.inr ⟨segment, hsegment, hnode⟩))

end Order

theorem Call.text_of_ofWord {call : Call} {word : Bytes}
    (h : TokenKind.ofWord word = call.tokenKind) : word = call.word.text := by
  revert h
  unfold TokenKind.ofWord
  cases call <;> repeat' split
  all_goals simp_all [Call.tokenKind, Call.word, CallWord.text]

theorem Call.text_of_lexeme {call : Call} {kind : TokenKind} {lexeme rest : Bytes}
    (h : Lexeme kind lexeme rest) (hkind : kind = call.tokenKind) : lexeme = call.word.text := by
  cases h with
  | word => exact Call.text_of_ofWord hkind
  | _ => cases call <;> cases hkind

/-- A site whose column is in the template, where the word of its call stands. -/
def CallSite.StandsIn (template : Bytes) (site : CallSite) : Prop :=
  0 < site.span.start ∧ site.call.word.text <+: template.drop site.span.start.toNat

theorem CallSite.StartsIn.standsIn {template inner rest after : Bytes} {column : Nat}
    {lexed : List (TokenKind × Bytes)} {site : CallSite}
    (h : site.StartsIn (significant (placed column lexed))) (hcolumn : 0 < column)
    (hinner : Takes inner lexed rest) (hrest : rest ≠ [])
    (hplace : template.drop column = inner ++ after) : site.StandsIn template := by
  obtain ⟨t, ht, hkind, hstart⟩ := h
  have hmem := List.mem_of_mem_filter ht
  obtain ⟨_, -, hlexeme⟩ := hinner.lexeme hrest (mem_of_mem_placed hmem)
  obtain ⟨place, hplaced, -, hle, -, htake⟩ :=
    place_of_mem_placed (by rw [hinner.flatMap, hplace]) hmem
  rw [CallSite.StandsIn, hstart, hplaced, ← Call.text_of_lexeme hlexeme hkind, ← htake]
  exact ⟨by omega, List.take_prefix _ _⟩

theorem ValueDerived.startsIn {template : Bytes} {toks : List Token} {value : Option Expr}
    (h : ValueDerived template toks value) (fn : Bindings) (span : Span) :
    ∀ site ∈ (Segment.formula span value).sites fn, site.StartsIn toks := by
  cases h with
  | none => exact List.forall_mem_nil _
  | some h => exact h.startsIn fn

/-- The sites of a text stand in its template. -/
theorem Shape.standsIn {template body after : Bytes} {column : Nat} {segments : List Segment}
    (h : Shape template column body segments) (hcolumn : 0 < column)
    (hplace : template.drop column = body ++ after) (fn : Bindings) :
    ∀ site ∈ segments.flatMap (Segment.sites fn), site.StandsIn template := by
  induction h with
  | nil | text => simp [textAt, Segment.sites]
  | @formula column run inner rest lexed value segments hrun hinner hvalue _ ih =>
      obtain ⟨hinside, hbehind⟩ := drop_of_formula hplace
      refine List.forall_mem_append.mpr ⟨List.forall_mem_nil _, ?_⟩
      refine List.forall_mem_append.mpr ⟨fun site hsite => ?_, ih (by omega) hbehind⟩
      exact (hvalue.startsIn fn _ site hsite).standsIn (by omega) hinner (by simp) hinside

/-! ## Rendering fails at the first call that fails -/

def CallSite.IsNodeOf (t : Template) (site : CallSite) : Prop :=
  ∃ file, t.file = some file ∧ (site.call.node, site.span) ∈ file.nodes

theorem Compiled.sites {body : Bytes} {t : Template} {file : SourceFile}
    (h : Compiled body t file) (fn : Bindings) :
    t.sites fn = file.segments.flatMap (Segment.sites fn) := by
  rw [Template.sites, h.tree]
  rfl

/-- Rendering goes through the sites of a compiled template, and they are nodes that stand in it. -/
theorem follows_sites {cancelled : Bool} {template : Bytes} {t : Template}
    (h : (compile cancelled template).outcome = .ok t) (fn : Bindings) :
    (∃ out, Traced.Follows fn (t.sites fn) out (t.render fn)) ∧
      ∀ site ∈ t.sites fn, site.StandsIn template ∧ site.IsNodeOf t := by
  rcases compile_cases h with rfl | ⟨-, body, file, rfl, hfile⟩
  · exact ⟨⟨_, .pure _⟩, List.forall_mem_nil _⟩
  · rw [hfile.sites fn, hfile.render fn]
    constructor
    · obtain ⟨toks, hderived⟩ := hfile.derived
      cases hderived with
      | mk hbody _ => exact ⟨_, hbody.segments.follows fn⟩
    · intro site hsite
      refine ⟨hfile.shape.standsIn Nat.one_pos (drop_inBackticks body) fn site hsite, ?_⟩
      obtain ⟨segment, hsegment, hsite⟩ := List.mem_flatMap.mp hsite
      exact ⟨file, hfile.tree, file.sites_visit fn hsegment site hsite⟩

/--
If rendering fails, the fault wraps that of the first call that fails in the order of evaluation,
at the column of its node, where the word of the call stands. If no call fails, all are made and
rendering succeeds. This is so for all bindings, which are functions of what is asked: their
answers depend neither on the calls before nor on how often a call is made.
-/
theorem render_fails_at_first_failing_call {cancelled : Bool} {template : Bytes} {t : Template}
    (h : (compile cancelled template).outcome = .ok t) (fn : Bindings) :
    (∀ fault, (t.render fn).outcome = .error fault →
      ∃ before site after cause, t.sites fn = before ++ site :: after ∧
        (∀ s ∈ before, fn.Answers s.call) ∧ fn.Refuses cause site.call ∧
        (t.render fn).calls = (before ++ [site]).map CallSite.call ∧
        fault = ⟨.raised .evaluation site.span.start [("variable", .text site.subject)],
          cause.links⟩ ∧
        fault.column = site.span.start ∧ site.IsNodeOf t ∧
        site.call.word.text <+: template.drop fault.column.toNat) ∧
      ((∀ call ∈ (t.render fn).calls, fn.Answers call) →
        ∃ out, t.render fn = ⟨(t.sites fn).map CallSite.call, .ok out⟩) := by
  obtain ⟨⟨out, hfollows⟩, hsites⟩ := follows_sites h fn
  generalize t.render fn = run at hfollows ⊢
  cases hfollows with
  | through hall => exact ⟨by rintro _ ⟨⟩, fun _ => ⟨out, rfl⟩⟩
  | @stops before after site cause hsplit hbefore hcause =>
      obtain ⟨⟨hpos, hword⟩, hnode⟩ := hsites site (by simp [hsplit])
      have hcolumn := column_evaluationFault hpos site.subject cause
      constructor
      · rintro fault ⟨⟩
        exact ⟨before, site, after, cause, hsplit, hbefore, hcause, rfl, rfl, hcolumn, hnode,
          by rwa [hcolumn]⟩
      · intro hcalls
        exact absurd (hcalls site.call (by simp)) hcause.not_answers

/-- Bindings for which `x` is true, `z` fails, and no value has a length. -/
def refusing : Bindings where
  get name := if name = "z" then .error (Fault.ofKind .undefined) else .ok (.bool (name = "x"))
  length _ := .error (Fault.ofKind .notSized)

/-- The branch that is not chosen asks for `z`. -/
theorem render_fails_at_first_failing_call_sample :
    ∃ t : Template,
      (compile false "`$\x7bIF(GET('x'), LENGTH(GET('y')), GET('z'))\x7d`").outcome = .ok t ∧
      ∃ fault, (t.render refusing).outcome = .error fault ∧ fault.column = 16 ∧
        ∃ before site after cause, t.sites refusing = before ++ site :: after ∧
          (∀ s ∈ before, refusing.Answers s.call) ∧ refusing.Refuses cause site.call ∧
          fault.causes = cause.links ∧ site.span.start = 16 := by
  have hrun : ((compile false "`$\x7bIF(GET('x'), LENGTH(GET('y')), GET('z'))\x7d`").outcome.map
      fun t => (t.render refusing).outcome) =
        .ok (.error (evaluationFault "y" 16 (Fault.ofKind .notSized))) := by cbv
  obtain ⟨t, ht, hfault⟩ := map_eq_ok_iff.mp hrun
  obtain ⟨before, site, after, cause, hsites, hbefore, hcause, -, hshape, hcolumn, -⟩ :=
    (render_fails_at_first_failing_call ht refusing).1 _ hfault
  exact ⟨t, ht, _, hfault, rfl, before, site, after, cause, hsites, hbefore, hcause,
    congrArg Fault.causes hshape, hcolumn.symm⟩

end Backtick
