import Backtick.Proofs.Shape

/-!
# What a rendering learns of the variables

A rendering asks for variables in the order in which the template names them, and
for no others; of the bindings it learns the answers to what it asks, and no more.
Both are closed under binding, so that one induction on the tree shows them of
every expression, also of one that cannot be rendered.
-/

namespace Backtick

def Call.variable? : Call → Option Bytes
  | .get name => some name
  | .length _ => none

def Traced.asked {α : Type} (x : Traced α) : List Bytes :=
  x.calls.filterMap Call.variable?

structure Bindings.AgreeOn (names : List Bytes) (fn fn' : Bindings) : Prop where
  length : fn.length = fn'.length
  get : ∀ name ∈ names, fn.get name = fn'.get name

theorem Bindings.AgreeOn.of_sublist {names more : List Bytes} {fn fn' : Bindings}
    (h : AgreeOn more fn fn') (hsub : names.Sublist more) : AgreeOn names fn fn' :=
  ⟨h.length, fun name hname => h.get name (hsub.subset hname)⟩

/--
A computation that asks for some of the given names, in their order, and that two
bindings can tell apart only by their answers to what it asks.
-/
structure AsksWithin {α : Type} (names : List Bytes) (x : Bindings → Traced α) : Prop where
  asked : ∀ fn, (x fn).asked.Sublist names
  congr : ∀ {fn fn'}, fn.AgreeOn (x fn).asked fn' → x fn = x fn'

namespace AsksWithin

variable {α β : Type} {names more : List Bytes}

theorem done (outcome : Except Fault α) : AsksWithin names fun _ => .done outcome :=
  ⟨fun _ => names.nil_sublist, fun _ => rfl⟩

theorem mono {x : Bindings → Traced α} (h : AsksWithin names x) (hsub : names.Sublist more) :
    AsksWithin more x :=
  ⟨fun fn => (h.asked fn).trans hsub, h.congr⟩

theorem mapFault {x : Bindings → Traced α} (h : AsksWithin names x) (f : Fault → Fault) :
    AsksWithin names fun fn => (x fn).mapFault f :=
  ⟨h.asked, fun hagree => congrArg (Traced.mapFault f) (h.congr hagree)⟩

theorem askGet (name : Bytes) : AsksWithin [name] fun fn => fn.askGet name := by
  refine ⟨fun fn => List.Sublist.refl [name], fun {fn fn'} hagree => ?_⟩
  have hget : fn.get name = fn'.get name := hagree.get name (List.mem_singleton_self name)
  simp only [Bindings.askGet, hget]

theorem askLength (v : Value) : AsksWithin [] fun fn => fn.askLength v := by
  refine ⟨fun fn => List.Sublist.refl [], fun {fn fn'} hagree => ?_⟩
  simp only [Bindings.askLength, hagree.length]

theorem bind {x : Bindings → Traced α} {f : α → Bindings → Traced β}
    (hx : AsksWithin names x) (hf : ∀ a, AsksWithin more (f a)) :
    AsksWithin (names ++ more) fun fn => x fn >>= fun a => f a fn := by
  refine ⟨fun fn => ?_, fun {fn fn'} hagree => ?_⟩
  · cases houtcome : (x fn).outcome with
    | error fault =>
        rw [Traced.bind_of_error houtcome]
        exact (hx.asked fn).trans (List.sublist_append_left names more)
    | ok a =>
        rw [Traced.bind_of_ok houtcome, Traced.asked, List.filterMap_append]
        exact (hx.asked fn).append ((hf a).asked fn)
  · cases houtcome : (x fn).outcome with
    | error fault =>
        rw [Traced.bind_of_error houtcome] at hagree
        rw [← hx.congr hagree, Traced.bind_of_error houtcome, Traced.bind_of_error houtcome]
    | ok a =>
        -- What the first computation asks comes first among all that is asked.
        rw [Traced.bind_of_ok houtcome, Traced.asked, List.filterMap_append] at hagree
        have hfirst := hx.congr (hagree.of_sublist (List.sublist_append_left _ _))
        have hthen := (hf a).congr (hagree.of_sublist (List.sublist_append_right _ _))
        rw [← hfirst, Traced.bind_of_ok houtcome, Traced.bind_of_ok houtcome, hthen]

end AsksWithin

theorem GetCall.asksWithin (call : GetCall) : AsksWithin call.names call.evaluate := by
  obtain ⟨span, name⟩ := call
  cases name with
  | none => exact .done _
  | some name => exact (AsksWithin.askGet name.value).mapFault _

/-- An expression asks for the names it holds: for all of them but those of skipped branches. -/
theorem Expr.asksWithin (e : Expr) : AsksWithin e.names e.evaluate := by
  induction e with
  | string literal => exact .done _
  | number span x => exact .done _
  | boolean span b => exact .done _
  | get call => exact call.asksWithin
  | length span arg =>
      cases arg with
      | none => exact .done _
      | some call =>
          rw [show (Expr.length span (some call)).names = call.names ++ [] from
            (List.append_nil call.names).symm]
          exact call.asksWithin.bind fun v => (AsksWithin.askLength v.value).mapFault _
  | choose span test yes no ihtest ihyes ihno =>
      rw [Expr.names, List.append_assoc]
      refine ihtest.bind fun c => ?_
      cases c.value.truthy with
      | true => exact ihyes.mono (List.sublist_append_left _ _)
      | false => exact ihno.mono (List.sublist_append_right _ _)
  | compare span left op right ihleft ihright =>
      rw [Expr.names, ← List.append_nil right.names]
      exact ihleft.bind fun l => ihright.bind fun r => .done _
  | missing => exact .done _

theorem Segment.asksWithin (segment : Segment) : AsksWithin segment.names segment.evaluate := by
  cases segment with
  | text literal => exact .done _
  | formula span value =>
      cases value with
      | none => exact .done _
      | some e =>
          rw [show (Segment.formula span (some e)).names = e.names ++ [] from
            (List.append_nil e.names).symm]
          exact e.asksWithin.bind fun r => .done _
  | missing => exact .done _

theorem asksWithin_renderSegments (segments : List Segment) :
    AsksWithin (segments.flatMap Segment.names) fun fn => renderSegments fn segments := by
  induction segments with
  | nil => exact .done _
  | cons segment rest ih =>
      rw [List.flatMap_cons, ← List.append_nil (rest.flatMap Segment.names)]
      exact segment.asksWithin.bind fun v => ih.bind fun more => .done _

theorem asksWithin_of_compile {cancelled : Bool} {template : Bytes} {t : Template}
    (h : (compile cancelled template).outcome = .ok t) : AsksWithin t.names t.render := by
  rcases compile_cases h with rfl | ⟨-, body, file, -, hcompiled⟩
  · exact .done _
  · rw [hcompiled.names]
    have hrender : t.render = fun fn => renderSegments fn file.segments :=
      funext hcompiled.render
    rw [hrender]
    exact asksWithin_renderSegments file.segments

/--
A rendering depends on the names that the template reports and on nothing else,
and asks for them in the order in which they are reported.
-/
theorem render_depends_on_reported_names {cancelled : Bool} {template : Bytes} {t : Template}
    (h : (compile cancelled template).outcome = .ok t) :
    (∀ fn fn' : Bindings, fn.length = fn'.length →
      (∀ name ∈ t.names, fn.get name = fn'.get name) → t.render fn = t.render fn') ∧
    ∀ fn, (t.render fn).asked.Sublist t.names := by
  have hwithin := asksWithin_of_compile h
  refine ⟨fun fn fn' hlength hget => ?_, hwithin.asked⟩
  have hagree : fn.AgreeOn t.names fn' := ⟨hlength, hget⟩
  exact hwithin.congr (hagree.of_sublist (hwithin.asked fn))

/-- Bindings that differ on a name which the template does not mention. -/
theorem render_depends_on_reported_names_sample :
    ∃ t : Template,
      (compile false "`$\x7bIF(GET('a'), LENGTH(GET('b')), GET('c'))\x7d`").outcome = .ok t ∧
      t.names = ["a", "b", "c"] ∧
      t.render ⟨fun _ => .ok .null, Value.length⟩ =
        t.render ⟨fun name => .ok (if name = "z" then .bool true else .null), Value.length⟩ ∧
      (t.render ⟨fun _ => .ok .null, Value.length⟩).asked.Sublist ["a", "b", "c"] := by
  have hok : ((compile false "`$\x7bIF(GET('a'), LENGTH(GET('b')), GET('c'))\x7d`").outcome.map
      Template.names) = .ok ["a", "b", "c"] := by cbv
  obtain ⟨t, ht, hnames⟩ := map_eq_ok_iff.mp hok
  have hboth := render_depends_on_reported_names ht
  rw [hnames] at hboth
  refine ⟨t, ht, hnames, hboth.1 _ _ rfl fun name hname => ?_, hboth.2 _⟩
  have hne : name ≠ "z" := by
    rintro rfl
    revert hname
    decide
  simp only [if_neg hne]

end Backtick
