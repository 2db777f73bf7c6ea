import Backtick.Proofs.Shape
import Backtick.Proofs.Validity
import Backtick.Variables.Store

/-!
# Stores that answer for unknown names

Bindings extend others if they give every answer that those give. A rendering that
succeeds asks only for what is answered, so it goes the same way, call by call, with
bindings that extend its own. A store that puts a value in the place of an unknown
name extends the one that refuses it, and a store that says nothing extends plain
values; its renderings fail only at a value without a length.
-/

namespace Backtick

/-! ## Bindings that answer more -/

/-- The second bindings give every answer that the first ones give. -/
structure Bindings.ExtendedBy (fn more : Bindings) : Prop where
  get : ∀ name v, fn.get name = .ok v → more.get name = .ok v
  length : ∀ v n, fn.length v = .ok n → more.length v = .ok n

/-- A computation that, if it succeeds with the first bindings, goes the same way with the
second. -/
def Carries {α : Type} (fn more : Bindings) (x : Bindings → Traced α) : Prop :=
  ∀ a, (x fn).outcome = .ok a → x more = x fn

namespace Carries

variable {α β : Type} {fn more : Bindings}

theorem done (outcome : Except Fault α) : Carries fn more fun _ => .done outcome :=
  fun _ _ => rfl

theorem mapFault {x : Bindings → Traced α} (h : Carries fn more x) (f : Fault → Fault) :
    Carries fn more fun bindings => (x bindings).mapFault f := by
  intro a ha
  dsimp only [Traced.mapFault] at ha
  cases houtcome : (x fn).outcome with
  | error fault =>
      rw [houtcome] at ha
      cases ha
  | ok b => exact congrArg (Traced.mapFault f) (h b houtcome)

theorem askGet (h : fn.ExtendedBy more) (name : Bytes) :
    Carries fn more fun bindings => bindings.askGet name := by
  intro a ha
  obtain ⟨v, hv, -⟩ := map_eq_ok_iff.mp ha
  simp only [Bindings.askGet, hv, h.get name v hv]

theorem askLength (h : fn.ExtendedBy more) (v : Value) :
    Carries fn more fun bindings => bindings.askLength v := by
  intro a ha
  obtain ⟨n, hn, -⟩ := map_eq_ok_iff.mp ha
  simp only [Bindings.askLength, hn, h.length v n hn]

theorem bind {x : Bindings → Traced α} {f : α → Bindings → Traced β} (hx : Carries fn more x)
    (hf : ∀ a, Carries fn more (f a)) :
    Carries fn more fun bindings => x bindings >>= fun a => f a bindings := by
  intro b hb
  dsimp only at hb ⊢
  cases houtcome : (x fn).outcome with
  | error fault =>
      rw [Traced.bind_of_error houtcome] at hb
      cases hb
  | ok a =>
      rw [Traced.bind_of_ok houtcome] at hb
      rw [hx a houtcome, Traced.bind_of_ok houtcome, Traced.bind_of_ok houtcome, hf a b hb]

end Carries

section

variable {fn more : Bindings} (h : fn.ExtendedBy more)
include h

theorem GetCall.carries (call : GetCall) : Carries fn more call.evaluate := by
  obtain ⟨span, name⟩ := call
  cases name with
  | none => exact .done _
  | some name => exact (Carries.askGet h name.value).mapFault _

theorem Expr.carries (e : Expr) : Carries fn more e.evaluate := by
  induction e with
  | string | number | boolean | missing => exact .done _
  | get call => exact call.carries h
  | length span arg =>
      cases arg with
      | none => exact .done _
      | some call => exact (call.carries h).bind fun v => (Carries.askLength h v.value).mapFault _
  | choose span test yes no ihtest ihyes ihno =>
      refine ihtest.bind fun c => ?_
      cases c.value.truthy with
      | true => exact ihyes
      | false => exact ihno
  | compare span left op right ihleft ihright =>
      exact ihleft.bind fun l => ihright.bind fun r => .done _

theorem Segment.carries (segment : Segment) : Carries fn more segment.evaluate := by
  cases segment with
  | text | missing => exact .done _
  | formula span value =>
      cases value with
      | none => exact .done _
      | some e => exact (e.carries h).bind fun r => .done _

theorem carries_renderSegments (segments : List Segment) :
    Carries fn more fun bindings => renderSegments bindings segments := by
  induction segments with
  | nil => exact .done _
  | cons segment rest ih =>
      exact (segment.carries h).bind fun v => ih.bind fun text => .done _

/-- A rendering that succeeds goes the same way with bindings that answer more. -/
theorem Template.carries (t : Template) : Carries fn more fun bindings => t.render bindings := by
  obtain ⟨file, names, source⟩ := t
  cases file with
  | none => exact .done _
  | some file => exact carries_renderSegments h file.segments

end

/-! ## Stores -/

def Policy.Lenient (policy : Policy) : Prop :=
  policy = .placeholder ∨ policy = .empty

namespace Store

theorem get_of_lookup {s : Store} {name : Bytes} {v : Value} (h : s.lookup name = some v) :
    s.get name = .ok v := by
  rw [get, h]

theorem lookup_of_get {values : Fields Value} {name : Bytes} {v : Value}
    (h : get ⟨values, .error⟩ name = .ok v) : values.get? name = some v := by
  unfold get lookup at h
  cases hfound : values.get? name with
  | none =>
      rw [hfound] at h
      cases h
  | some w =>
      rw [hfound] at h
      cases h
      rfl

/-- What a store that refuses unknown names answers, every store of its values answers. -/
theorem extendedBy_of_error (values : Fields Value) (policy : Policy) :
    (bindings ⟨values, .error⟩).ExtendedBy (bindings ⟨values, policy⟩) where
  get _ _ h := get_of_lookup (lookup_of_get h)
  length _ _ h := h

end Store

/-- A value that does not count as true and has a length has none. -/
theorem Value.length_eq_zero {v : Value} {n : Int} (htruthy : v.truthy = false)
    (h : v.length = .ok n) : n = 0 := by
  cases v with
  | null =>
      cases h
      rfl
  | string s =>
      cases s with
      | nil =>
          cases h
          simp [Utf8.count, Utf8.pieces]
      | cons b s => cases htruthy
  | bool | integer | double | single => cases h
  | _ => cases htruthy

namespace Store

/-- Plain values answer no more than the store that holds them and says nothing else. -/
theorem extendedBy_of_ofFields (values : Fields Value) :
    (Bindings.ofFields values).ExtendedBy (bindings ⟨values, .empty⟩) where
  get name v h := by
    cases h
    cases hfound : values.get? name with
    | some v => exact get_of_lookup hfound
    | none =>
        change get ⟨values, .empty⟩ name = .ok .null
        rw [get, lookup, hfound]
  length v n h := by
    change v.length = .ok n at h
    change (if v.truthy then v.length else .ok 0) = .ok n
    cases htruthy : v.truthy with
    | true => exact h
    | false =>
        rw [Value.length_eq_zero htruthy h]
        rfl

/-- A lenient store answers for every name. -/
theorem exists_get {s : Store} (h : s.policy.Lenient) (name : Bytes) :
    ∃ v, s.get name = .ok v := by
  unfold get
  cases s.lookup name with
  | some v => exact ⟨v, rfl⟩
  | none => rcases h with h | h <;> rw [h] <;> exact ⟨_, rfl⟩

end Store

/-- A length is refused only with the complaint that a value has none. -/
theorem Value.notSized_of_length {v : Value} {fault : Fault} (h : v.length = .error fault) :
    ∃ w, fault = notSized w := by
  fun_induction Value.length v with
  | case9 target ih => exact ih h
  | case11 v =>
      cases h
      exact ⟨v, rfl⟩
  | _ => cases h

theorem Store.notSized_of_length {v : Value} {fault : Fault}
    (h : Store.length v = .error fault) : ∃ w, fault = notSized w := by
  unfold Store.length at h
  split at h
  · exact Value.notSized_of_length h
  · cases h

/-- The rendering of a compiled template fails only where the bindings do. -/
theorem safe_render_of_compile {cancelled : Bool} {template : Bytes} {t : Template}
    (h : (compile cancelled template).outcome = .ok t) (fn : Bindings) :
    (t.render fn).Safe fn := by
  rcases compile_cases h with rfl | ⟨-, body, file, -, hcompiled⟩
  · exact .pure _
  · obtain ⟨toks, hderived⟩ := hcompiled.derived
    have hsound := SourceFile.sound_iff.mpr (SourceFile.emits_iff.mp hderived.emits)
    rw [hcompiled.render]
    exact safe_renderSegments fn hsound

/-- With a lenient store only a value without a length is complained of. -/
theorem notSized_of_blamed {s : Store} (hpolicy : s.policy.Lenient) {calls : List Call}
    {fault : Fault} (h : s.bindings.Blamed calls fault) :
    ∃ name column v, fault = evaluationFault name column (notSized v) := by
  obtain ⟨name, column, cause, call, rfl, -, hrefuses⟩ := h
  cases call with
  | get asked =>
      obtain ⟨v, hv⟩ := s.exists_get hpolicy asked
      cases hv.symm.trans hrefuses
  | length v =>
      obtain ⟨w, rfl⟩ := Store.notSized_of_length hrefuses
      exact ⟨name, column, w, rfl⟩

/--
The policies for unknown names simulate each other. What renders with a store that
refuses them renders to the same text with stores that answer for them, what renders
with plain values renders to the same text with a store that says nothing of unknown
names, and with a store that answers for them a rendering fails only because
a value has no length.
-/
theorem policies_simulate_refusal {cancelled : Bool} {template : Bytes} {t : Template}
    (h : (compile cancelled template).outcome = .ok t) (values : Fields Value) :
    (∀ text, (t.render (Store.bindings ⟨values, .error⟩)).outcome = .ok text →
      (t.render (Store.bindings ⟨values, .placeholder⟩)).outcome = .ok text ∧
      (t.render (Store.bindings ⟨values, .empty⟩)).outcome = .ok text) ∧
    (∀ text, (t.render (Bindings.ofFields values)).outcome = .ok text →
      (t.render (Store.bindings ⟨values, .empty⟩)).outcome = .ok text) ∧
    ∀ policy : Policy, policy.Lenient → ∀ fault,
      (t.render (Store.bindings ⟨values, policy⟩)).outcome = .error fault →
      ∃ name column v, fault = evaluationFault name column (notSized v) ∧
        fault.kinds = [.evaluation, .notSized] := by
  have hcarries {fn more : Bindings} (hmore : fn.ExtendedBy more) (text : Bytes)
      (htext : (t.render fn).outcome = .ok text) : (t.render more).outcome = .ok text := by
    have hsame : t.render more = t.render fn := t.carries hmore text htext
    rw [hsame, htext]
  refine ⟨fun text htext => ⟨?_, ?_⟩, ?_, ?_⟩
  · exact hcarries (Store.extendedBy_of_error values .placeholder) text htext
  · exact hcarries (Store.extendedBy_of_error values .empty) text htext
  · exact hcarries (Store.extendedBy_of_ofFields values)
  · intro policy hpolicy fault hfault
    have hblamed := safe_render_of_compile h _ fault hfault
    obtain ⟨name, column, v, rfl⟩ := notSized_of_blamed (s := ⟨values, policy⟩) hpolicy hblamed
    exact ⟨name, column, v, rfl, rfl⟩

/-- A template that asks for the length of a number if a variable is set. -/
def lengthText : Bytes :=
  "`$\x7bIF(GET('on'),LENGTH(GET('n')),GET('a'))\x7d`"

/-- Where the variable is false it renders with every store, and a truth value has no length. -/
theorem policies_simulate_refusal_sample :
    ∃ t : Template, (compile false lengthText).outcome = .ok t ∧
      (t.render (Store.bindings ⟨[("a", .string "x"), ("on", .bool false)], .error⟩)).outcome =
        .ok "x" ∧
      (t.render (Store.bindings ⟨[("a", .string "x"), ("on", .bool false)], .placeholder⟩)).outcome =
        .ok "x" ∧
      ∃ fault, (t.render (Store.bindings ⟨[("n", .bool true), ("on", .bool true)], .empty⟩)).outcome =
          .error fault ∧ fault.kinds = [.evaluation, .notSized] := by
  have hok : ((compile false lengthText).outcome.map fun t =>
      ((t.render (Store.bindings ⟨[("a", .string "x"), ("on", .bool false)], .error⟩)).outcome,
        (t.render (Store.bindings
          ⟨[("n", .bool true), ("on", .bool true)], .empty⟩)).outcome.isOk)) =
      .ok (.ok "x", false) := by cbv
  obtain ⟨t, ht, hpair⟩ := map_eq_ok_iff.mp hok
  obtain ⟨htext, hfails⟩ := Prod.mk.inj hpair
  obtain ⟨hlenient, -, -⟩ := policies_simulate_refusal ht [("a", .string "x"), ("on", .bool false)]
  obtain ⟨-, -, hfaults⟩ := policies_simulate_refusal ht [("n", .bool true), ("on", .bool true)]
  refine ⟨t, ht, htext, (hlenient _ htext).1, ?_⟩
  cases hfault :
      (t.render (Store.bindings ⟨[("n", .bool true), ("on", .bool true)], .empty⟩)).outcome with
  | ok text =>
      rw [hfault] at hfails
      cases hfails
  | error fault =>
      obtain ⟨_, _, _, -, hkinds⟩ := hfaults .empty (.inr rfl) fault hfault
      exact ⟨fault, rfl, hkinds⟩

end Backtick
