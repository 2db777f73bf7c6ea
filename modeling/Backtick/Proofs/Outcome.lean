import Mathlib
import Backtick.Template.Evaluate

/-!
# Outcomes

How outcomes are put together: binding an `Except` and binding a `Traced`
computation. Two computations are related if they put the same questions to the
bindings and either yield the same result or fail with related faults.
-/

namespace Backtick

theorem bind_eq_ok_iff {ε α β : Type} {x : Except ε α} {f : α → Except ε β} {b : β} :
    x >>= f = .ok b ↔ ∃ a, x = .ok a ∧ f a = .ok b := by
  rcases x with e | a <;> simp [bind, Except.bind]

theorem exists_bind_eq_ok {ε α β : Type} {x : Except ε α} {f : α → Except ε β} :
    (∃ b, x >>= f = .ok b) ↔ ∃ a, x = .ok a ∧ ∃ b, f a = .ok b := by
  cases x <;> simp [bind, Except.bind]

theorem map_eq_ok_iff {ε α β : Type} {x : Except ε α} {f : α → β} {b : β} :
    x.map f = .ok b ↔ ∃ a, x = .ok a ∧ f a = b := by
  rcases x with e | a <;> simp [Except.map]

theorem exists_ok {ε α : Type} {x : Except ε α} (h : x.isOk) : ∃ a, x = .ok a := by
  cases x with
  | error e => cases h
  | ok a => exact ⟨a, rfl⟩

@[simp] theorem ok_bind {ε α β : Type} (a : α) (f : α → Except ε β) :
    ((.ok a : Except ε α) >>= f) = f a := rfl

namespace Traced

variable {α β : Type}

theorem bind_of_ok {x : Traced α} {a : α} (h : x.outcome = .ok a) (f : α → Traced β) :
    x >>= f = ⟨x.calls ++ (f a).calls, (f a).outcome⟩ := by
  simp only [bind, h]

theorem bind_of_error {x : Traced α} {fault : Fault} (h : x.outcome = .error fault)
    (f : α → Traced β) : x >>= f = ⟨x.calls, .error fault⟩ := by
  simp only [bind, h]

@[simp] theorem pure_bind (a : α) (f : α → Traced β) : (pure a : Traced α) >>= f = f a := by
  rw [bind_of_ok rfl]
  simp [pure, done]

@[simp] theorem bind_pure (x : Traced α) : (x >>= fun a => (pure a : Traced α)) = x := by
  obtain ⟨calls, outcome⟩ := x
  cases outcome with
  | error fault => rfl
  | ok a =>
      rw [bind_of_ok rfl]
      simp [pure, done]

theorem bind_assoc {γ : Type} (x : Traced α) (f : α → Traced β) (g : β → Traced γ) :
    x >>= f >>= g = x >>= fun a => f a >>= g := by
  cases hx : x.outcome with
  | error fault => rw [bind_of_error hx, bind_of_error rfl, bind_of_error hx]
  | ok a =>
      rw [bind_of_ok hx, bind_of_ok hx]
      cases hf : (f a).outcome with
      | error fault => rw [bind_of_error rfl, bind_of_error hf]
      | ok b => rw [bind_of_ok rfl, bind_of_ok hf, List.append_assoc]

inductive SameOutcome (R : Fault → Fault → Prop) : Except Fault α → Except Fault α → Prop
  | ok (a : α) : SameOutcome R (.ok a) (.ok a)
  | error {f g : Fault} (h : R f g) : SameOutcome R (.error f) (.error g)

/-- The same questions in the same order, with the same outcome up to related faults. -/
structure Related (R : Fault → Fault → Prop) (x y : Traced α) : Prop where
  calls : x.calls = y.calls
  outcome : SameOutcome R x.outcome y.outcome

theorem Related.pure {R : Fault → Fault → Prop} (a : α) :
    Related R (Pure.pure a : Traced α) (Pure.pure a) :=
  ⟨rfl, .ok a⟩

theorem Related.bind {R : Fault → Fault → Prop} {x y : Traced α} {f g : α → Traced β}
    (h : Related R x y) (hfg : ∀ a, Related R (f a) (g a)) :
    Related R (x >>= f) (y >>= g) := by
  obtain ⟨hcalls, houtcome⟩ := h
  cases hx : x.outcome with
  | ok a =>
      cases hy : y.outcome with
      | ok b =>
          rw [hx, hy] at houtcome
          cases houtcome
          rw [bind_of_ok hx, bind_of_ok hy]
          exact ⟨by rw [hcalls, (hfg a).calls], (hfg a).outcome⟩
      | error fault =>
          rw [hx, hy] at houtcome
          cases houtcome
  | error fault =>
      cases hy : y.outcome with
      | ok b =>
          rw [hx, hy] at houtcome
          cases houtcome
      | error fault' =>
          rw [hx, hy] at houtcome
          cases houtcome with
          | error hR =>
              rw [bind_of_error hx, bind_of_error hy]
              exact ⟨hcalls, .error hR⟩

theorem SameOutcome.imp {R S : Fault → Fault → Prop} {x y : Except Fault α}
    (h : SameOutcome R x y) (himp : ∀ f g, R f g → S f g) : SameOutcome S x y := by
  cases h with
  | ok a => exact .ok a
  | error h => exact .error (himp _ _ h)

theorem Related.imp {R S : Fault → Fault → Prop} {x y : Traced α} (h : Related R x y)
    (himp : ∀ f g, R f g → S f g) : Related S x y :=
  ⟨h.calls, h.outcome.imp himp⟩

/-- As `Related.bind`, where the second computation gives what the first one's result is made of. -/
theorem Related.bind_map {R : Fault → Fault → Prop} {γ : Type} {x : Traced α} {y : Traced γ}
    {k : γ → α} {f : α → Traced β} {g : γ → Traced β}
    (h : Related R x (y >>= fun c => Pure.pure (k c))) (hfg : ∀ c, Related R (f (k c)) (g c)) :
    Related R (x >>= f) (y >>= g) := by
  obtain ⟨hcalls, houtcome⟩ := h
  cases hy : y.outcome with
  | error fault =>
      rw [bind_of_error hy] at hcalls houtcome
      cases hx : x.outcome with
      | ok a => rw [hx] at houtcome; cases houtcome
      | error fault' =>
          rw [hx] at houtcome
          cases houtcome with
          | error hR =>
              rw [bind_of_error hx, bind_of_error hy]
              exact ⟨hcalls, .error hR⟩
  | ok c =>
      rw [bind_of_ok hy] at hcalls houtcome
      cases hx : x.outcome with
      | error fault => rw [hx] at houtcome; cases houtcome
      | ok a =>
          rw [hx] at houtcome
          cases houtcome
          rw [bind_of_ok hx, bind_of_ok hy, hcalls]
          refine ⟨?_, (hfg c).outcome⟩
          rw [(hfg c).calls]
          simp [Pure.pure, done]

end Traced

end Backtick
