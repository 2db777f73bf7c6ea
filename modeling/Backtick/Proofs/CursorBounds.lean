import Mathlib
import Backtick.Proofs.Turns

/-!
# The cursor stays in the text

Whatever is done to an input field, its cursor stands before a character of the text or
at its end. So a text that a field holds, put back with its cursor, is the same input
as before.
-/

namespace Backtick

namespace Field

/-- The cursor stands in the text, or at its end. -/
def CursorIn (f : Field) : Prop :=
  f.cursor ≤ f.value.length

theorem cursorIn_new (width : Int) : (new width).CursorIn :=
  Nat.le_refl 0

theorem CursorIn.scroll {f : Field} (h : f.CursorIn) : f.scroll.CursorIn := by
  rwa [CursorIn, cursor_scroll, value_scroll]

theorem cursorIn_moveTo (f : Field) (position : Nat) : (f.moveTo position).CursorIn := by
  rw [CursorIn, cursor_moveTo, value_moveTo]
  exact Nat.min_le_right _ _

theorem cursorIn_setText (f : Field) (text : Bytes) : (f.setText text).CursorIn := by
  unfold setText setChars
  dsimp only
  split
  · exact (cursorIn_moveTo _ _).scroll
  · rename_i hkeep
    rw [Bool.or_eq_true, not_or, decide_eq_true_eq, Nat.not_lt] at hkeep
    exact CursorIn.scroll hkeep.2

theorem CursorIn.insert {f : Field} (h : f.CursorIn) (cs : List Char) :
    (f.insert cs).CursorIn := by
  refine CursorIn.scroll ?_
  simp only [CursorIn, List.length_append, List.length_take, List.length_drop] at h ⊢
  omega

theorem CursorIn.removeAhead {f : Field} (h : f.CursorIn) :
    CursorIn { f with value := f.value.take f.cursor ++ f.value.drop (f.cursor + 1) } := by
  simp only [CursorIn, List.length_append, List.length_take, List.length_drop] at h ⊢
  omega

theorem CursorIn.removeWordBack {f : Field} (h : f.CursorIn) : f.removeWordBack.CursorIn := by
  unfold Field.removeWordBack
  split
  · exact h
  · refine CursorIn.scroll ?_
    simp only [CursorIn, cursor_moveTo, value_moveTo, List.length_append, List.length_take]
    omega

theorem CursorIn.act {f : Field} (h : f.CursorIn) (action : Action) : (f.act action).CursorIn := by
  cases action with
  | left | right | wordLeft | wordRight | home | finish | removeRest | removeStart =>
      exact cursorIn_moveTo _ _
  | removeBack =>
      rw [Field.act]
      split
      · exact h
      · exact cursorIn_moveTo _ _
  | removeAhead => exact h.removeAhead.scroll
  | removeWordBack => exact h.removeWordBack
  | removeWordAhead =>
      rw [Field.act, Field.removeWordAhead]
      split
      · exact cursorIn_moveTo _ _
      · exact h
  | nothing => exact h

theorem CursorIn.press {f : Field} (h : f.CursorIn) (name : Bytes) (cs : List Char) :
    (f.press name cs).CursorIn := by
  unfold Field.press
  split
  · exact (h.act _).scroll
  · exact (h.insert cs).scroll

end Field

namespace Session

/-! ## What leaves the field as it is -/

/-- A choice between two sessions leaves the field as it is, if both do. -/
theorem field_ite {α : Type} {s : Session} {p : Prop} [Decidable p] {r r' : Session × α}
    (h : r.1.field = s.field) (h' : r'.1.field = s.field) :
    (if p then r else r').1.field = s.field := by
  split
  · exact h
  · exact h'

theorem field_setVariable (s : Session) (assignment : Bytes) :
    (s.setVariable assignment).1.field = s.field := by
  unfold setVariable
  split <;> rfl

theorem field_unsetVariable (s : Session) (name : Bytes) :
    (s.unsetVariable name).1.field = s.field := by
  unfold unsetVariable
  split <;> rfl

theorem field_selectEngine (s : Session) (word : Bytes) :
    (s.selectEngine word).1.field = s.field :=
  field_ite rfl (field_ite rfl rfl)

theorem field_run (s : Session) (name argument : Bytes) :
    (s.run name argument).1.field = s.field := by
  unfold run
  exact field_ite rfl <| field_ite rfl <| field_ite (s.field_setVariable argument) <|
    field_ite (s.field_unsetVariable argument) <| field_ite (s.field_selectEngine argument) <|
    field_ite rfl <| field_ite rfl <| field_ite rfl rfl

theorem field_enterCommand (s : Session) (input : Bytes) :
    (s.enterCommand input).1.field = s.field := by
  unfold enterCommand
  dsimp only
  refine field_ite rfl (field_ite rfl (field_ite rfl ?_))
  have hrun := s.field_run ((Bytes.cut? ' '.toUInt8 input).getD (input, [])).1
    (Text.trim ((Bytes.cut? ' '.toUInt8 input).getD (input, [])).2)
  split <;> rename_i heq <;> rwa [heq] at hrun

theorem field_enterTemplate (s : Session) (input : Bytes) :
    (s.enterTemplate input).1.field = s.field := by
  have hrender : (s.render input).1.field = s.field := rfl
  unfold enterTemplate
  dsimp only
  split <;> rename_i heq <;> rwa [heq] at hrender

/-! ## What a session does to its field -/

variable {s : Session}

theorem cursorIn_setInput (s : Session) (d : Draft) : (s.setInput d).field.CursorIn :=
  Field.cursorIn_moveTo _ _

theorem cursorIn_replaceWord (s : Session) (name : Bytes) : (s.replaceWord name).field.CursorIn :=
  Field.cursorIn_moveTo _ _

theorem cursorIn_enter (h : s.field.CursorIn) : s.enter.1.field.CursorIn := by
  have hcleared := Field.cursorIn_setText s.field []
  unfold enter
  dsimp only
  split
  · exact h
  · split
    · rwa [field_enterCommand]
    · rwa [field_enterTemplate]

theorem cursorIn_cycle (h : s.field.CursorIn) (forward : Bool) :
    (s.cycle forward).field.CursorIn := by
  unfold cycle
  split
  · exact h
  · exact cursorIn_replaceWord _ _
  · dsimp only
    split
    · exact cursorIn_replaceWord _ _
    · exact h

theorem cursorIn_walk (h : s.field.CursorIn) (d : Direction) (sameMode : Bool) :
    (s.walk d sameMode).field.CursorIn := by
  unfold walk
  dsimp only
  split
  · exact cursorIn_setInput _ _
  · split
    · exact cursorIn_setInput _ _
    · exact h

theorem cursorIn_setAside (h : s.field.CursorIn) : s.setAside.field.CursorIn := by
  unfold setAside
  split
  · exact h
  · dsimp only
    split
    · exact h
    · exact cursorIn_setInput _ _

theorem cursorIn_takeBack (h : s.field.CursorIn) : s.takeBack.field.CursorIn := by
  unfold takeBack
  split
  · exact h
  · exact cursorIn_setInput _ _

theorem cursorIn_walkCommands (h : s.field.CursorIn) (d : Direction) :
    (s.walkCommands d).field.CursorIn := by
  unfold walkCommands
  dsimp only
  split
  · exact cursorIn_setInput _ _
  · exact cursorIn_takeBack (cursorIn_setAside h)

theorem cursorIn_press (h : s.field.CursorIn) (k : KeyPress) : (s.press k).1.field.CursorIn := by
  obtain ⟨key, alt⟩ := k
  cases key with
  | enter =>
      simp only [press]
      split
      · rwa [field_refresh]
      · exact cursorIn_enter h
  | tab | backTab => exact cursorIn_cycle h _
  | up | down =>
      simp only [press]
      split
      · exact cursorIn_walkCommands h _
      · exact cursorIn_walk h _ _
  | shiftUp | shiftDown => exact cursorIn_walk h _ _
  | escape =>
      simp only [press]
      split
      · exact cursorIn_setInput _ _
      · exact cursorIn_setInput _ _
  | interrupt =>
      simp only [press]
      split
      · exact h
      · exact Field.cursorIn_setText _ _
  | finish =>
      simp only [press]
      split
      · exact h
      · exact h
  | space | typed cs | other name =>
      simp only [press, edit, field_refresh]
      exact h.press _ _

theorem cursorIn_after (h : s.field.CursorIn) (e : Event) : (s.after e).field.CursorIn := by
  cases e with
  | key k => exact cursorIn_press h k
  | resize width => exact h
  | edited ending => cases ending <;> exact h

/-- In every state of a session the cursor stands in the text. -/
theorem cursorIn_afterAll (h : s.field.CursorIn) (events : List Event) :
    (s.afterAll events).field.CursorIn := by
  induction events generalizing s with
  | nil => exact h
  | cons e events ih => exact ih (cursorIn_after h e)

end Session

end Backtick
