import Mathlib
import Backtick.Proofs.InputField
import Backtick.Session.Editor

/-!
# What an event does to the input

A session reacts to keys, to a new width and to the end of an editing of its
variables. An event that tries out no name leaves the input and its word as they
are, or takes the names off, or looks for names anew. What is tried out goes on only
if it had begun before.
-/

namespace Backtick

inductive Event
  | key (k : KeyPress)
  | resize (width : Int)
  | edited (ending : Editing.Ending)

/-- The direction in which an event tries out a name, if it does. -/
def Event.tries? : Event -> Option Bool
  | .key ⟨.tab, _⟩ => some true
  | .key ⟨.backTab, _⟩ => some false
  | _ => none

namespace Session

def after (s : Session) : Event -> Session
  | .key k => (s.press k).1
  | .resize width => s.resize width
  | .edited ending => (s.edited ending).1

def afterAll (s : Session) (events : List Event) : Session :=
  events.foldl after s

/-! ## What an event does to the word -/

structure Keeps (s t : Session) : Prop where
  value : t.field.value = s.field.value
  found : t.found = s.found
  word : t.word = s.word
  selected : t.selected = s.selected
  cycling : t.cycling = s.cycling

theorem Keeps.refl (s : Session) : s.Keeps s := ⟨rfl, rfl, rfl, rfl, rfl⟩

theorem keeps_setVariable (s : Session) (assignment : Bytes) :
    s.Keeps (s.setVariable assignment).1 := by
  unfold setVariable
  split
  · exact .refl s
  · exact ⟨rfl, rfl, rfl, rfl, rfl⟩

theorem keeps_unsetVariable (s : Session) (name : Bytes) : s.Keeps (s.unsetVariable name).1 := by
  unfold unsetVariable
  split
  · exact ⟨rfl, rfl, rfl, rfl, rfl⟩
  · exact .refl s

theorem keeps_selectEngine (s : Session) (word : Bytes) : s.Keeps (s.selectEngine word).1 := by
  unfold selectEngine
  split
  · exact .refl s
  · split
    · exact ⟨rfl, rfl, rfl, rfl, rfl⟩
    · exact .refl s

theorem keeps_inspect (s : Session) (aspect : Aspect) (input : Bytes) :
    s.Keeps (s.inspect aspect input).1 :=
  ⟨rfl, rfl, rfl, rfl, rfl⟩

/-- A choice between two sessions keeps what both keep. -/
theorem Keeps.ite {α : Type} {s : Session} {p : Prop} [Decidable p] {r r' : Session × α}
    (h : s.Keeps r.1) (h' : s.Keeps r'.1) : s.Keeps (if p then r else r').1 := by
  split
  · exact h
  · exact h'

theorem keeps_run (s : Session) (name argument : Bytes) : s.Keeps (s.run name argument).1 := by
  have hself := Keeps.refl s
  unfold run
  exact hself.ite <| hself.ite <| (s.keeps_setVariable argument).ite <|
    (s.keeps_unsetVariable argument).ite <| (s.keeps_selectEngine argument).ite <|
    (s.keeps_inspect .tokens argument).ite <| (s.keeps_inspect .tree argument).ite <|
    (s.keeps_inspect .script argument).ite hself

theorem keeps_enterCommand (s : Session) (input : Bytes) :
    s.Keeps (s.enterCommand input).1 := by
  unfold enterCommand
  dsimp only
  refine Keeps.ite ⟨rfl, rfl, rfl, rfl, rfl⟩ (Keeps.ite (.refl s) (Keeps.ite (.refl s) ?_))
  have hrun := s.keeps_run ((Bytes.cut? ' '.toUInt8 input).getD (input, [])).1
    (Text.trim ((Bytes.cut? ' '.toUInt8 input).getD (input, [])).2)
  split <;> rename_i heq <;> rwa [heq] at hrun

theorem keeps_render (s : Session) (input : Bytes) : s.Keeps (s.render input).1 :=
  ⟨rfl, rfl, rfl, rfl, rfl⟩

theorem keeps_enterTemplate (s : Session) (input : Bytes) :
    s.Keeps (s.enterTemplate input).1 := by
  have hrender := s.keeps_render input
  unfold enterTemplate
  dsimp only
  split <;> rename_i heq <;> rwa [heq] at hrender

/-- Names that are tried out in a session were so before, and the same one is selected. -/
def GoesOn (s t : Session) : Prop :=
  t.cycling = true → s.cycling = true ∧ t.selected = s.selected

theorem GoesOn.trans {s t u : Session} (hst : s.GoesOn t) (htu : t.GoesOn u) : s.GoesOn u := by
  intro hcycling
  obtain ⟨ht, hselected⟩ := htu hcycling
  exact ⟨(hst ht).1, hselected.trans (hst ht).2⟩

theorem Keeps.clean {s t : Session} (h : s.Keeps t) (hclean : s.field.Clean) : t.field.Clean :=
  hclean.of_sublist (by rw [h.value])

theorem Keeps.goesOn {s t : Session} (h : s.Keeps t) : s.GoesOn t :=
  fun hcycling => ⟨h.cycling ▸ hcycling, h.selected⟩

/-! ## Looking for names -/

theorem refresh_true (s : Session) : s.refresh true = (s.refresh false).confirm := rfl

theorem field_confirm (s : Session) : s.confirm.field = s.field := by
  unfold confirm
  split
  · split <;> rfl
  · rfl

theorem word_confirm (s : Session) : s.confirm.word = s.word := by
  unfold confirm
  split
  · split <;> rfl
  · rfl

theorem goesOn_confirm (s : Session) : s.GoesOn s.confirm := by
  unfold confirm
  split
  · split
    · exact fun hcycling => absurd hcycling Bool.false_ne_true
    · exact (Keeps.refl s).goesOn
  · exact (Keeps.refl s).goesOn

@[simp] theorem field_refresh (s : Session) (confirming : Bool) :
    (s.refresh confirming).field = s.field := by
  cases confirming
  · rfl
  · rw [refresh_true, field_confirm]
    rfl

theorem input_refresh (s : Session) (confirming : Bool) :
    (s.refresh confirming).input = s.input :=
  congrArg Field.text (s.field_refresh confirming)

/-- Looking for names takes the word at the cursor. -/
@[simp] theorem word_refresh (s : Session) (confirming : Bool) :
    (s.refresh confirming).word = Word.around s.input s.field.cursor := by
  cases confirming
  · rfl
  · rw [refresh_true, word_confirm]
    rfl

theorem goesOn_refresh (s : Session) (confirming : Bool) : s.GoesOn (s.refresh confirming) := by
  have hlook : s.GoesOn (s.refresh false) := fun hcycling => ⟨hcycling, if_pos hcycling⟩
  cases confirming
  · exact hlook
  · exact hlook.trans (goesOn_confirm _)

/-! ## Events that try out no name -/

/-- What an event does that tries out no name. -/
inductive Turn (s : Session) : Session -> Prop
  /-- The input and its word are left as they are. -/
  | same {t : Session} (keeps : s.Keeps t) : Turn s t
  /-- No names are on offer any more. -/
  | closed {t : Session} (clean : t.field.Clean) (found : t.found = []) (goesOn : s.GoesOn t) :
      Turn s t
  /-- The input may have changed, and names are looked for anew. -/
  | looked {t : Session} (confirming : Bool) (clean : s.field.Clean → t.field.Clean)
      (goesOn : s.GoesOn t) : Turn s (t.refresh confirming)

theorem Turn.goesOn {s t : Session} (h : s.Turn t) : s.GoesOn t := by
  cases h with
  | same keeps => exact keeps.goesOn
  | closed _ _ goesOn => exact goesOn
  | looked confirming _ goesOn => exact goesOn.trans (goesOn_refresh _ confirming)

/-- Whatever was there before, a new input is looked at. -/
theorem GoesOn.turn_setInput {s t : Session} (h : s.GoesOn t) (d : Draft) :
    s.Turn (t.setInput d) :=
  .looked false (fun _ => (Field.clean_setText _ _).moveTo _) h

theorem keeps_keep (s : Session) (mode : Mode) (d : Draft) : s.Keeps (s.keep mode d) := by
  cases mode <;> exact ⟨rfl, rfl, rfl, rfl, rfl⟩

theorem GoesOn.turn_switchTo {s t : Session} (h : s.GoesOn t) (mode : Mode) :
    s.Turn (t.switchTo mode) := by
  have hkept : s.GoesOn { t.keep t.mode t.draft with mode := mode } :=
    h.trans (t.keeps_keep t.mode t.draft).goesOn
  exact hkept.turn_setInput _

theorem GoesOn.turn_showEntry {s t : Session} (h : s.GoesOn t) (index : Nat) (e : HistoryEntry) :
    s.Turn (t.showEntry index e) := by
  have hat : s.GoesOn { t with historyAt := index } := h
  exact hat.turn_setInput _

theorem GoesOn.turn_leaveHistory {s t : Session} (h : s.GoesOn t) (d : Draft) :
    s.Turn (t.leaveHistory d) := by
  have hat : s.GoesOn { t with historyAt := t.history.size } := h
  exact hat.turn_setInput d

/-- Switching to a mode, if it is another one, goes on with the names. -/
theorem GoesOn.switch {s t : Session} (h : s.GoesOn t) (mode : Mode) {p : Prop} [Decidable p] :
    s.GoesOn (if p then t else t.switchTo mode) := by
  split
  · exact h
  · exact (h.turn_switchTo mode).goesOn

theorem turn_walk (s : Session) (d : Direction) (sameMode : Bool) :
    s.Turn (s.walk d sameMode) := by
  have hself : s.GoesOn s := (Keeps.refl s).goesOn
  unfold walk
  dsimp only
  rcases s.history.next? d (fun e => !sameMode || e.mode = s.mode) s.historyAt with _ | ⟨i, e⟩
  · dsimp only
    split
    · exact hself.turn_leaveHistory _
    · exact .same (.refl s)
  · exact (hself.switch e.mode).turn_showEntry i e

theorem turn_setAside (s : Session) : s.Turn s.setAside := by
  unfold setAside
  split
  · exact .same (.refl s)
  · have haside : s.GoesOn { s with aside := some (s.mode, s.draft) } := (Keeps.refl s).goesOn
    dsimp only
    split
    · exact .same ⟨rfl, rfl, rfl, rfl, rfl⟩
    · exact haside.turn_switchTo _

theorem Turn.takeBack {s t : Session} (h : s.Turn t) : s.Turn t.takeBack := by
  unfold Session.takeBack
  rcases t.aside with _ | ⟨mode, d⟩
  · exact h
  · have haside : s.GoesOn { t with aside := none } := h.goesOn
    exact (haside.switch mode).turn_leaveHistory d

theorem turn_walkCommands (s : Session) (d : Direction) : s.Turn (s.walkCommands d) := by
  have haside := s.turn_setAside
  unfold walkCommands
  dsimp only
  rcases s.setAside.history.next? d (fun e => e.mode = .command) s.setAside.historyAt with
    _ | ⟨i, e⟩
  · exact haside.takeBack
  · exact haside.goesOn.turn_showEntry i e

/-- Where no names are on offer, nothing that keeps the input brings any. -/
theorem Keeps.turn_of_closed {s t u : Session} (h : t.Keeps u) (clean : t.field.Clean)
    (found : t.found = []) (goesOn : s.GoesOn t) : s.Turn u :=
  .closed (h.clean clean) (h.found.trans found) (goesOn.trans h.goesOn)

theorem turn_enter (s : Session) : s.Turn s.enter.1 := by
  have hclean := Field.clean_setText s.field []
  unfold enter
  dsimp only
  split
  · exact .same (.refl s)
  · split
    · exact (keeps_enterCommand _ _).turn_of_closed hclean rfl fun hcycling => ⟨hcycling, rfl⟩
    · exact (keeps_enterTemplate _ _).turn_of_closed hclean rfl fun hcycling => ⟨hcycling, rfl⟩

theorem turn_edit (s : Session) (k : KeyPress) : s.Turn (s.edit k) := by
  refine .looked _ (fun hclean => hclean.press _ _) fun hcycling => ⟨?_, rfl⟩
  rw [Bool.and_eq_true, Bool.and_eq_true] at hcycling
  exact hcycling.1.1

theorem Keeps.trans_turn {s t u : Session} (h : s.Keeps t) (hturn : t.Turn u) : s.Turn u := by
  cases hturn with
  | same keeps =>
      exact .same ⟨keeps.value.trans h.value, keeps.found.trans h.found, keeps.word.trans h.word,
        keeps.selected.trans h.selected, keeps.cycling.trans h.cycling⟩
  | closed clean found goesOn => exact .closed clean found (h.goesOn.trans goesOn)
  | looked confirming clean goesOn =>
      exact .looked confirming (fun hclean => clean (h.clean hclean)) (h.goesOn.trans goesOn)

theorem turn_press (s : Session) {k : KeyPress} (h : (Event.key k).tries? = none) :
    s.Turn (s.press k).1 := by
  have hsame : s.Turn s := .same (.refl s)
  have hquit : s.Turn s.quit := .same ⟨rfl, rfl, rfl, rfl, rfl⟩
  have hstopped : ∀ t : Session, t.cycling = false → s.GoesOn t :=
    fun t ht hcycling => absurd (ht.symm.trans hcycling) Bool.false_ne_true
  obtain ⟨key, alt⟩ := k
  cases key with
  | enter =>
      -- while names are tried out, the key only takes the one that is selected
      simp only [press]
      split
      · exact .looked true (fun hclean => hclean) (hstopped _ rfl)
      · have hkeeps : s.Keeps { s with aside := none } := ⟨rfl, rfl, rfl, rfl, rfl⟩
        exact hkeeps.trans_turn (turn_enter _)
  | tab | backTab => cases h
  | up =>
      simp only [press]
      split
      · exact s.turn_walkCommands .older
      · exact s.turn_walk .older false
  | down =>
      simp only [press]
      split
      · exact s.turn_walkCommands .newer
      · exact s.turn_walk .newer false
  | shiftUp => exact s.turn_walk .older true
  | shiftDown => exact s.turn_walk .newer true
  | escape =>
      simp only [press]
      split
      · exact (hstopped { s with cycling := false } rfl).turn_setInput _
      · have haside : s.GoesOn { s with aside := none } := (Keeps.refl s).goesOn
        exact haside.turn_switchTo _
  | interrupt =>
      simp only [press]
      split
      · exact hquit
      · exact .looked false (fun _ => Field.clean_setText _ _) (hstopped _ rfl)
  | finish =>
      simp only [press]
      split
      · exact hquit
      · exact hsame
  | space | typed cs | other name =>
      simp only [press]
      exact s.turn_edit _

theorem turn_after (s : Session) {e : Event} (h : e.tries? = none) : s.Turn (s.after e) := by
  cases e with
  | key k => exact s.turn_press h
  | resize width => exact .same ⟨rfl, rfl, rfl, rfl, rfl⟩
  | edited ending => cases ending <;> exact .same ⟨rfl, rfl, rfl, rfl, rfl⟩

theorem after_of_tries (s : Session) {e : Event} {forward : Bool} (h : e.tries? = some forward) :
    s.after e = s.cycle forward := by
  unfold Event.tries? at h
  split at h <;> cases h <;> rfl

end Session

end Backtick
