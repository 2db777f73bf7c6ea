import Mathlib
import Backtick.Proofs.HistoryWalks
import Backtick.Proofs.WordRange

/-!
# The walk through the commands

With Alt, the history keys walk through the commands from either mode. The mode and the
input at the start of a round are set aside, apart from the drafts of the modes, and
taken back when the round runs past either end, however it went to and fro. The next
round then begins with the same mode and input as the one before.
-/

namespace Backtick.Session

variable {s t : Session} {d : Direction}

/-! ## The two ends of a round -/

/-- Between rounds all is as in the session they began in; in a round, that is set aside. -/
structure InRounds (s t : Session) : Prop where
  history : t.history = s.history
  round : (t.aside = none ∧ t.mode = s.mode ∧ t.draft = s.draft) ∨
    (t.aside = some (s.mode, s.draft) ∧ t.mode = .command)

/-- A session that has set aside what another one showed, and takes commands. -/
structure UnderWay (s t : Session) : Prop where
  history : t.history = s.history
  aside : t.aside = some (s.mode, s.draft)
  mode : t.mode = .command

/-- A round begins where the last one has ended, and else goes on. -/
theorem InRounds.setAside (h : s.InRounds t) :
    s.UnderWay t.setAside ∧ t.setAside.historyAt = t.historyAt := by
  rcases h.round with ⟨haside, hmode, hdraft⟩ | ⟨haside, hmode⟩
  · have hbegun : t.setAside =
        if s.mode = .command then { t with aside := some (s.mode, s.draft) }
        else { t with aside := some (s.mode, s.draft) }.switchTo .command := by
      rw [Session.setAside, haside, ← hmode, ← hdraft]
    rw [hbegun]
    split
    · rename_i hcommand
      exact ⟨⟨h.history, rfl, hmode.trans hcommand⟩, rfl⟩
    · exact ⟨⟨(history_switchTo _ _).trans h.history, aside_switchTo _ _, rfl⟩,
        historyAt_switchTo _ _⟩
  · have hsame : t.setAside = t := by rw [Session.setAside, haside]
    rw [hsame]
    exact ⟨⟨h.history, haside, hmode⟩, rfl⟩

theorem UnderWay.takeBack (h : s.UnderWay t) :
    t.takeBack.history = s.history ∧ t.takeBack.aside = none ∧ t.takeBack.mode = s.mode ∧
      t.takeBack.draft = s.draft.placed := by
  have hback : t.takeBack = (if s.mode = { t with aside := none }.mode then { t with aside := none }
      else { t with aside := none }.switchTo s.mode).leaveHistory s.draft := by
    rw [Session.takeBack, h.aside]
  obtain ⟨hmode, hhistory, -, haside⟩ := switch_spec { t with aside := none } s.mode rfl
  rw [hback]
  exact ⟨hhistory.trans h.history, haside, hmode, draft_leaveHistory _ _⟩

/-! ## One key -/

def isCommand (e : HistoryEntry) : Bool :=
  e.mode = .command

/-- What a key does at an index of the history, in rounds that began in another session. -/
inductive RoundStep (s : Session) (d : Direction) (i : Nat) (t : Session) : Prop
  /-- The nearest command is shown. -/
  | shown {e : HistoryEntry} (underWay : s.UnderWay t)
      (nearest : s.history.Nearest d isCommand i t.historyAt e) (draft : t.draft = .ofLine e.line)
  /-- There is no further command, and the round is over. -/
  | ended (history : t.history = s.history) (aside : t.aside = none) (mode : t.mode = s.mode)
      (draft : t.draft = s.draft) (last : s.history.NoneAhead d isCommand i)

theorem RoundStep.inRounds {i : Nat} (h : s.RoundStep d i t) : s.InRounds t := by
  cases h with
  | shown underWay => exact ⟨underWay.history, .inr ⟨underWay.aside, underWay.mode⟩⟩
  | ended history aside mode draft => exact ⟨history, .inl ⟨aside, mode, draft⟩⟩

theorem walkCommands_of_some {i : Nat} {e : HistoryEntry}
    (hnext : t.setAside.history.next? d isCommand t.setAside.historyAt = some (i, e)) :
    t.walkCommands d = t.setAside.showEntry i e := by
  unfold isCommand at hnext
  simp only [walkCommands, hnext]

theorem walkCommands_of_none
    (hnext : t.setAside.history.next? d isCommand t.setAside.historyAt = none) :
    t.walkCommands d = t.setAside.takeBack := by
  unfold isCommand at hnext
  simp only [walkCommands, hnext]

theorem InRounds.walkCommands (h : s.InRounds t) (hback : s.draft.placed = s.draft)
    (d : Direction) : s.RoundStep d t.historyAt (t.walkCommands d) := by
  obtain ⟨haside, hplace⟩ := h.setAside
  cases hnext : t.setAside.history.next? d isCommand t.setAside.historyAt with
  | some found =>
      obtain ⟨i, e⟩ := found
      rw [walkCommands_of_some hnext]
      rw [haside.history, hplace] at hnext
      exact .shown ⟨haside.history, haside.aside, haside.mode⟩ (History.nearest_of_next? hnext)
        (draft_showEntry _ i e)
  | none =>
      rw [walkCommands_of_none hnext]
      rw [haside.history, hplace] at hnext
      obtain ⟨hhistory, hnone, hmode, hdraft⟩ := haside.takeBack
      exact .ended hhistory hnone hmode (hdraft.trans hback) (History.noneAhead_of_next? hnext)

/-! ## Any number of keys -/

theorem walked_concat (s : Session) (key : Direction -> KeyPress) (ds : List Direction)
    (d : Direction) : s.walked key (ds ++ [d]) = ((s.walked key ds).press (key d)).1 := by
  rw [walked, afterAll, List.map_append, List.foldl_append]
  rfl

theorem inRounds_walked (haside : s.aside = none) (hback : s.draft.placed = s.draft)
    (ds : List Direction) : s.InRounds (s.walked .withAlt ds) := by
  induction ds using List.reverseRecOn with
  | nil => exact ⟨rfl, .inl ⟨haside, rfl, rfl⟩⟩
  | append_singleton ds d ih =>
      rw [walked_concat, press_withAlt]
      exact (ih.walkCommands hback d).inRounds

/-- In every state of a session the field would store its text again, with its cursor. -/
theorem stored_input_afterAll (store : Store) (history : History) (engine : Engine)
    (events : List Event) :
    let s := (new store history engine).afterAll events
    s.field.CursorIn ∧ Field.stored s.input = s.input :=
  ⟨cursorIn_afterAll (Field.cursorIn_new _) events,
    ((anchored_new store history engine).afterAll events).clean.stored_text⟩

/--
Whatever history keys with Alt are pressed, after each of them a command of the history is
shown, the nearest in its direction, or there is none, and the mode, the text and the cursor
are those from before the first key.
-/
theorem alt_keys_restore_input (s : Session) (haside : s.aside = none)
    (hcursor : s.field.CursorIn) (hinput : Field.stored s.input = s.input)
    (hlines : ∀ e ∈ s.history.entries, e.mode = .command → Field.stored e.line = e.line)
    (ds : List Direction) (d : Direction) :
    let before := s.walked .withAlt ds
    let t := s.walked .withAlt (ds ++ [d])
    t.history = s.history ∧
      ((∃ e, t.aside = some (s.mode, s.draft) ∧ t.mode = .command ∧ t.input = e.line ∧
          s.history.Nearest d isCommand before.historyAt t.historyAt e) ∨
        (t.aside = none ∧ t.mode = s.mode ∧ t.input = s.input ∧ t.field.cursor = s.field.cursor ∧
          s.history.NoneAhead d isCommand before.historyAt)) := by
  intro before t
  have hback : s.draft.placed = s.draft := placed_draft hcursor hinput
  have hstep : s.RoundStep d before.historyAt t := by
    have hkey : t = before.walkCommands d := by
      rw [← press_withAlt]
      exact walked_concat s .withAlt ds d
    rw [hkey]
    exact (inRounds_walked haside hback ds).walkCommands hback d
  refine ⟨hstep.inRounds.history, ?_⟩
  cases hstep with
  | shown underWay nearest draft =>
      have hline := hlines _ (List.mem_of_getElem? nearest.found) (of_decide_eq_true nearest.wanted)
      have hinput : t.input = _ := (congrArg Draft.text draft).trans hline
      exact .inl ⟨_, underWay.aside, underWay.mode, hinput, nearest⟩
  | ended _ aside mode draft last =>
      exact .inr ⟨aside, mode, congrArg Draft.text draft, congrArg Draft.cursor draft, last⟩

/-- A session in which a template is begun, with the cursor inside it. -/
def beginning : Session :=
  recalling.afterAll [.key ⟨.typed ['é', 'x'], false⟩, .key ⟨.other "left", false⟩]

/-- One key shows the only command; the next runs past it, and the line is there again. -/
theorem alt_keys_restore_input_sample :
    ((beginning.aside = none ∧ beginning.field.CursorIn ∧
      Field.stored beginning.input = beginning.input) ∧
      ∀ e ∈ beginning.history.entries, e.mode = .command → Field.stored e.line = e.line) ∧
    (beginning.walked .withAlt [.older]).input = "vars" ∧
    (beginning.walked .withAlt [.older, .newer]).input = "éx" ∧
    (beginning.walked .withAlt [.older, .newer]).field.cursor = 1 := by
  have haside : beginning.aside = none := rfl
  obtain ⟨hcursor, hinput⟩ := stored_input_afterAll ⟨[], .error⟩ recalling.history .tree
    [.key ⟨.typed ['é', 'x'], false⟩, .key ⟨.other "left", false⟩]
  have hlines : ∀ e ∈ beginning.history.entries, e.mode = .command →
      Field.stored e.line = e.line := by
    decide +kernel
  have hkey := alt_keys_restore_input beginning haside hcursor hinput hlines
  refine ⟨⟨⟨haside, hcursor, hinput⟩, hlines⟩, ?_, ?_⟩
  · rcases (hkey [] .older).2 with ⟨e, -, -, hline, hnear⟩ | ⟨hended, -⟩
    · have honly : ∀ e ∈ beginning.history.entries, isCommand e = true →
          e.line = ("vars" : Bytes) := by
        decide +kernel
      exact hline.trans (honly e (List.mem_of_getElem? hnear.found) hnear.wanted)
    · exact absurd hended (by decide +kernel)
  · rw [show [Direction.older, .newer] = [.older] ++ [.newer] from rfl]
    have hended : (beginning.walked .withAlt ([.older] ++ [.newer])).aside = none := by
      decide +kernel
    rcases (hkey [.older] .newer).2 with ⟨e, hshown, -⟩ | ⟨-, -, htext, hplace, -⟩
    · exact absurd (hshown.symm.trans hended) (Option.some_ne_none _)
    · exact ⟨htext.trans (by decide +kernel), hplace.trans (by decide +kernel)⟩

end Backtick.Session
