import Mathlib
import Backtick.Proofs.CommandWalk

/-!
# The drafts of the modes

Each mode has a draft, which is put aside when the session switches to the other mode.
Keys that edit the line change neither the mode nor the drafts that are put aside,
whatever names they try out, take or give up in between. So a switch to the other mode
and back, with any editing there, leaves the line as it was, as long as the program goes
on: it does if the names that are tried out fit.
-/

namespace Backtick

theorem Mode.other_other (mode : Mode) : mode.other.other = mode := by
  cases mode <;> rfl

namespace Session

/-! ## Keys that edit the line -/

/--
Whether a key edits the line: it enters and recalls nothing, and leaves neither the session
nor the mode.
-/
def editsLine (s : Session) (k : KeyPress) : Bool :=
  match k.key with
  | .enter | .up | .down | .shiftUp | .shiftDown => false
  | .interrupt | .finish => !s.field.value.isEmpty
  | .escape => s.cycling
  | .tab | .backTab | .space | .typed _ | .other _ => true

/-- The session after some keys, if the program goes on behind each of them. -/
def pressAll? (s : Session) : List KeyPress -> Option Session
  | [] => some s
  | k :: ks => (s.press? k).bind fun r => r.1.pressAll? ks

/-- Whether keys edit the line, each in the session to which those before it have led. -/
def editsLineAll (s : Session) : List KeyPress -> Bool
  | [] => true
  | k :: ks => s.editsLine k && (s.press? k).all fun r => r.1.editsLineAll ks

variable {s : Session} {k : KeyPress} {ks : List KeyPress}

theorem press?_of_breaks (h : s.breaks k = true) : s.press? k = none := by
  rw [press?, if_pos h]

theorem press?_of_goes (h : s.breaks k = false) : s.press? k = some (s.press k) := by
  rw [press?, if_neg (ne_true_of_eq_false h)]

theorem pressAll?_cons_of_goes (h : s.breaks k = false) :
    s.pressAll? (k :: ks) = (s.press k).1.pressAll? ks := by
  rw [pressAll?, press?_of_goes h, Option.bind_some]

theorem pressAll?_cons_eq_some {t : Session} (h : s.pressAll? (k :: ks) = some t) :
    s.breaks k = false ∧ (s.press k).1.pressAll? ks = some t := by
  cases hbreaks : s.breaks k with
  | true =>
      rw [pressAll?, press?_of_breaks hbreaks] at h
      cases h
  | false => exact ⟨rfl, (pressAll?_cons_of_goes hbreaks).symm.trans h⟩

/-! ## Keys behind which the program does not go on -/

/-- The program stops at a key that tries out a name for a word that ends behind the line. -/
theorem Anchored.breaks_iff (h : s.Anchored) :
    s.breaks k = true ↔ (Event.key k).tries?.isSome = true ∧ s.found ≠ [] ∧
      s.input.length < s.word.stop := by
  have hword : (!s.found.isEmpty && !s.canReplace) = true ↔
      s.found ≠ [] ∧ s.input.length < s.word.stop := by
    rw [Bool.and_eq_true, Bool.not_eq_true', Bool.not_eq_true', List.isEmpty_eq_false_iff]
    refine and_congr_right fun hfound => ?_
    simp [canReplace, h.start_le hfound]
  obtain ⟨key, alt⟩ := k
  cases key with
  | tab | backTab => exact hword.trans (and_iff_right rfl).symm
  | _ => exact ⟨nofun, fun hbreaks => absurd hbreaks.1 Bool.false_ne_true⟩

theorem InRange.breaks_eq_false (h : s.InRange) (hs : s.Anchored) (k : KeyPress) :
    s.breaks k = false := by
  refine Bool.eq_false_iff.mpr fun hbreaks => ?_
  obtain ⟨-, hfound, hbehind⟩ := hs.breaks_iff.mp hbreaks
  exact Nat.not_lt.mpr (h hfound).2 hbehind

/-- If every name that is tried out fits, the program goes on. -/
theorem InRange.isSome_pressAll? (h : s.InRange) (hs : s.Anchored)
    (hroom : s.RoomForAll (ks.map .key)) : (s.pressAll? ks).isSome = true := by
  induction ks generalizing s with
  | nil => rfl
  | cons k ks ih =>
      obtain ⟨hkey, hrest⟩ := hroom
      rw [pressAll?_cons_of_goes (h.breaks_eq_false hs k)]
      exact ih ((h.after_iff hs (.key k)).mpr hkey) (hs.after (.key k)) hrest

theorem Anchored.pressAll? {t : Session} (hs : s.Anchored) (h : s.pressAll? ks = some t) :
    t.Anchored := by
  induction ks generalizing s with
  | nil =>
      cases h
      exact hs
  | cons k ks ih => exact ih (hs.after (.key k)) (pressAll?_cons_eq_some h).2

/-- The program stops at the first key behind which it does not go on. -/
theorem pressAll?_eq_none_iff :
    s.pressAll? ks = none ↔ ∃ before k behind t, ks = before ++ k :: behind ∧
      s.pressAll? before = some t ∧ t.breaks k = true := by
  induction ks generalizing s with
  | nil => exact ⟨nofun, fun ⟨before, _, _, _, hsplit, _⟩ => by cases before <;> cases hsplit⟩
  | cons k ks ih =>
      cases hbreaks : s.breaks k with
      | true =>
          refine ⟨fun _ => ⟨[], k, ks, s, rfl, rfl, hbreaks⟩, fun _ => ?_⟩
          rw [pressAll?, press?_of_breaks hbreaks, Option.bind_none]
      | false =>
          rw [pressAll?_cons_of_goes hbreaks, ih]
          constructor
          · rintro ⟨before, stop, behind, t, rfl, hbefore, hstop⟩
            exact ⟨k :: before, stop, behind, t, rfl,
              (pressAll?_cons_of_goes hbreaks).trans hbefore, hstop⟩
          · rintro ⟨before, stop, behind, t, hsplit, hbefore, hstop⟩
            cases before with
            | nil =>
                -- the program goes on behind the first key
                cases hsplit
                cases hbefore
                exact absurd (hbreaks.symm.trans hstop) Bool.false_ne_true
            | cons first before =>
                cases hsplit
                rw [pressAll?_cons_of_goes hbreaks] at hbefore
                exact ⟨before, stop, behind, t, rfl, hbefore, hstop⟩

/-! ## What they leave as it is -/

structure KeepsDrafts (s t : Session) : Prop where
  mode : t.mode = s.mode
  kept : t.kept = s.kept

theorem KeepsDrafts.refl (s : Session) : s.KeepsDrafts s := ⟨rfl, rfl⟩

theorem KeepsDrafts.trans {s t u : Session} (hst : s.KeepsDrafts t) (htu : t.KeepsDrafts u) :
    s.KeepsDrafts u :=
  ⟨htu.mode.trans hst.mode, htu.kept.trans hst.kept⟩

section

variable (s : Session)

theorem keepsDrafts_confirm : s.KeepsDrafts s.confirm := by
  unfold confirm
  split
  · split
    · exact ⟨rfl, rfl⟩
    · exact .refl s
  · exact .refl s

theorem keepsDrafts_refresh (confirming : Bool) : s.KeepsDrafts (s.refresh confirming) := by
  have hlook : s.KeepsDrafts (s.refresh false) := ⟨rfl, rfl⟩
  cases confirming
  · exact hlook
  · exact hlook.trans (keepsDrafts_confirm _)

theorem keepsDrafts_cycle (forward : Bool) : s.KeepsDrafts (s.cycle forward) := by
  unfold cycle
  split
  · exact .refl s
  · exact ⟨rfl, rfl⟩
  · dsimp only
    split
    · exact ⟨rfl, rfl⟩
    · exact ⟨rfl, rfl⟩

theorem keepsDrafts_edit (k : KeyPress) : s.KeepsDrafts (s.edit k) := by
  refine KeepsDrafts.trans ?_ (keepsDrafts_refresh _ _)
  exact ⟨rfl, rfl⟩

end

theorem keepsDrafts_press (h : s.editsLine k = true) :
    s.KeepsDrafts (s.press k).1 := by
  obtain ⟨key, alt⟩ := k
  cases key with
  | enter | up | down | shiftUp | shiftDown => cases h
  | tab | backTab => exact s.keepsDrafts_cycle _
  | escape =>
      -- only the names that are tried out are given up
      have hcycling : s.cycling = true := h
      simp only [press, hcycling, if_true]
      exact ⟨rfl, rfl⟩
  | interrupt =>
      simp only [press]
      split
      · exact ⟨rfl, rfl⟩
      · exact ⟨rfl, rfl⟩
  | finish =>
      simp only [press]
      split
      · exact ⟨rfl, rfl⟩
      · exact .refl s
  | space | typed cs | other name =>
      simp only [press]
      exact s.keepsDrafts_edit _

theorem keepsDrafts_pressAll? {t : Session} (h : s.editsLineAll ks = true)
    (hrun : s.pressAll? ks = some t) : s.KeepsDrafts t := by
  induction ks generalizing s with
  | nil =>
      cases hrun
      exact .refl _
  | cons k ks ih =>
      obtain ⟨hgoes, hrun⟩ := pressAll?_cons_eq_some hrun
      obtain ⟨hkey, hrest⟩ := Bool.and_eq_true_iff.mp h
      rw [press?_of_goes hgoes] at hrest
      exact (keepsDrafts_press hkey).trans (ih hrest hrun)

/-! ## The switch to the other mode and back -/

/-- A switch to the other mode: the line is put aside, and the draft of that mode is taken up. -/
structure Switched (s t : Session) : Prop where
  mode : t.mode = s.mode.other
  kept : t.kept s.mode = s.draft
  draft : t.draft = (s.kept s.mode.other).placed

theorem switched_switchTo : s.Switched (s.switchTo s.mode.other) := by
  refine ⟨rfl, ?_, (draft_setInput _ _).trans (congrArg Draft.placed ?_)⟩
  · unfold switchTo keep
    cases s.mode <;> rfl
  · unfold keep
    cases s.mode <;> rfl

/-- Where no names are tried out, Escape switches to the other mode. -/
theorem switched_escape (h : s.cycling = false) (alt : Bool) :
    s.Switched (s.press ⟨.escape, alt⟩).1 := by
  have hpress : (s.press ⟨.escape, alt⟩).1 = { s with aside := none }.switchTo s.mode.other := by
    simp [press, h]
  rw [hpress]
  have hswitched := switched_switchTo (s := { s with aside := none })
  exact ⟨hswitched.mode, hswitched.kept, hswitched.draft⟩

theorem inRange_switchTo (s : Session) (mode : Mode) : (s.switchTo mode).InRange :=
  fun _ => refresh_bounds _ false

theorem inRange_escape (h : s.cycling = false) (alt : Bool) :
    (s.press ⟨.escape, alt⟩).1.InRange := by
  simp only [press, h, Bool.false_eq_true, if_false]
  exact inRange_switchTo _ _

/--
From every session in which no names are tried out, Escape, keys that edit the line, and Escape
again, when it switches back, restore the mode, the text and the cursor, and put the line that
was edited aside: if the program goes on behind the keys. It does if the names that are tried
out fit, and it stops exactly at a key that tries out a name for a word whose end is behind the
line.
-/
theorem editing_leaves_other_draft (store : Store) (history : History) (engine : Engine)
    (events : List Event) (alt alt' : Bool) (ks : List KeyPress) :
    let s := (new store history engine).afterAll events
    let there := (s.press ⟨.escape, alt⟩).1
    s.cycling = false → there.editsLineAll ks = true →
    (∀ edited, there.pressAll? ks = some edited → edited.cycling = false →
      ∃ t, edited.press? ⟨.escape, alt'⟩ = some (t, []) ∧
        (t.mode = s.mode ∧ t.input = s.input ∧ t.field.cursor = s.field.cursor) ∧
        t.kept s.mode.other = edited.draft) ∧
    (there.RoomForAll (ks.map .key) → (there.pressAll? ks).isSome = true) ∧
    (there.pressAll? ks = none ↔ ∃ before k behind t, ks = before ++ k :: behind ∧
      there.pressAll? before = some t ∧
      (Event.key k).tries?.isSome = true ∧ t.found ≠ [] ∧ t.input.length < t.word.stop) := by
  intro s there hcycling hkeys
  have hs : s.Anchored := (anchored_new store history engine).afterAll events
  have hanchored : there.Anchored := hs.after (.key ⟨.escape, alt⟩)
  refine ⟨fun edited hedited hback => ?_,
    (inRange_escape hcycling alt).isSome_pressAll? hanchored, ?_⟩
  · obtain ⟨hcursor, hinput⟩ := stored_input_afterAll store history engine events
    have hthere : s.Switched there := switched_escape hcycling alt
    have hkeeps : there.KeepsDrafts edited := keepsDrafts_pressAll? hkeys hedited
    have hreturn := switched_escape hback alt'
    have hmode : edited.mode = s.mode.other := hkeeps.mode.trans hthere.mode
    have hother : edited.mode.other = s.mode := by rw [hmode, Mode.other_other]
    have hdraft : (edited.press ⟨.escape, alt'⟩).1.draft = s.draft := by
      rw [hreturn.draft, hother, hkeeps.kept, hthere.kept]
      exact placed_draft hcursor hinput
    refine ⟨_, ?_, ⟨hreturn.mode.trans hother, congrArg Draft.text hdraft,
      congrArg Draft.cursor hdraft⟩, ?_⟩
    · rw [press?_of_goes rfl]
      simp only [press, hback, Bool.false_eq_true, if_false]
    · rw [← hmode]
      exact hreturn.kept
  · rw [pressAll?_eq_none_iff]
    refine exists_congr fun before => exists_congr fun k => exists_congr fun behind =>
      exists_congr fun t => and_congr_right fun _ => and_congr_right fun hbefore => ?_
    exact (hanchored.pressAll? hbefore).breaks_iff

/-- A name is tried out and given up, another one taken, and the line cleared and typed anew. -/
def editing : List KeyPress :=
  [⟨.typed ['s', 'e'], false⟩, ⟨.tab, false⟩, ⟨.escape, false⟩, ⟨.backTab, false⟩,
    ⟨.other "left", false⟩, ⟨.interrupt, false⟩, ⟨.typed ['h', 'e', 'l'], false⟩, ⟨.tab, false⟩]

/-- The line is there again, with the cursor inside it, and the command is put aside. -/
theorem editing_leaves_other_draft_sample :
    let there := (beginning.press ⟨.escape, false⟩).1
    (beginning.cycling = false ∧ there.editsLineAll editing = true ∧
      there.RoomForAll (editing.map .key)) ∧
    ∃ edited t, there.pressAll? editing = some edited ∧
      edited.press? ⟨.escape, true⟩ = some (t, []) ∧
      (t.mode = .template ∧ t.input = "éx" ∧ t.field.cursor = 1) ∧
      t.kept .command = ⟨"help", 4⟩ := by
  intro there
  have hcycling : beginning.cycling = false := by decide +kernel
  have hkeys : there.editsLineAll editing = true := by decide +kernel
  have hroom : there.RoomForAll (editing.map .key) := by decide +kernel
  have hended : (there.pressAll? editing).map (fun t => (t.cycling, t.draft)) =
      some (false, ⟨"help", 4⟩) := by
    decide +kernel
  obtain ⟨hrestored, hgoes, -⟩ := editing_leaves_other_draft ⟨[], .error⟩ recalling.history .tree
    [.key ⟨.typed ['é', 'x'], false⟩, .key ⟨.other "left", false⟩] false true editing hcycling hkeys
  obtain ⟨edited, hedited⟩ := Option.isSome_iff_exists.mp (hgoes hroom)
  have hedited : there.pressAll? editing = some edited := hedited
  rw [hedited] at hended
  obtain ⟨hback, hdraft⟩ := Prod.mk.inj (Option.some.inj hended)
  obtain ⟨t, ht, ⟨hmode, htext, hplace⟩, hkept⟩ := hrestored edited hedited hback
  have hkept : t.kept beginning.mode.other = edited.draft := hkept
  rw [show beginning.mode.other = .command by decide +kernel] at hkept
  refine ⟨⟨hcycling, hkeys, hroom⟩, edited, t, hedited, ht, ⟨?_, ?_, ?_⟩, ?_⟩
  · exact hmode.trans (by decide +kernel)
  · exact htext.trans (by decide +kernel)
  · exact hplace.trans (by decide +kernel)
  · exact hkept.trans hdraft

/-- Names of which the field keeps nothing: at the second one that is tried out, the program
stops. -/
theorem editing_stops_behind_dropped :
    let s := (twoNames "\uFFFD" "\uFFFD\uFFFD").afterAll [.key ⟨.escape, false⟩]
    let keys : List KeyPress :=
      [⟨.typed (Utf8.chars "$\x7bGET('"), false⟩, ⟨.tab, false⟩, ⟨.tab, false⟩]
    s.cycling = false ∧ (s.press ⟨.escape, false⟩).1.editsLineAll keys = true ∧
      ((s.press ⟨.escape, false⟩).1.pressAll? keys).isNone = true := by
  refine ⟨?_, ?_, ?_⟩ <;> cbv

end Session

end Backtick
