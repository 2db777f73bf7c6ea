import Mathlib
import Backtick.Files.Path
import Backtick.Proofs.Persistence

/-!
# Paths and the names they come down to

The names of a path are taken in turn, and what is left of them is a stack: two dots
take the last name off, unless there is none but two dots. A clean path is the stack of
a path written out. Joining goes on with a stack, and going on from a place by a path
is the same as going on by what the path comes down to.
-/

namespace Backtick

/-! ## Splitting and joining at a byte -/

namespace Bytes

theorem not_mem_of_mem_splitOn {sep : UInt8} {text piece : Bytes}
    (h : piece ∈ splitOn sep text) : sep ∉ piece := by
  induction text generalizing piece with
  | nil =>
      rw [List.mem_singleton.mp h]
      exact List.not_mem_nil
  | cons b text ih =>
      rw [splitOn] at h
      split at h
      · rcases List.mem_cons.mp h with rfl | h
        · exact List.not_mem_nil
        · exact ih h
      · rename_i hb
        obtain ⟨first, pieces, hpieces⟩ := List.exists_cons_of_ne_nil (splitOn_ne_nil sep text)
        rw [hpieces] at h ih
        rcases List.mem_cons.mp h with rfl | h
        · rw [List.mem_cons, not_or]
          exact ⟨Ne.symm hb, ih List.mem_cons_self⟩
        · exact ih (List.mem_cons_of_mem _ h)

theorem join_cons {sep part : Bytes} {parts : List Bytes} (h : parts ≠ []) :
    join sep (part :: parts) = part ++ sep ++ join sep parts := by
  cases parts with
  | nil => exact absurd rfl h
  | cons next parts => rfl

theorem splitOn_join {sep : UInt8} {parts : List Bytes} (hne : parts ≠ [])
    (h : ∀ part ∈ parts, sep ∉ part) : splitOn sep (join [sep] parts) = parts := by
  induction parts with
  | nil => exact absurd rfl hne
  | cons part parts ih =>
      obtain ⟨hpart, hparts⟩ := List.forall_mem_cons.mp h
      by_cases hnil : parts = []
      · rw [hnil]
        exact splitOn_of_not_mem hpart
      · rw [join_cons hnil, List.append_assoc, List.singleton_append, splitOn_append hpart,
          ih hnil hparts]

end Bytes

namespace Path

/-! ## The stack of a path -/

/-- What a name does to the names before it, the last one first. -/
def step (rooted : Bool) (sofar : List Bytes) (name : Bytes) : List Bytes :=
  if name.isEmpty || name = ↑"." then
    sofar
  else if name = ↑".." then
    match sofar with
    | [] => if rooted then [] else [name]
    | last :: before => if last = ↑".." then name :: sofar else before
  else
    name :: sofar

theorem walk_eq_foldl (rooted : Bool) (sofar names : List Bytes) :
    walk rooted sofar names = (names.foldl (step rooted) sofar).reverse := by
  induction names generalizing sofar with
  | nil => rw [walk, List.foldl_nil]
  | cons name names ih =>
      rw [walk.eq_def, List.foldl_cons, step.eq_def]
      dsimp only
      split
      · exact ih sofar
      · split
        · cases sofar with
          | nil =>
              dsimp only
              split
              · exact ih []
              · exact ih [name]
          | cons last before =>
              dsimp only
              split
              · exact ih (name :: last :: before)
              · exact ih before
        · exact ih (name :: sofar)

/-- The names that a path comes down to, the last one first. -/
def stack (path : Bytes) : List Bytes :=
  (Bytes.splitOn slash path).foldl (step (isAbsolute path)) []

def render (rooted : Bool) (names : List Bytes) : Bytes :=
  let body := Bytes.join [slash] names.reverse
  if rooted then slash :: body else if body.isEmpty then "." else body

theorem clean_eq_render (path : Bytes) : clean path = render (isAbsolute path) (stack path) := by
  rw [clean, render, stack, walk_eq_foldl]

/-- A name that leads down: not empty, and no dots. -/
structure Ordinary (name : Bytes) : Prop where
  ne_nil : name ≠ []
  ne_dot : name ≠ ↑"."
  ne_dots : name ≠ ↑".."
  slash : slash ∉ name

/-- The stacks that paths come down to: ordinary names, and below them only two dots. -/
inductive Normal (rooted : Bool) : List Bytes -> Prop
  | nil : Normal rooted []
  | up {sofar : List Bytes} (hrooted : rooted = false) (h : ∀ name ∈ sofar, name = ↑"..") :
      Normal rooted (↑".." :: sofar)
  | down {name : Bytes} {sofar : List Bytes} (hname : Ordinary name) (h : Normal rooted sofar) :
      Normal rooted (name :: sofar)

theorem step_skip {name : Bytes} (h : name = [] ∨ name = ↑".") (rooted : Bool)
    (sofar : List Bytes) : step rooted sofar name = sofar := by
  rcases h with rfl | rfl <;> rfl

theorem step_down {name : Bytes} (h : Ordinary name) (rooted : Bool) (sofar : List Bytes) :
    step rooted sofar name = name :: sofar := by
  rw [step.eq_def, if_neg, if_neg h.ne_dots]
  simp [h.ne_nil, h.ne_dot]

theorem step_up {name : Bytes} (h : Ordinary name) (rooted : Bool) (sofar : List Bytes) :
    step rooted (name :: sofar) ↑".." = sofar := by
  rw [step.eq_def, if_neg (by decide), if_pos rfl]
  exact if_neg h.ne_dots

/-- Behind nothing but two dots, two more are kept. -/
theorem step_up_of_dots {sofar : List Bytes} (h : ∀ name ∈ sofar, name = ↑"..") :
    step false sofar ↑".." = ↑".." :: sofar := by
  rw [step.eq_def, if_neg (by decide), if_pos rfl]
  cases sofar with
  | nil => rfl
  | cons last before => exact if_pos (h last List.mem_cons_self)

/-- A name is empty, one dot, two dots, or ordinary. -/
theorem name_cases {name : Bytes} (h : slash ∉ name) :
    (name = [] ∨ name = ↑".") ∨ name = ↑".." ∨ Ordinary name := by
  by_cases hnil : name = []
  · exact .inl (.inl hnil)
  · by_cases hdot : name = ↑"."
    · exact .inl (.inr hdot)
    · by_cases hdots : name = ↑".."
      · exact .inr (.inl hdots)
      · exact .inr (.inr ⟨hnil, hdot, hdots, h⟩)

theorem Normal.step {rooted : Bool} {sofar : List Bytes} {name : Bytes} (h : Normal rooted sofar)
    (hname : slash ∉ name) : Normal rooted (step rooted sofar name) := by
  rcases name_cases hname with hskip | rfl | hdown
  · rwa [step_skip hskip]
  · cases h with
    | nil =>
        cases rooted with
        | true => exact .nil
        | false => exact .up rfl nofun
    | @up sofar hrooted hdots =>
        subst hrooted
        have hall : ∀ name ∈ (".." : Bytes) :: sofar, name = ↑".." :=
          List.forall_mem_cons.mpr ⟨rfl, hdots⟩
        rw [step_up_of_dots hall]
        exact .up rfl hall
    | down hlast hmore =>
        rw [step_up hlast]
        exact hmore
  · rw [step_down hdown]
    exact .down hdown h

theorem Normal.foldl {rooted : Bool} {sofar names : List Bytes} (h : Normal rooted sofar)
    (hnames : ∀ name ∈ names, slash ∉ name) :
    Normal rooted (names.foldl (Path.step rooted) sofar) := by
  induction names generalizing sofar with
  | nil => exact h
  | cons name names ih =>
      obtain ⟨hname, hnames⟩ := List.forall_mem_cons.mp hnames
      exact ih (h.step hname) hnames

theorem normal_stack (path : Bytes) : Normal (isAbsolute path) (stack path) :=
  Normal.nil.foldl fun _ => Bytes.not_mem_of_mem_splitOn

theorem foldl_reverse_dots {names : List Bytes} (h : ∀ name ∈ names, name = ↑"..") :
    names.reverse.foldl (step false) [] = names := by
  induction names with
  | nil => rfl
  | cons name names ih =>
      obtain ⟨rfl, hnames⟩ := List.forall_mem_cons.mp h
      rw [List.reverse_cons, List.foldl_concat, ih hnames, step_up_of_dots hnames]

/-- The names of a normal stack lead from nowhere to it. -/
theorem Normal.foldl_reverse {rooted : Bool} {names : List Bytes} (h : Normal rooted names) :
    names.reverse.foldl (Path.step rooted) [] = names := by
  induction h with
  | nil => rfl
  | up hrooted hdots =>
      subst hrooted
      rw [List.reverse_cons, List.foldl_concat, foldl_reverse_dots hdots, step_up_of_dots hdots]
  | down hname _ ih => rw [List.reverse_cons, List.foldl_concat, ih, step_down hname]

theorem Normal.names {rooted : Bool} {names : List Bytes} (h : Normal rooted names) :
    ∀ name ∈ names, name ≠ [] ∧ slash ∉ name := by
  induction h with
  | nil => nofun
  | up _ hdots =>
      refine List.forall_mem_cons.mpr ⟨by decide, fun name hname => ?_⟩
      rw [hdots name hname]
      decide
  | down hname _ ih => exact List.forall_mem_cons.mpr ⟨⟨hname.ne_nil, hname.slash⟩, ih⟩

/-! ## Stacks written out -/

theorem head?_join {part : Bytes} (h : part ≠ []) (sep : Bytes) (parts : List Bytes) :
    (Bytes.join sep (part :: parts)).head? = part.head? := by
  obtain ⟨b, rest, rfl⟩ := List.exists_cons_of_ne_nil h
  cases parts <;> rfl

theorem render_false_of_ne_nil {names : List Bytes} (hne : names ≠ [])
    (h : ∀ name ∈ names, name ≠ []) :
    render false names = Bytes.join [slash] names.reverse := by
  obtain ⟨first, rest, hfirst⟩ := List.exists_cons_of_ne_nil (List.reverse_ne_nil_iff.mpr hne)
  have hne : first ≠ [] := h first (List.mem_reverse.mp (hfirst ▸ List.mem_cons_self))
  have hhead := head?_join hne [slash] rest
  rw [render, hfirst, if_neg Bool.false_ne_true, if_neg]
  rw [List.isEmpty_iff]
  intro hnil
  rw [hnil] at hhead
  exact hne (List.head?_eq_none_iff.mp hhead.symm)

/-- To go on by a stack that is written out is to go on by its names. -/
theorem foldl_splitOn_render {names : List Bytes} (h : ∀ name ∈ names, name ≠ [] ∧ slash ∉ name)
    (rooted rooted' : Bool) (sofar : List Bytes) :
    (Bytes.splitOn slash (render rooted names)).foldl (step rooted') sofar =
      names.reverse.foldl (step rooted') sofar := by
  by_cases hne : names = []
  · subst hne
    cases rooted <;> rfl
  · have hsplit := Bytes.splitOn_join (List.reverse_ne_nil_iff.mpr hne)
      fun name hname => (h name (List.mem_reverse.mp hname)).2
    cases rooted with
    | false => rw [render_false_of_ne_nil hne fun name hname => (h name hname).1, hsplit]
    | true =>
        -- The slash at the start parts off an empty name, which is skipped.
        have hrender : Bytes.splitOn slash (render true names) =
            [] :: Bytes.splitOn slash (Bytes.join [slash] names.reverse) := if_pos rfl
        rw [hrender, hsplit, List.foldl_cons, step_skip (.inl rfl)]

namespace Normal

variable {rooted : Bool} {names : List Bytes}

theorem isAbsolute_render (h : Normal rooted names) :
    isAbsolute (render rooted names) = rooted := by
  cases rooted with
  | true => rfl
  | false =>
      by_cases hne : names = []
      · rw [hne]
        rfl
      · -- The text begins with the last name of the stack, and that begins with no slash.
        obtain ⟨first, rest, hfirst⟩ :=
          List.exists_cons_of_ne_nil (List.reverse_ne_nil_iff.mpr hne)
        obtain ⟨hnil, hslash⟩ :=
          h.names first (List.mem_reverse.mp (hfirst ▸ List.mem_cons_self))
        rw [render_false_of_ne_nil hne fun name hname => (h.names name hname).1, hfirst, isAbsolute,
          head?_join hnil, decide_eq_false_iff_not]
        exact fun hhead => hslash (List.mem_of_head? hhead)

theorem stack_render (h : Normal rooted names) : stack (render rooted names) = names := by
  rw [stack, h.isAbsolute_render, foldl_splitOn_render h.names, h.foldl_reverse]

end Normal

theorem render_ne_nil (rooted : Bool) (names : List Bytes) : render rooted names ≠ [] := by
  rw [render]
  split
  · exact List.cons_ne_nil _ _
  · split
    · decide
    · rename_i hbody
      rwa [List.isEmpty_iff] at hbody

/-! ## Joining -/

theorem join_nil {path : Bytes} (h : path ≠ []) : join [path, []] = clean path := by
  simp [join, h, Bytes.join]

/-- A path behind another goes on with its stack. -/
theorem join_pair {first second : Bytes}
    (h : first ≠ [] ∨ second ≠ [] ∧ isAbsolute second = false) :
    join [first, second] = render (isAbsolute first)
      ((Bytes.splitOn slash second).foldl (step (isAbsolute first)) (stack first)) := by
  by_cases hfirst : first = []
  · subst hfirst
    obtain ⟨hne, hrelative⟩ := h.resolve_left fun hne => hne rfl
    have hjoin : join [[], second] = clean second := by
      simp [join, hne, Bytes.join]
    rw [hjoin, clean_eq_render, stack, hrelative]
    rfl
  · by_cases hsecond : second = []
    · subst hsecond
      rw [join_nil hfirst, clean_eq_render]
      rfl
    · have hjoin : join [first, second] = clean (first ++ slash :: second) := by
        simp [join, hfirst, hsecond, Bytes.join]
      have habsolute : isAbsolute (first ++ slash :: second) = isAbsolute first := by
        rw [isAbsolute, List.head?_append_of_ne_nil _ hfirst, isAbsolute]
      rw [hjoin, clean_eq_render, stack, habsolute, Bytes.splitOn_append_cons, List.foldl_append,
        stack]

theorem isAbsolute_join {first second : Bytes} (h : first ≠ []) :
    isAbsolute (join [first, second]) = isAbsolute first := by
  rw [join_pair (.inl h)]
  exact ((normal_stack first).foldl fun _ => Bytes.not_mem_of_mem_splitOn).isAbsolute_render

/-! ## The last name -/

theorem base_eq {path : Bytes} (h : path ≠ []) :
    base path = if (path.rdropWhile (· = slash)).isEmpty then [slash]
      else (path.rdropWhile (· = slash)).rtakeWhile (· ≠ slash) := by
  rw [base, if_neg (by rwa [List.isEmpty_iff])]
  rfl

/-- The last name of a path that ends with a name. -/
theorem base_append {front name : Bytes} (hne : name ≠ []) (hslash : slash ∉ name)
    (hfront : ∀ b ∈ front.getLast?, b = slash) : base (front ++ name) = name := by
  obtain ⟨init, b, rfl⟩ := (List.eq_nil_or_concat' name).resolve_left hne
  have hb : b ≠ slash := fun heq => hslash (heq ▸ List.mem_append_right _ List.mem_cons_self)
  have hbody : (front ++ (init ++ [b])).rdropWhile (· = slash) = front ++ (init ++ [b]) := by
    rw [← List.append_assoc]
    exact List.rdropWhile_concat_neg _ _ _ (by simpa using hb)
  have hall : ∀ c ∈ (init ++ [b]).reverse, decide (c ≠ slash) := fun c hc =>
    decide_eq_true fun heq => hslash (heq ▸ List.mem_reverse.mp hc)
  have hstop : front.reverse.takeWhile (· ≠ slash) = [] := by
    rcases List.eq_nil_or_concat' front with rfl | ⟨before, c, rfl⟩
    · rfl
    · have hc : c = slash := hfront c List.getLast?_concat
      rw [List.reverse_concat, List.takeWhile_cons, hc]
      rfl
  rw [base_eq (by simp), hbody, if_neg (by simp), List.rtakeWhile, List.reverse_append,
    List.takeWhile_append_of_pos hall, hstop, List.append_nil, List.reverse_reverse]

theorem join_concat (sep : Bytes) {parts : List Bytes} (h : parts ≠ []) (part : Bytes) :
    Bytes.join sep (parts ++ [part]) = Bytes.join sep parts ++ sep ++ part := by
  induction parts with
  | nil => exact absurd rfl h
  | cons first parts ih =>
      by_cases hnil : parts = []
      · rw [hnil]
        rfl
      · rw [List.cons_append, Bytes.join_cons (by simp), ih hnil, Bytes.join_cons hnil]
        simp

/-- A stack written out ends with its first name, behind a slash or at the start. -/
theorem exists_render_eq_append (rooted : Bool) {name : Bytes} (hne : name ≠ [])
    (names : List Bytes) :
    ∃ front, render rooted (name :: names) = front ++ name ∧ ∀ b ∈ front.getLast?, b = slash := by
  obtain ⟨front, hbody, hfront⟩ : ∃ front,
      Bytes.join [slash] (name :: names).reverse = front ++ name ∧
        ∀ b ∈ front.getLast?, b = slash := by
    by_cases hnil : names = []
    · subst hnil
      exact ⟨[], rfl, nofun⟩
    · refine ⟨Bytes.join [slash] names.reverse ++ [slash], ?_, ?_⟩
      · rw [List.reverse_cons, join_concat _ (List.reverse_ne_nil_iff.mpr hnil)]
      · intro b hb
        rw [List.getLast?_concat] at hb
        exact (Option.some.inj hb).symm
  rw [render, hbody]
  cases rooted with
  | true =>
      refine ⟨slash :: front, rfl, fun b hb => ?_⟩
      cases front with
      | nil => exact (Option.some.inj hb).symm
      | cons c front => exact hfront b (by rwa [List.getLast?_cons_cons] at hb)
  | false => exact ⟨front, by simp [hne], hfront⟩

/-- A path joined with an ordinary name has this as its last name. -/
theorem base_join {first name : Bytes} (hfirst : first ≠ []) (hname : Ordinary name) :
    base (join [first, name]) = name := by
  rw [join_pair (.inl hfirst), Bytes.splitOn_of_not_mem hname.slash, List.foldl_cons,
    List.foldl_nil, step_down hname]
  obtain ⟨front, hrender, hfront⟩ :=
    exists_render_eq_append (isAbsolute first) hname.ne_nil (stack first)
  rw [hrender]
  exact base_append hname.ne_nil hname.slash hfront

/-- A relative path that is its own last name is a name. -/
theorem slash_not_mem_of_base {path : Bytes} (habsolute : isAbsolute path = false)
    (hbase : base path = path) : path ≠ [] ∧ slash ∉ path := by
  have hne : path ≠ [] := by
    rintro rfl
    cases hbase
  refine ⟨hne, ?_⟩
  rw [base_eq hne] at hbase
  split at hbase
  · rw [← hbase] at habsolute
    cases habsolute
  · rw [← hbase]
    intro hmem
    have hnot := List.mem_rtakeWhile_imp hmem
    simp at hnot

end Path

end Backtick
