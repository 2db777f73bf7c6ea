import Mathlib
import Backtick.Files.System
import Backtick.Proofs.Outcome
import Backtick.Proofs.Paths

/-!
# Where paths lead

A path is followed from place to place. Two dots lead from where a link has led to, so that
they cannot be taken off together with the name of the link: a path may lead elsewhere than
its clean form. Empty names and single dots lead nowhere, and a path without two dots leads
where it is spelled to lead.
-/

open Backtick.Path

namespace Backtick

namespace FileSystem

variable {fs : FileSystem}

def DirectoryAt (fs : FileSystem) (place : Bytes) : Prop :=
  ∃ id, fs.standing place = some (.entry (.directory id))

/-- Names lead from a place to another one, through not more than some links. -/
inductive Reaches (fs : FileSystem) : Nat -> Bytes -> List Bytes -> Bytes -> Prop
  | here {links : Nat} {place : Bytes} : Reaches fs links place [] place
  | name {links : Nat} {place name stop : Bytes} {rest : List Bytes} (hdir : fs.DirectoryAt place)
      (hnext : ∀ target, fs.standing (join [place, name]) ≠ some (.link target))
      (h : Reaches fs links (join [place, name]) rest stop) :
      Reaches fs links place (name :: rest) stop
  | link {links : Nat} {place name target stop : Bytes} {rest : List Bytes}
      (hdir : fs.DirectoryAt place) (hlink : fs.standing (join [place, name]) = some (.link target))
      (h : Reaches fs links (if isAbsolute target then [slash] else place)
        (Bytes.splitOn slash target ++ rest) stop) :
      Reaches fs (links + 1) place (name :: rest) stop

/-! ## Following names -/

theorem descend_link {place name target : Bytes} (hdir : fs.DirectoryAt place)
    (hlink : fs.standing (join [place, name]) = some (.link target)) (rest : List Bytes) :
    fs.descend place (name :: rest) = .meets place target rest := by
  obtain ⟨id, hid⟩ := hdir
  rw [descend, hid]
  simp only [hlink]

theorem descend_name {place name : Bytes} (hdir : fs.DirectoryAt place)
    (hnext : ∀ target, fs.standing (join [place, name]) ≠ some (.link target))
    (rest : List Bytes) :
    fs.descend place (name :: rest) = fs.descend (join [place, name]) rest := by
  obtain ⟨id, hid⟩ := hdir
  rw [descend, hid]
  cases hstanding : fs.standing (join [place, name]) with
  | none => simp only [hstanding]
  | some standing =>
      cases standing with
      | entry e => simp only [hstanding]
      | link target => exact absurd hstanding (hnext target)

theorem follow_nil (links : Nat) (place : Bytes) : fs.follow links place [] = .ok place := by
  rw [follow.eq_def, descend]

theorem follow_name {place name : Bytes} (hdir : fs.DirectoryAt place)
    (hnext : ∀ target, fs.standing (join [place, name]) ≠ some (.link target)) (links : Nat)
    (rest : List Bytes) :
    fs.follow links place (name :: rest) = fs.follow links (join [place, name]) rest := by
  rw [follow.eq_def, descend_name hdir hnext, ← follow.eq_def]

theorem follow_link {place name target : Bytes} (hdir : fs.DirectoryAt place)
    (hlink : fs.standing (join [place, name]) = some (.link target)) (links : Nat)
    (rest : List Bytes) :
    fs.follow (links + 1) place (name :: rest) =
      fs.follow links (if isAbsolute target then [slash] else place)
        (Bytes.splitOn slash target ++ rest) := by
  rw [follow.eq_def, descend_link hdir hlink]

/-- What the first name does: it leads on, or to a link, which takes up one of the links left. -/
theorem follow_cons {links : Nat} {place name stop : Bytes} {rest : List Bytes}
    (h : fs.follow links place (name :: rest) = .ok stop) :
    fs.DirectoryAt place ∧
      (((∀ target, fs.standing (join [place, name]) ≠ some (.link target)) ∧
          fs.follow links (join [place, name]) rest = .ok stop) ∨
        ∃ target fewer, links = fewer + 1 ∧
          fs.standing (join [place, name]) = some (.link target) ∧
          fs.follow fewer (if isAbsolute target then [slash] else place)
            (Bytes.splitOn slash target ++ rest) = .ok stop) := by
  have hdir : fs.DirectoryAt place := by
    rw [follow.eq_def, descend] at h
    cases hstanding : fs.standing place with
    | none =>
        simp only [hstanding] at h
        cases h
    | some standing =>
        cases standing with
        | entry e =>
            cases e with
            | directory id => exact ⟨id, hstanding⟩
            | file id content =>
                simp only [hstanding] at h
                cases h
        | link target =>
            simp only [hstanding] at h
            cases h
  refine ⟨hdir, ?_⟩
  by_cases hlink : ∃ target, fs.standing (join [place, name]) = some (.link target)
  · obtain ⟨target, hlink⟩ := hlink
    cases links with
    | zero =>
        rw [follow.eq_def, descend_link hdir hlink] at h
        cases h
    | succ fewer =>
        rw [follow_link hdir hlink] at h
        exact .inr ⟨target, fewer, rfl, hlink, h⟩
  · have hnext := not_exists.mp hlink
    rw [follow_name hdir hnext] at h
    exact .inl ⟨hnext, h⟩

theorem reaches_of_follow {links : Nat} {place stop : Bytes} {names : List Bytes}
    (h : fs.follow links place names = .ok stop) : fs.Reaches links place names stop := by
  -- a link takes up one of the links left, and any other name is one less to follow
  induction links using Nat.strong_induction_on generalizing place names with
  | _ links ihlinks =>
      induction names generalizing place with
      | nil =>
          rw [follow_nil] at h
          cases h
          exact .here
      | cons name rest ih =>
          obtain ⟨hdir, ⟨hnext, h⟩ | ⟨target, fewer, rfl, hlink, h⟩⟩ := follow_cons h
          · exact .name hdir hnext (ih h)
          · exact .link hdir hlink (ihlinks fewer (Nat.lt_succ_self fewer) h)

/-- Names are followed to the place to which they lead. -/
theorem follow_eq_ok_iff {links : Nat} {place stop : Bytes} {names : List Bytes} :
    fs.follow links place names = .ok stop ↔ fs.Reaches links place names stop := by
  refine ⟨reaches_of_follow, fun h => ?_⟩
  induction h with
  | here => exact follow_nil _ _
  | name hdir hnext _ ih => rw [follow_name hdir hnext, ih]
  | link hdir hlink _ ih => rw [follow_link hdir hlink, ih]

namespace Reaches

theorem mono {links more : Nat} {place stop : Bytes} {names : List Bytes}
    (h : fs.Reaches links place names stop) (hle : links ≤ more) :
    fs.Reaches more place names stop := by
  induction h generalizing more with
  | here => exact .here
  | name hdir hnext _ ih => exact .name hdir hnext (ih hle)
  | link hdir hlink _ ih =>
      obtain ⟨fewer, rfl⟩ := Nat.exists_eq_add_of_le' (Nat.one_le_of_lt hle)
      exact .link hdir hlink (ih (Nat.le_of_succ_le_succ hle))

theorem append {links more : Nat} {place middle stop : Bytes} {names rest : List Bytes}
    (h : fs.Reaches links place names middle) (hrest : fs.Reaches more middle rest stop) :
    fs.Reaches (links + more) place (names ++ rest) stop := by
  induction h with
  | here => exact hrest.mono (Nat.le_add_left _ _)
  | name hdir hnext _ ih => exact .name hdir hnext (ih hrest)
  | link hdir hlink _ ih =>
      rw [Nat.add_right_comm]
      have hmore := ih hrest
      rw [List.append_assoc] at hmore
      exact .link hdir hlink hmore

theorem split {links : Nat} {place stop : Bytes} {names rest : List Bytes}
    (h : fs.Reaches links place (names ++ rest) stop) :
    ∃ middle, fs.Reaches links place names middle ∧ fs.Reaches links middle rest stop := by
  generalize hall : names ++ rest = all at h
  induction h generalizing names with
  | here =>
      obtain ⟨rfl, rfl⟩ := List.append_eq_nil_iff.mp hall
      exact ⟨_, .here, .here⟩
  | @name links place name stop more hdir hnext h ih =>
      cases names with
      | nil =>
          obtain rfl : rest = name :: more := hall
          exact ⟨place, .here, .name hdir hnext h⟩
      | cons first names =>
          obtain ⟨rfl, rfl⟩ := List.cons.inj hall
          obtain ⟨middle, hfirst, hrest⟩ := ih rfl
          exact ⟨middle, .name hdir hnext hfirst, hrest⟩
  | @link links place name target stop more hdir hlink h ih =>
      cases names with
      | nil =>
          obtain rfl : rest = name :: more := hall
          exact ⟨place, .here, .link hdir hlink h⟩
      | cons first names =>
          obtain ⟨rfl, rfl⟩ := List.cons.inj hall
          obtain ⟨middle, hfirst, hrest⟩ := ih (List.append_assoc _ _ _)
          exact ⟨middle, .link hdir hlink hfirst, hrest.mono (Nat.le_succ _)⟩

theorem directoryAt {links : Nat} {place stop : Bytes} {names : List Bytes}
    (h : fs.Reaches links place names stop) (hne : names ≠ []) : fs.DirectoryAt place := by
  cases h with
  | here => exact absurd rfl hne
  | name hdir => exact hdir
  | link hdir => exact hdir

end Reaches

/-! ## Places -/

/-- An absolute path without dots. -/
def IsPlace (place : Bytes) : Prop :=
  ∃ names, Normal true names ∧ place = render true names

theorem isPlace_root : IsPlace [slash] := ⟨[], .nil, rfl⟩

namespace IsPlace

variable {place name : Bytes}

theorem join_eq {names : List Bytes} (hnormal : Normal true names) (hname : slash ∉ name) :
    Path.join [render true names, name] = render true (step true names name) := by
  rw [join_pair (.inl (render_ne_nil _ _)), hnormal.isAbsolute_render, hnormal.stack_render,
    Bytes.splitOn_of_not_mem hname, List.foldl_cons, List.foldl_nil]

theorem join (h : IsPlace place) (hname : slash ∉ name) : IsPlace (Path.join [place, name]) := by
  obtain ⟨names, hnormal, rfl⟩ := h
  exact ⟨_, hnormal.step hname, join_eq hnormal hname⟩

theorem join_skip (h : IsPlace place) (hname : name = [] ∨ name = ↑".") :
    Path.join [place, name] = place := by
  obtain ⟨names, hnormal, rfl⟩ := h
  have hslash : slash ∉ name := by
    obtain rfl | rfl := hname <;> decide
  rw [join_eq hnormal hslash, step_skip hname]

/-- A link leads on from the root or from its directory. -/
theorem behind_link (h : IsPlace place) (target : Bytes) :
    IsPlace (if isAbsolute target then [slash] else place) := by
  split
  · exact isPlace_root
  · exact h

end IsPlace

theorem DirectoryAt.not_link {place : Bytes} (h : fs.DirectoryAt place) (target : Bytes) :
    fs.standing place ≠ some (.link target) := by
  obtain ⟨id, hid⟩ := h
  rw [hid]
  nofun

theorem Reaches.isPlace {links : Nat} {place stop : Bytes} {names : List Bytes}
    (h : fs.Reaches links place names stop) (hplace : IsPlace place)
    (hnames : ∀ name ∈ names, slash ∉ name) : IsPlace stop := by
  induction h with
  | here => exact hplace
  | name _ _ _ ih =>
      obtain ⟨hname, hnames⟩ := List.forall_mem_cons.mp hnames
      exact ih (hplace.join hname) hnames
  | link _ _ _ ih =>
      exact ih (hplace.behind_link _) (List.forall_mem_append.mpr
        ⟨fun _ => Bytes.not_mem_of_mem_splitOn, (List.forall_mem_cons.mp hnames).2⟩)

/-- Names without some of those that lead nowhere. -/
inductive Trims : List Bytes -> List Bytes -> Prop
  | nil : Trims [] []
  | keep {name : Bytes} {names kept : List Bytes} (h : Trims names kept) :
      Trims (name :: names) (name :: kept)
  | skip {name : Bytes} {names kept : List Bytes} (hname : name = [] ∨ name = ↑".")
      (h : Trims names kept) : Trims (name :: names) kept

theorem Trims.append_left {names kept : List Bytes} (h : Trims names kept) (first : List Bytes) :
    Trims (first ++ names) (first ++ kept) := by
  induction first with
  | nil => exact h
  | cons name first ih => exact .keep ih

theorem Reaches.trim {links : Nat} {place stop : Bytes} {names kept : List Bytes}
    (h : fs.Reaches links place names stop) (hplace : IsPlace place)
    (hnames : ∀ name ∈ names, slash ∉ name) (htrims : Trims names kept) :
    fs.Reaches links place kept stop := by
  induction h generalizing kept with
  | here =>
      cases htrims
      exact .here
  | name hdir hnext _ ih =>
      obtain ⟨hname, hnames⟩ := List.forall_mem_cons.mp hnames
      have hjoin := hplace.join hname
      cases htrims with
      | keep htrims => exact .name hdir hnext (ih hjoin hnames htrims)
      | skip hskip htrims =>
          rw [hplace.join_skip hskip] at ih hjoin
          exact ih hjoin hnames htrims
  | @link _ place _ target _ rest hdir hlink _ ih =>
      have hrest := (List.forall_mem_cons.mp hnames).2
      cases htrims with
      | keep htrims =>
          refine .link hdir hlink (ih (hplace.behind_link target) ?_ (htrims.append_left _))
          exact List.forall_mem_append.mpr ⟨fun _ => Bytes.not_mem_of_mem_splitOn, hrest⟩
      | skip hskip =>
          -- the name leads back to its directory, which is no link
          rw [hplace.join_skip hskip] at hlink
          exact absurd hlink (hdir.not_link target)

/-- A name that leads nowhere may stand before others. -/
theorem Reaches.skip {links : Nat} {place name stop : Bytes} {names : List Bytes}
    (h : fs.Reaches links place names stop) (hplace : IsPlace place)
    (hdir : fs.DirectoryAt place) (hname : name = [] ∨ name = ↑".") :
    fs.Reaches links place (name :: names) stop := by
  have hjoin := hplace.join_skip hname
  exact .name hdir (by rw [hjoin]; exact hdir.not_link) (by rwa [hjoin])

/-! ## What paths lead to -/

theorem origin_eq_ok {path start : Bytes} (h : fs.origin path = .ok start) : IsPlace start := by
  rw [origin] at h
  split at h
  · cases h
    exact isPlace_root
  · exact (reaches_of_follow h).isPlace isPlace_root fun _ => Bytes.not_mem_of_mem_splitOn

theorem place_eq_ok_iff {path stop : Bytes} :
    fs.place path = .ok stop ↔ path ≠ [] ∧ ∃ start, fs.origin path = .ok start ∧
      fs.Reaches linkLimit start (Bytes.splitOn slash path) stop := by
  rw [place]
  split
  · rename_i hempty
    simp [List.isEmpty_iff.mp hempty]
  · rename_i hempty
    rw [bind_eq_ok_iff]
    simp only [follow_eq_ok_iff]
    exact ⟨fun h => ⟨fun hnil => hempty (List.isEmpty_iff.mpr hnil), h⟩, fun h => h.2⟩

theorem entryAt_eq_ok_iff {place : Bytes} {e : FileEntry} :
    fs.entryAt place = .ok e ↔ fs.standing place = some (.entry e) := by
  rw [entryAt]
  split
  · rename_i other hstanding
    rw [hstanding]
    simp
  · rename_i hnot
    refine ⟨fun h => ?_, fun h => absurd h (hnot e)⟩
    cases h

theorem toOption_eq_some_iff {ε α : Type} {x : Except ε α} {a : α} :
    x.toOption = some a ↔ x = .ok a := by
  cases x <;> simp [Except.toOption]

theorem lookup_of_entry? {path : Bytes} {e : FileEntry} (h : fs.entry? path = some e) :
    fs.lookup path = .ok e :=
  toOption_eq_some_iff.mp h

theorem entry?_eq_some_iff {path : Bytes} {e : FileEntry} :
    fs.entry? path = some e ↔
      ∃ stop, fs.place path = .ok stop ∧ fs.standing stop = some (.entry e) := by
  unfold entry? lookup
  rw [toOption_eq_some_iff, bind_eq_ok_iff]
  simp only [entryAt_eq_ok_iff]

theorem isFile_iff {path : Bytes} :
    fs.isFile path ↔ ∃ id content, fs.entry? path = some (.file id content) := by
  rw [isFile.eq_def]
  split <;> simp_all

theorem isDirectory_iff {path : Bytes} :
    fs.isDirectory path ↔ ∃ stop, fs.place path = .ok stop ∧ fs.DirectoryAt stop := by
  rw [isDirectory.eq_def]
  split
  · rename_i id hentry
    obtain ⟨stop, hplace, hstanding⟩ := entry?_eq_some_iff.mp hentry
    exact iff_of_true rfl ⟨stop, hplace, id, hstanding⟩
  · rename_i hnot
    refine iff_of_false Bool.false_ne_true ?_
    rintro ⟨stop, hplace, id, hstanding⟩
    exact hnot id (entry?_eq_some_iff.mpr ⟨stop, hplace, hstanding⟩)

theorem not_isFile_of_isDirectory {path : Bytes} (h : fs.isDirectory path) :
    fs.isFile path = false := by
  rw [Bool.eq_false_iff]
  intro hfile
  obtain ⟨id, content, hentry⟩ := isFile_iff.mp hfile
  rw [isDirectory, hentry] at h
  cases h

theorem isAbsolute_append {path : Bytes} (hne : path ≠ []) (more : Bytes) :
    isAbsolute (path ++ more) = isAbsolute path := by
  rw [isAbsolute, List.head?_append_of_ne_nil _ hne, isAbsolute]

/-- What stands before a slash of a path leads to a directory. -/
theorem isDirectory_of_append {path more : Bytes} (hne : path ≠ [])
    (h : fs.isDirectory (path ++ slash :: more)) : fs.isDirectory path := by
  obtain ⟨stop, hplace, -⟩ := isDirectory_iff.mp h
  obtain ⟨-, start, horigin, hreaches⟩ := place_eq_ok_iff.mp hplace
  rw [Bytes.splitOn_append_cons] at hreaches
  obtain ⟨middle, hfirst, hrest⟩ := hreaches.split
  have horigin' : fs.origin path = .ok start := by
    rw [origin, isAbsolute_append hne] at horigin
    exact horigin
  exact isDirectory_iff.mpr ⟨middle, place_eq_ok_iff.mpr ⟨hne, start, horigin', hfirst⟩,
    hrest.directoryAt (Bytes.splitOn_ne_nil _ _)⟩

/-- One dot leads to a directory, if anywhere. -/
theorem not_isFile_dot : fs.isFile "." = false := by
  rw [Bool.eq_false_iff]
  intro hfile
  obtain ⟨id, content, hentry⟩ := isFile_iff.mp hfile
  obtain ⟨stop, hplace, hstanding⟩ := entry?_eq_some_iff.mp hentry
  obtain ⟨-, start, horigin, hreaches⟩ := place_eq_ok_iff.mp hplace
  have hreaches : fs.Reaches linkLimit start [↑"."] stop := hreaches
  have hstart := origin_eq_ok horigin
  have hdir := hreaches.directoryAt (List.cons_ne_nil _ _)
  have hstay : fs.Reaches linkLimit start [] stop :=
    hreaches.trim hstart (by decide) (.skip (.inr rfl) .nil)
  cases hstay
  obtain ⟨other, hother⟩ := hdir
  cases hother.symm.trans hstanding

/-! ## Paths with their dots taken by name -/

/-- A path leads where it leads once its dots are taken by name: none of them is taken behind
a link. -/
def Straight (fs : FileSystem) (path : Bytes) : Prop :=
  fs.spelledPlace path = fs.place path

theorem Straight.identity? {path : Bytes} (h : fs.Straight path) {e : FileEntry}
    (hentry : fs.entry? path = some e) : fs.identity? path = some e.id := by
  obtain ⟨stop, hplace, hstanding⟩ := entry?_eq_some_iff.mp hentry
  rw [FileSystem.identity?, h, hplace, ok_bind, entryAt_eq_ok_iff.mpr hstanding]
  rfl

theorem trims_filter {names : List Bytes} (hnames : ∀ name ∈ names, slash ∉ name)
    (hdots : ↑".." ∉ names) (rooted : Bool) :
    ∃ kept, Trims names kept ∧
      ∀ sofar, names.foldl (step rooted) sofar = kept.reverse ++ sofar := by
  induction names with
  | nil => exact ⟨[], .nil, fun _ => rfl⟩
  | cons name names ih =>
      obtain ⟨hname, hnames⟩ := List.forall_mem_cons.mp hnames
      rw [List.mem_cons, not_or] at hdots
      obtain ⟨kept, htrims, hfold⟩ := ih hnames hdots.2
      obtain hskip | rfl | hdown := name_cases hname
      · refine ⟨kept, .skip hskip htrims, fun sofar => ?_⟩
        rw [List.foldl_cons, step_skip hskip, hfold]
      · exact absurd rfl hdots.1
      · refine ⟨name :: kept, .keep htrims, fun sofar => ?_⟩
        rw [List.foldl_cons, step_down hdown, hfold, List.reverse_cons, List.append_assoc]
        rfl

/-- The names of a stack that is written out lead where those of the stack lead. -/
theorem Reaches.render {links : Nat} {place stop : Bytes} {names : List Bytes} {rooted : Bool}
    (hnormal : Normal rooted names) (h : fs.Reaches links place names.reverse stop)
    (hplace : IsPlace place) (hdir : fs.DirectoryAt place) :
    fs.Reaches links place (Bytes.splitOn slash (Path.render rooted names)) stop := by
  by_cases hne : names = []
  · subst hne
    cases rooted with
    | true => exact (h.skip hplace hdir (.inl rfl)).skip hplace hdir (.inl rfl)
    | false => exact h.skip hplace hdir (.inr rfl)
  · have hsplit := Bytes.splitOn_join (List.reverse_ne_nil_iff.mpr hne)
      fun name hname => (hnormal.names name (List.mem_reverse.mp hname)).2
    cases rooted with
    | false =>
        rwa [render_false_of_ne_nil hne fun name hname => (hnormal.names name hname).1, hsplit]
    | true =>
        have hrender : Bytes.splitOn slash (Path.render true names) =
            [] :: Bytes.splitOn slash (Bytes.join [slash] names.reverse) := if_pos rfl
        rw [hrender, hsplit]
        exact h.skip hplace hdir (.inl rfl)

/-- Names without two dots lead where their stack leads. -/
theorem Reaches.spelled {links : Nat} {stop : Bytes} {names : List Bytes}
    (h : fs.Reaches links [slash] names stop) (hne : names ≠ [])
    (hnames : ∀ name ∈ names, slash ∉ name) (hdots : ↑".." ∉ names) (rooted : Bool) :
    fs.Reaches links [slash]
      (Bytes.splitOn slash (Path.render rooted (names.foldl (step rooted) []))) stop := by
  obtain ⟨kept, htrims, hfold⟩ := trims_filter hnames hdots rooted
  have hnormal : Normal rooted (names.foldl (step rooted) []) := Normal.nil.foldl hnames
  refine Reaches.render hnormal ?_ isPlace_root (h.directoryAt hne)
  rw [hfold, List.append_nil, List.reverse_reverse]
  exact h.trim isPlace_root hnames htrims

/-- A path without two dots leads where it is spelled to lead, whatever links are on its way. -/
theorem straight_of_no_dots {path stop : Bytes} (h : fs.place path = .ok stop)
    (hwork : ↑".." ∉ Bytes.splitOn slash fs.workDir) (hpath : ↑".." ∉ Bytes.splitOn slash path) :
    fs.Straight path := by
  obtain ⟨hne, start, horigin, hreaches⟩ := place_eq_ok_iff.mp h
  have hpieces : ∀ text : Bytes, ∀ name ∈ Bytes.splitOn slash text, slash ∉ name :=
    fun _ _ => Bytes.not_mem_of_mem_splitOn
  rw [Straight, h, spelledPlace, follow_eq_ok_iff, absolute]
  rw [origin] at horigin
  split at horigin
  · rename_i habsolute
    cases horigin
    rw [if_pos habsolute, clean_eq_render, stack]
    exact (hreaches.spelled (Bytes.splitOn_ne_nil _ _) (hpieces path) hpath _).mono (by decide)
  · rename_i hrelative
    have hsplit := (reaches_of_follow horigin).append hreaches
    rw [if_neg hrelative, join_pair (.inr ⟨hne, Bool.eq_false_iff.mpr hrelative⟩), stack,
      ← List.foldl_append]
    refine Reaches.mono (hsplit.spelled ?_ ?_ ?_ _) (by decide)
    · exact List.append_ne_nil_of_left_ne_nil (Bytes.splitOn_ne_nil _ _) _
    · exact List.forall_mem_append.mpr ⟨hpieces _, hpieces _⟩
    · exact fun hmem => (List.mem_append.mp hmem).elim hwork hpath

end FileSystem

end Backtick
