import Mathlib
import Backtick.Proofs.Outcome
import Backtick.Proofs.Precedence

/-!
# Resolved paths

The files of a run are looked up twice, and in between those are left out that were named
before. What a name is found as is found as itself, and the paths that are left lead to all of
the files, to each of them once. Both rest on paths that lead where they are spelled to lead:
where two dots are taken behind a link, another file may be found, and one may be left out.
-/

open Backtick.Path

namespace Backtick

/-! ## Loading what was found -/

def Loading.note (path : Bytes) (fields : Fields Value) : Log.Event :=
  ⟨.debug, "loaded variables", [("path", .text path), ("count", .int fields.length)]⟩

/-- The files at some paths were loaded, each of them once and in order, up to the first that
cannot be loaded: their values were merged, and there is a report of each. -/
structure Loading.Covers (fs : FileSystem) (start : Store) (paths : List Bytes)
    (loaded : List (Bytes × Fields Value)) (l : Loading) : Prop where
  values : ∀ file ∈ loaded, fs.loadVariables file.1 = .ok file.2
  store : l.store = start.merge (loaded.flatMap Prod.snd)
  events : l.events = loaded.map fun file => note file.1 file.2
  fault : (paths = loaded.map Prod.fst ∧ l.fault = none) ∨
    ∃ path rest f, paths = loaded.map Prod.fst ++ path :: rest ∧
      fs.loadVariables path = .error f ∧ l.fault = some f

namespace FileSystem

variable {fs : FileSystem}

theorem distinctFrom_sublist (fs : FileSystem) (seen : List Nat) (paths : List Bytes) :
    (fs.distinctFrom seen paths).Sublist paths := by
  induction paths generalizing seen with
  | nil => exact .slnil
  | cons path rest ih =>
      cases hid : fs.identity? path with
      | none =>
          simp only [distinctFrom, hid]
          exact (ih seen).cons_cons path
      | some id =>
          simp only [distinctFrom, hid]
          split
          · exact (ih seen).cons path
          · exact (ih (id :: seen)).cons_cons path

/-- Two paths lead to one file. -/
def SameFile (fs : FileSystem) (path other : Bytes) : Prop :=
  ∃ e e', fs.entry? path = some e ∧ fs.entry? other = some e' ∧ e.id = e'.id

section Distinct

variable {path : Bytes} {paths rest : List Bytes} {seen : List Nat} {id : Nat}

theorem distinctFrom_cons_of_mem (hid : fs.identity? path = some id) (h : id ∈ seen) :
    fs.distinctFrom seen (path :: rest) = fs.distinctFrom seen rest := by
  simp only [distinctFrom, hid, List.contains_iff_mem.mpr h, if_true]

theorem distinctFrom_cons_of_not_mem (hid : fs.identity? path = some id) (h : id ∉ seen) :
    fs.distinctFrom seen (path :: rest) = path :: fs.distinctFrom (id :: seen) rest := by
  simp [distinctFrom, hid, h]

/-- What is kept was not seen before. -/
theorem not_mem_of_mem_distinctFrom (hpaths : ∀ path ∈ paths, (fs.identity? path).isSome)
    {kept : Bytes} (hkept : kept ∈ fs.distinctFrom seen paths) (h : fs.identity? kept = some id) :
    id ∉ seen := by
  induction paths generalizing seen with
  | nil => cases hkept
  | cons path rest ih =>
      obtain ⟨hsome, hrest⟩ := List.forall_mem_cons.mp hpaths
      obtain ⟨first, hfirst⟩ := Option.isSome_iff_exists.mp hsome
      by_cases hseen : first ∈ seen
      · rw [distinctFrom_cons_of_mem hfirst hseen] at hkept
        exact ih hrest hkept
      · rw [distinctFrom_cons_of_not_mem hfirst hseen] at hkept
        rcases List.mem_cons.mp hkept with rfl | hkept
        · rwa [Option.some.inj (h.symm.trans hfirst)]
        · exact fun hmem => ih hrest hkept (List.mem_cons_of_mem _ hmem)

/-- Of each identity that was not seen before, a path is kept. -/
theorem exists_mem_distinctFrom (hpaths : ∀ path ∈ paths, (fs.identity? path).isSome)
    (hpath : path ∈ paths) (h : fs.identity? path = some id) (hnew : id ∉ seen) :
    ∃ kept ∈ fs.distinctFrom seen paths, fs.identity? kept = some id := by
  induction paths generalizing seen with
  | nil => cases hpath
  | cons head rest ih =>
      obtain ⟨hsome, hrest⟩ := List.forall_mem_cons.mp hpaths
      obtain ⟨first, hfirst⟩ := Option.isSome_iff_exists.mp hsome
      by_cases hsame : first = id
      · subst hsame
        rw [distinctFrom_cons_of_not_mem hfirst hnew]
        exact ⟨head, List.mem_cons_self, hfirst⟩
      · have hmem : path ∈ rest := by
          refine (List.mem_cons.mp hpath).resolve_left ?_
          rintro rfl
          exact hsame (Option.some.inj (hfirst.symm.trans h))
        by_cases hseen : first ∈ seen
        · rw [distinctFrom_cons_of_mem hfirst hseen]
          exact ih hrest hmem hnew
        · rw [distinctFrom_cons_of_not_mem hfirst hseen]
          obtain ⟨kept, hkept, hid⟩ := ih hrest hmem
            fun hin => (List.mem_cons.mp hin).elim (fun heq => hsame heq.symm) hnew
          exact ⟨kept, List.mem_cons_of_mem _ hkept, hid⟩

theorem pairwise_distinctFrom (hpaths : ∀ path ∈ paths, (fs.identity? path).isSome)
    (seen : List Nat) :
    (fs.distinctFrom seen paths).Pairwise fun path other =>
      fs.identity? path ≠ fs.identity? other := by
  induction paths generalizing seen with
  | nil => exact .nil
  | cons path rest ih =>
      obtain ⟨hsome, hrest⟩ := List.forall_mem_cons.mp hpaths
      obtain ⟨first, hfirst⟩ := Option.isSome_iff_exists.mp hsome
      by_cases hseen : first ∈ seen
      · rw [distinctFrom_cons_of_mem hfirst hseen]
        exact ih hrest seen
      · rw [distinctFrom_cons_of_not_mem hfirst hseen]
        refine List.pairwise_cons.mpr ⟨fun other hother heq => ?_, ih hrest _⟩
        exact not_mem_of_mem_distinctFrom hrest hother (heq.symm.trans hfirst) List.mem_cons_self

end Distinct

/-- Paths that lead to files as they are spelled lead, without repetitions, to the same files. -/
theorem distinct_spec {paths : List Bytes}
    (hpaths : ∀ path ∈ paths, fs.Straight path ∧ fs.isFile path) :
    (∀ path ∈ paths, ∃ kept ∈ fs.distinct paths, fs.SameFile kept path) ∧
      (fs.distinct paths).Pairwise fun path other => ¬fs.SameFile path other := by
  have hentry : ∀ path ∈ paths,
      ∃ e, fs.entry? path = some e ∧ fs.identity? path = some e.id := by
    intro path hpath
    obtain ⟨hstraight, hfile⟩ := hpaths path hpath
    obtain ⟨id, content, hentry⟩ := isFile_iff.mp hfile
    exact ⟨_, hentry, hstraight.identity? hentry⟩
  have hsome : ∀ path ∈ paths, (fs.identity? path).isSome := fun path hpath => by
    obtain ⟨e, -, hid⟩ := hentry path hpath
    rw [hid]
    rfl
  have hsub := (fs.distinctFrom_sublist [] paths).subset
  refine ⟨fun path hpath => ?_, ?_⟩
  · obtain ⟨e, he, hid⟩ := hentry path hpath
    obtain ⟨kept, hkept, hsame⟩ := exists_mem_distinctFrom hsome hpath hid List.not_mem_nil
    obtain ⟨e', he', hid'⟩ := hentry kept (hsub hkept)
    exact ⟨kept, hkept, e', e, he', he, Option.some.inj (hid'.symm.trans hsame)⟩
  · refine (pairwise_distinctFrom hsome []).imp_of_mem fun {path other} hpath hother hne => ?_
    rintro ⟨e, e', he, he', heq⟩
    obtain ⟨_, hf, hid⟩ := hentry path (hsub hpath)
    obtain ⟨_, hf', hid'⟩ := hentry other (hsub hother)
    cases he.symm.trans hf
    cases he'.symm.trans hf'
    exact hne (by rw [hid, hid', heq])

end FileSystem

namespace Environment

variable {env : Environment}

theorem exists_of_mem_resolveAll {names paths : List Bytes} (h : env.resolveAll names = .ok paths) :
    ∀ path ∈ paths, ∃ name ∈ names, env.resolve name = .ok path := by
  induction names generalizing paths with
  | nil =>
      cases h
      exact nofun
  | cons name names ih =>
      cases hname : env.resolve name with
      | error f =>
          simp only [resolveAll, hname] at h
          cases h
      | ok path =>
          simp only [resolveAll, hname] at h
          obtain ⟨rest, hrest, rfl⟩ := map_eq_ok_iff.mp h
          refine List.forall_mem_cons.mpr ⟨⟨name, List.mem_cons_self, hname⟩, fun p hp => ?_⟩
          obtain ⟨other, hother, hfound⟩ := ih hrest p hp
          exact ⟨other, List.mem_cons_of_mem _ hother, hfound⟩

/-- Paths that are found as themselves are loaded as they are. -/
theorem exists_covers {paths : List Bytes} (h : ∀ path ∈ paths, env.resolve path = .ok path)
    (s : Store) : ∃ loaded, (env.loadInto s paths).Covers env.files s paths loaded := by
  induction paths generalizing s with
  | nil => exact ⟨[], nofun, rfl, rfl, .inl ⟨rfl, rfl⟩⟩
  | cons path rest ih =>
      obtain ⟨hpath, hrest⟩ := List.forall_mem_cons.mp h
      cases hload : env.files.loadVariables path with
      | error f =>
          simp only [loadInto, hpath, hload]
          exact ⟨[], nofun, rfl, rfl, .inr ⟨path, rest, f, rfl, hload, rfl⟩⟩
      | ok fields =>
          obtain ⟨loaded, hmore⟩ := ih hrest (s.merge fields)
          simp only [loadInto, hpath, hload]
          refine ⟨(path, fields) :: loaded, ?_, ?_, ?_, ?_⟩
          · exact List.forall_mem_cons.mpr ⟨hload, hmore.values⟩
          · rw [hmore.store, Store.merge_merge, List.flatMap_cons]
          · rw [hmore.events]
            rfl
          · refine hmore.fault.imp ?_ ?_
            · rintro ⟨hall, hnone⟩
              exact ⟨congrArg (path :: ·) hall, hnone⟩
            · rintro ⟨stop, more, f, hsplit, hstop, hfault⟩
              exact ⟨stop, more, f, congrArg (path :: ·) hsplit, hstop, hfault⟩

end Environment

namespace VariableSources

def start (v : VariableSources) : Store :=
  if v.sample then (Store.empty v.missing).merge Store.sampleValues else Store.empty v.missing

/-- The store of a run comes from what was loaded for it, and its reports begin with those of
the files. -/
theorem build_of_resolveAll {v : VariableSources} {env : Environment} {paths : List Bytes}
    (h : env.resolveAll v.files = .ok paths) :
    let loading := env.loadInto v.start (env.files.distinct paths)
    loading.events <+: (v.build env).1 ∧
      (v.build env).2 = loading.fault.elim (loading.store.assignAll v.assignments) .error := by
  intro loading
  have hloading : env.loadInto (if v.sample then (Store.empty v.missing).merge Store.sampleValues
      else Store.empty v.missing) (env.files.distinct paths) = loading := rfl
  simp only [build, h, hloading]
  cases hfault : loading.fault with
  | some f => exact ⟨List.prefix_rfl, rfl⟩
  | none =>
      cases hassign : loading.store.assignAll v.assignments with
      | error f => exact ⟨List.prefix_rfl, rfl⟩
      | ok s => exact ⟨List.prefix_append _ _, rfl⟩

end VariableSources

/-! ## Finding a file twice -/

namespace Environment

open VariableSources (linkedFiles namedAgain linkedFiles_plain)

/--
What a name is found as is found as itself, in any directories; if the name is one or two dots,
the clean paths of the directories have to lead to directories. The files of a run, with names
whose dots are not taken behind a link, are loaded from where their names were found: those that
are left without repetitions lead to all of the files, to each of them once, and are loaded up to
the first that cannot be.
-/
theorem found_again_as_itself (env : Environment) :
    (∀ dirs : List Bytes, (∀ dir ∈ dirs, dir ≠ []) → ∀ name path,
      (name = ↑"." ∨ name = ↑".." → ∀ dir ∈ dirs, env.files.isDirectory (clean dir)) →
      resolveIn env.files dirs name = .ok path → resolveIn env.files dirs path = .ok path) ∧
    ∀ (v : VariableSources) (paths : List Bytes), (∀ name ∈ v.files, env.Plain name) →
      env.resolveAll v.files = .ok paths →
      let kept := env.files.distinct paths
      (∀ path ∈ kept, env.resolve path = .ok path) ∧
      (∀ path ∈ paths, ∃ other ∈ kept, env.files.SameFile other path) ∧
      kept.Pairwise (fun path other => ¬env.files.SameFile path other) ∧
      ∃ (loaded : List (Bytes × Fields Value)) (loading : Loading),
        loading.Covers env.files v.start kept loaded ∧
        loading.events <+: (v.build env).1 ∧
        (v.build env).2 = loading.fault.elim (loading.store.assignAll v.assignments) .error := by
  refine ⟨fun dirs hdirs name path hdots h => resolveIn_of_resolveIn hdirs hdots h, ?_⟩
  intro v paths hplain hpaths kept
  have hfound : ∀ path ∈ paths, (env.resolve path = .ok path ∧ env.files.Straight path) ∧
      env.files.isFile path := by
    intro path hpath
    obtain ⟨name, hmem, hname⟩ := exists_of_mem_resolveAll hpaths path hpath
    exact ⟨⟨(hplain name hmem).resolve hname, (hplain name hmem).straight path hname⟩,
      isFile_of_resolveIn hname⟩
  have hkept : ∀ path ∈ kept, env.resolve path = .ok path := fun path hpath =>
    (hfound path ((env.files.distinctFrom_sublist [] paths).subset hpath)).1.1
  obtain ⟨hall, honce⟩ := FileSystem.distinct_spec fun path hpath =>
    ⟨(hfound path hpath).1.2, (hfound path hpath).2⟩
  obtain ⟨loaded, hcovers⟩ := exists_covers hkept v.start
  exact ⟨hkept, hall, honce, loaded, _, hcovers, VariableSources.build_of_resolveAll hpaths⟩

/-- A file in a linked directory is found as itself, and so are those of a run; the third of
these is the first one again. -/
theorem found_again_as_itself_sample :
    let dirs : List Bytes := ["/work", ".", "shelf"]
    (resolveIn linkedFiles.files dirs "c" = .ok "shelf/c.yaml" ∧
      resolveIn linkedFiles.files dirs "shelf/c.yaml" = .ok "shelf/c.yaml") ∧
    (∀ name ∈ namedAgain.files, linkedFiles.Plain name) ∧
    linkedFiles.files.SameFile "/work/a.yaml" "shelf/c.yaml" ∧
    ∃ loaded loading, Loading.Covers linkedFiles.files namedAgain.start
      [↑"/work/a.yaml", ↑"./b.yaml"] loaded loading := by
  intro dirs
  have hfound : resolveIn linkedFiles.files dirs "c" = .ok "shelf/c.yaml" := rfl
  have hpaths : linkedFiles.resolveAll namedAgain.files =
      .ok [↑"/work/a.yaml", ↑"./b.yaml", ↑"shelf/c.yaml"] := rfl
  have hkept : linkedFiles.files.distinct [↑"/work/a.yaml", ↑"./b.yaml", ↑"shelf/c.yaml"] =
      [↑"/work/a.yaml", ↑"./b.yaml"] := by decide +kernel
  obtain ⟨hagain, hrun⟩ := found_again_as_itself linkedFiles
  obtain ⟨-, -, -, loaded, loading, hcovers, -⟩ := hrun namedAgain _ linkedFiles_plain hpaths
  rw [hkept] at hcovers
  refine ⟨⟨hfound, hagain dirs (by decide) _ _ (fun h => ?_) hfound⟩, linkedFiles_plain,
    ⟨_, _, rfl, rfl, rfl⟩, loaded, loading, hcovers⟩
  exact absurd h (by decide)

/-- A working directory with two files and a link to a directory elsewhere. Behind the link, two
dots lead to a directory and a file with the names of the two files. -/
def leftLink : FileSystem :=
  let places : List (Bytes × Standing) :=
    [ ("/", .entry (.directory 0)), ("/work", .entry (.directory 1)),
      ("/work/f", .entry (.file 2 [])), ("/work/g", .entry (.file 3 [])),
      ("/work/link", .link "/other/sub"), ("/other", .entry (.directory 4)),
      ("/other/sub", .entry (.directory 5)), ("/other/f", .entry (.directory 6)),
      ("/other/g", .entry (.file 7 [])) ]
  ⟨"/work", fun place => places.lookup place⟩

/-- A dot is found as a file that is not found as itself, and of two files one is left out. -/
theorem dots_behind_link_found_elsewhere :
    let dirs : List Bytes := ["/work", "link/../f"]
    ((∀ dir ∈ dirs, dir ≠ [] ∧ leftLink.isDirectory dir) ∧
      resolveIn leftLink dirs "." = .ok "f" ∧ resolveIn leftLink dirs "f" = .ok "/work/f") ∧
    (leftLink.isFile "g" ∧ leftLink.isFile "link/../g" ∧ ¬leftLink.SameFile "g" "link/../g" ∧
      leftLink.distinct [↑"g", ↑"link/../g"] = [↑"g"]) := by
  refine ⟨⟨by decide +kernel, rfl, rfl⟩, rfl, rfl, ?_, by decide +kernel⟩
  rintro ⟨e, e', he, he', heq⟩
  cases he
  cases he'
  cases heq

end Environment

end Backtick
