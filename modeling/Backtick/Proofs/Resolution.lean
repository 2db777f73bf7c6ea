import Mathlib
import Backtick.Proofs.Walks
import Backtick.Variables.Search

/-!
# Finding a variable file twice

The file that a name is found as is found again under the path that it was found at: a path
with a directory is used as it is, and a bare one names the file in the first of the
directories that have it. One or two dots name no file of a directory, but joined with its
path they may spell one, if the path leads elsewhere than its clean form.
-/

open Backtick.Path

namespace Backtick

/-! ## The names of a variable file -/

namespace Environment

theorem extension_ne_nil {name : Bytes} (hslash : slash ∉ name) (hdot : '.'.toUInt8 ∈ name) :
    extension name ≠ [] := by
  have hall : name.reverse.takeWhile (· ≠ slash) = name.reverse :=
    List.takeWhile_eq_self_iff.mpr fun b hb =>
      decide_eq_true fun heq => hslash (heq ▸ List.mem_reverse.mp hb)
  rw [extension, hall, List.reverse_reverse, List.span_eq_takeWhile_dropWhile]
  split
  · rename_i heq
    have hnone := List.dropWhile_eq_nil_iff.mp (Prod.mk.inj heq).2 _ (List.mem_reverse.mpr hdot)
    simp at hnone
  · exact List.cons_ne_nil _ _

theorem extension_of_mem_varsExtensions {ext : Bytes} (h : ext ∈ varsExtensions) :
    slash ∉ ext ∧ '.'.toUInt8 ∈ ext ∧ 2 < ext.length := by
  revert ext
  decide

/-- A name that is tried is the given one, or it is tried as it stands only. -/
theorem fileNames_of_mem {name file : Bytes} (hslash : slash ∉ name) (h : file ∈ fileNames name) :
    slash ∉ file ∧ (file = name ∨ fileNames file = [file]) := by
  rw [fileNames] at h
  split at h
  · obtain rfl | htried := List.mem_cons.mp h
    · exact ⟨hslash, .inl rfl⟩
    · obtain ⟨ext, hext, rfl⟩ := List.mem_map.mp htried
      obtain ⟨hfree, hdot, -⟩ := extension_of_mem_varsExtensions hext
      have hslash' : slash ∉ name ++ ext :=
        fun hmem => (List.mem_append.mp hmem).elim hslash hfree
      have hne := extension_ne_nil hslash' (List.mem_append_right _ hdot)
      refine ⟨hslash', .inr ?_⟩
      rw [fileNames, if_neg fun hempty => hne (List.isEmpty_iff.mp hempty)]
  · rw [List.mem_singleton.mp h]
    exact ⟨hslash, .inl rfl⟩

/-- What is tried for an ordinary name is an ordinary name. -/
theorem ordinary_of_mem_fileNames {name file : Bytes} (hname : Ordinary name)
    (h : file ∈ fileNames name) : Ordinary file := by
  rw [fileNames] at h
  split at h
  · obtain rfl | htried := List.mem_cons.mp h
    · exact hname
    · obtain ⟨ext, hext, rfl⟩ := List.mem_map.mp htried
      obtain ⟨hfree, -, hlength⟩ := extension_of_mem_varsExtensions hext
      have hlong : ∀ short : Bytes, short.length ≤ 2 → name ++ ext ≠ short := by
        rintro short hshort rfl
        rw [List.length_append] at hshort
        omega
      exact ⟨hlong [] (by decide), hlong _ (by decide), hlong _ (by decide),
        fun hmem => (List.mem_append.mp hmem).elim hname.slash hfree⟩
  · rwa [List.mem_singleton.mp h]

/-- Dots are tried as they stand only. -/
theorem fileNames_dots {name : Bytes} (h : name = ↑"." ∨ name = ↑"..") :
    fileNames name = [name] := by
  obtain rfl | rfl := h <;> rfl

/-! ## Finding a file again -/

variable {fs : FileSystem} {dirs : List Bytes}

theorem find?_places (dirs : List Bytes) (name : Bytes) (p : Bytes -> Bool) :
    (places dirs name).find? p =
      dirs.findSome? fun dir => ((fileNames name).map fun file => join [dir, file]).find? p :=
  List.find?_flatMap

theorem isFile_of_resolveIn {name path : Bytes} (h : resolveIn fs dirs name = .ok path) :
    fs.isFile path := by
  rw [resolveIn] at h
  split at h
  · split at h
    · cases h
      assumption
    · cases h
  · split at h
    · rename_i hfound
      cases h
      exact List.find?_some hfound
    · cases h

/-- A bare path that is found for an ordinary name is found in the same directory for itself. -/
theorem find?_places_again (hdirs : ∀ dir ∈ dirs, dir ≠ []) {name path : Bytes}
    (hname : Ordinary name) (hbare : base path = path)
    (h : (places dirs name).find? fs.isFile = some path) :
    (places dirs path).find? fs.isFile = some path := by
  have hfind := h
  rw [find?_places, List.findSome?_eq_some_iff] at h
  obtain ⟨before, dir, after, hsplit, hhere, hbefore⟩ := h
  have hdir := hdirs dir (by rw [hsplit]; exact List.mem_append_cons_self)
  obtain ⟨file, hfile, rfl⟩ := List.mem_map.mp (List.mem_of_find?_eq_some hhere)
  have hfound := List.find?_some hhere
  have heq : join [dir, file] = file := by
    rw [← hbare, base_join hdir (ordinary_of_mem_fileNames hname hfile)]
  obtain hsame | honly := (fileNames_of_mem hname.slash hfile).2
  · rwa [heq.trans hsame] at hfind ⊢
  · -- The path has an extension, so that no further name is tried before its directory.
    rw [find?_places, List.findSome?_eq_some_iff]
    refine ⟨before, dir, after, hsplit, ?_, ?_⟩
    · rw [heq, honly, List.map_singleton, List.find?_singleton, if_pos hfound, heq]
    · intro dir' hdir'
      have hnone := List.find?_eq_none.mp (hbefore dir' hdir') _ (List.mem_map_of_mem hfile)
      rw [heq, honly, List.map_singleton, List.find?_singleton, if_neg hnone]

/-- A stack of two names and more is written out with slashes. -/
theorem render_cons_cons {last name : Bytes} {names : List Bytes}
    (h : Normal false (last :: name :: names)) :
    render false (last :: name :: names) = render false (name :: names) ++ slash :: last := by
  have hnames : ∀ part ∈ last :: name :: names, part ≠ [] := fun part hpart =>
    (h.names part hpart).1
  rw [render_false_of_ne_nil (List.cons_ne_nil _ _) hnames,
    render_false_of_ne_nil (List.cons_ne_nil _ _) (List.forall_mem_cons.mp hnames).2,
    List.reverse_cons, join_concat _ (by simp), List.append_assoc, List.singleton_append]

/-- Where the clean path of a directory leads to a directory, dots spell no bare path of a file,
unless they stay as they are. -/
theorem join_eq_of_bare_dots {dir name : Bytes} (hne : dir ≠ [])
    (hclean : fs.isDirectory (clean dir)) (hname : name = ↑"." ∨ name = ↑"..")
    (hfile : fs.isFile (join [dir, name])) (hrelative : isAbsolute (join [dir, name]) = false)
    (hbare : base (join [dir, name]) = join [dir, name]) : join [dir, name] = name := by
  have hslash := (slash_not_mem_of_base hrelative hbare).2
  have hdir : isAbsolute dir = false := (isAbsolute_join hne).symm.trans hrelative
  have hnormal : Normal false (stack dir) := hdir ▸ normal_stack dir
  have hjoin : join [dir, name] = render false (step false (stack dir) name) := by
    have hfree : slash ∉ name := by
      obtain rfl | rfl := hname <;> decide
    rw [join_pair (.inl hne), hdir, Bytes.splitOn_of_not_mem hfree, List.foldl_cons,
      List.foldl_nil]
  rw [clean_eq_render, hdir] at hclean
  rw [hjoin] at hfile hslash ⊢
  obtain rfl | rfl := hname
  · -- one dot spells the clean path itself
    rw [step_skip (.inr rfl), FileSystem.not_isFile_of_isDirectory hclean] at hfile
    cases hfile
  · generalize stack dir = names at hnormal hclean hfile hslash ⊢
    cases hnormal with
    | nil => rfl
    | @up sofar _ hdots =>
        have hall : ∀ name ∈ (".." : Bytes) :: sofar, name = ↑".." :=
          List.forall_mem_cons.mpr ⟨rfl, hdots⟩
        rw [step_up_of_dots hall, render_cons_cons (.up rfl hall)] at hslash
        exact absurd (List.mem_append_right _ List.mem_cons_self) hslash
    | @down last sofar hlast hmore =>
        rw [step_up hlast] at hfile hslash ⊢
        cases sofar with
        | nil =>
            rw [show render false [] = ↑"." from rfl, FileSystem.not_isFile_dot] at hfile
            cases hfile
        | cons above sofar =>
            -- the path that is spelled stands before the last slash of the clean one
            rw [render_cons_cons (.down hlast hmore)] at hclean
            have habove := FileSystem.isDirectory_of_append (render_ne_nil _ _) hclean
            rw [FileSystem.not_isFile_of_isDirectory habove] at hfile
            cases hfile

/-- Dots that are found as a bare path are found as themselves. -/
theorem eq_of_find?_dots (hdirs : ∀ dir ∈ dirs, dir ≠ [] ∧ fs.isDirectory (clean dir))
    {name path : Bytes} (hname : name = ↑"." ∨ name = ↑"..")
    (hrelative : isAbsolute path = false) (hbare : base path = path)
    (h : (places dirs name).find? fs.isFile = some path) : path = name := by
  obtain ⟨dir, hdir, hmem⟩ := List.mem_flatMap.mp (List.mem_of_find?_eq_some h)
  rw [fileNames_dots hname] at hmem
  obtain rfl := List.mem_singleton.mp hmem
  obtain ⟨hne, hclean⟩ := hdirs dir hdir
  exact join_eq_of_bare_dots hne hclean hname (List.find?_some h) hrelative hbare

/-- What a name is found as is found as itself. For dots the clean paths of the directories have
to lead to directories. -/
theorem resolveIn_of_resolveIn (hdirs : ∀ dir ∈ dirs, dir ≠ []) {name path : Bytes}
    (hdots : name = ↑"." ∨ name = ↑".." → ∀ dir ∈ dirs, fs.isDirectory (clean dir))
    (h : resolveIn fs dirs name = .ok path) : resolveIn fs dirs path = .ok path := by
  by_cases hbare : (isAbsolute path || decide (base path ≠ path)) = true
  · rw [resolveIn, if_pos hbare, if_pos (isFile_of_resolveIn h)]
  · have hsame := h
    rw [resolveIn] at h
    split at h
    · split at h
      · -- A name that is used as it is given is the path itself.
        cases h
        contradiction
      · cases h
    · rename_i hgiven
      split at h
      · rename_i hfound
        cases h
        simp only [Bool.or_eq_true, decide_eq_true_eq, not_or, Bool.not_eq_true, ne_eq,
          not_not] at hbare hgiven
        obtain ⟨hne, hslash⟩ := slash_not_mem_of_base hgiven.1 hgiven.2
        by_cases hname : name = ↑"." ∨ name = ↑".."
        · have hclean : ∀ dir ∈ dirs, dir ≠ [] ∧ fs.isDirectory (clean dir) := fun dir hdir =>
            ⟨hdirs dir hdir, hdots hname dir hdir⟩
          rwa [eq_of_find?_dots hclean hname hbare.1 hbare.2 hfound] at hsame ⊢
        · have hordinary : Ordinary name :=
            ⟨hne, fun hdot => hname (.inl hdot), fun hdot => hname (.inr hdot), hslash⟩
          have hagain := find?_places_again hdirs hordinary hbare.2 hfound
          rw [resolveIn, if_neg (by simp [hbare]), hagain]
      · cases h

theorem searchPath_isDirectory (env : Environment) :
    ∀ dir ∈ env.searchPath, dir ≠ [] ∧ env.files.isDirectory dir := by
  intro dir hdir
  have hkept := (List.mem_filter.mp hdir).2
  rwa [Bool.and_eq_true, Bool.not_eq_true', List.isEmpty_eq_false_iff] at hkept

theorem resolve_of_resolve {env : Environment} {name path : Bytes}
    (hdots : name = ↑"." ∨ name = ↑".." →
      ∀ dir ∈ env.searchPath, env.files.isDirectory (clean dir))
    (h : env.resolve name = .ok path) : env.resolve path = .ok path :=
  resolveIn_of_resolveIn (fun dir hdir => (env.searchPath_isDirectory dir hdir).1) hdots h

end Environment

end Backtick
