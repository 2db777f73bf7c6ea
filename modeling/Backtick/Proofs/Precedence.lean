import Mathlib
import Backtick.Proofs.Comparison
import Backtick.Proofs.Resolution
import Backtick.Variables.Load

/-!
# Precedence of variables

A store holds for each name what the last entry with the name gives it, and the entries of
a run stand in a fixed order: the sample values, the variable files as they are named, the
assignments. A file that is named again, under whichever path, keeps its first place.
-/

namespace Backtick

/-! ## The last entry of a name -/

theorem Bytes.order_eq_iff {a b : Bytes} : Bytes.order a b = .eq ↔ a = b := by
  rw [Bytes.order_eq_compareLex]
  exact Std.LawfulEqCmp.compare_eq_iff_eq

namespace Fields

variable {α : Type}

def latest (entries : List (Bytes × α)) (name : Bytes) : Option α :=
  entries.reverse.lookup name

theorem latest_append (first second : List (Bytes × α)) (name : Bytes) :
    latest (first ++ second) name = (latest second name).or (latest first name) := by
  rw [latest, List.reverse_append, List.lookup_append]
  rfl

theorem latest_singleton_self (name : Bytes) (value : α) :
    latest [(name, value)] name = some value :=
  List.lookup_cons_self

theorem latest_singleton_of_ne {key name : Bytes} (h : name ≠ key) (value : α) :
    latest [(key, value)] name = none := by
  rw [latest, List.reverse_singleton, List.lookup_cons, beq_eq_false_iff_ne.mpr h]
  rfl

theorem get?_cons (field : Bytes × α) (fields : Fields α) (name : Bytes) :
    get? (field :: fields) name = (latest [field] name).or (fields.get? name) :=
  @List.lookup_append _ _ _ [field] fields name

theorem get?_insert (fields : Fields α) (key : Bytes) (value : α) (name : Bytes) :
    (fields.insert key value).get? name =
      (latest [(key, value)] name).or (fields.get? name) := by
  induction fields with
  | nil => rw [insert, get?_cons]
  | cons field fields ih =>
      obtain ⟨other, old⟩ := field
      rw [insert.eq_def]
      cases horder : Bytes.order key other with
      | lt => simp only [horder, get?_cons]
      | eq =>
          obtain rfl := Bytes.order_eq_iff.mp horder
          simp only [horder, get?_cons]
          by_cases hkey : name = key
          · rw [hkey, latest_singleton_self]
            rfl
          · rw [latest_singleton_of_ne hkey old, Option.none_or]
      | gt =>
          have hne : key ≠ other := fun heq => by
            rw [Bytes.order_eq_iff.mpr heq] at horder
            cases horder
          simp only [horder, get?_cons, ih]
          -- At most one of the two entries has the name.
          by_cases hkey : name = key
          · rw [latest_singleton_of_ne (hkey ▸ hne) old, Option.none_or, Option.none_or]
          · rw [latest_singleton_of_ne hkey value, Option.none_or, Option.none_or]

theorem get?_insertAll (fields : Fields α) (entries : List (Bytes × α)) (name : Bytes) :
    (fields.insertAll entries).get? name = (latest entries name).or (fields.get? name) := by
  induction entries generalizing fields with
  | nil => rfl
  | cons entry entries ih =>
      have hcons : insertAll fields (entry :: entries) =
          insertAll (fields.insert entry.1 entry.2) entries := rfl
      rw [hcons, ih, get?_insert, ← Option.or_assoc, ← latest_append, List.singleton_append]

end Fields

namespace Store

theorem lookup_merge_empty (policy : Policy) (entries : Fields Value) (name : Bytes) :
    ((empty policy).merge entries).lookup name = Fields.latest entries name := by
  have h := Fields.get?_insertAll [] entries name
  rwa [show Fields.get? ([] : Fields Value) name = none from rfl, Option.or_none] at h

theorem merge_merge (s : Store) (first second : Fields Value) :
    (s.merge first).merge second = s.merge (first ++ second) := by
  rw [merge, merge, merge, Fields.insertAll, Fields.insertAll, Fields.insertAll,
    List.foldl_append]

/-- Assignments that can be read are merged, in order. -/
theorem assignAll_of_parse {texts : List Bytes} {assigned : List Assignment}
    (h : List.Forall₂ (fun text a => Assignment.parse text = .ok a) texts assigned) (s : Store) :
    s.assignAll texts = .ok (s.merge (assigned.map fun a => (a.name, a.value))) := by
  induction h generalizing s with
  | nil => rfl
  | @cons text a texts assigned htext _ ih =>
      have hassign : s.assign text = .ok (s.merge [(a.name, a.value)]) := by
        rw [assign, htext]
        rfl
      rw [assignAll, hassign]
      simp only
      rw [ih, merge_merge, List.map_cons, List.singleton_append]

end Store

/-! ## Variable files -/

structure VariableFile where
  id : Nat
  values : Fields Value

namespace VariableFile

def firsts (files : List VariableFile) : List VariableFile :=
  files.eraseDupsBy fun file first => file.id == first.id

theorem firsts_cons (file : VariableFile) (files : List VariableFile) :
    firsts (file :: files) = file :: firsts (files.filter fun other => other.id != file.id) := by
  rw [firsts, List.eraseDupsBy_cons, firsts]
  congr 3
  funext other
  rw [bne]
  cases other.id == file.id <;> rfl

theorem mem_of_mem_firsts {files : List VariableFile} {file : VariableFile}
    (h : file ∈ firsts files) : file ∈ files := by
  match files with
  | [] => exact h
  | first :: files =>
      rw [firsts_cons] at h
      exact List.mem_cons.mpr <| (List.mem_cons.mp h).imp_right fun h =>
        List.mem_of_mem_filter (mem_of_mem_firsts h)
termination_by files.length
decreasing_by
  exact Nat.lt_succ_of_le (List.length_filter_le _ _)

theorem exists_mem_firsts {files : List VariableFile} {file : VariableFile} (h : file ∈ files) :
    ∃ first ∈ firsts files, first.id = file.id := by
  match files with
  | [] => cases h
  | first :: files =>
      rw [firsts_cons]
      by_cases hid : file.id = first.id
      · exact ⟨first, List.mem_cons_self, hid.symm⟩
      · have hmem : file ∈ files := by
          obtain rfl | hmem := List.mem_cons.mp h
          · exact absurd rfl hid
          · exact hmem
        have hother : file ∈ files.filter fun other => other.id != first.id :=
          List.mem_filter.mpr ⟨hmem, bne_iff_ne.mpr hid⟩
        obtain ⟨kept, hkept, hkeptId⟩ := exists_mem_firsts hother
        exact ⟨kept, List.mem_cons_of_mem _ hkept, hkeptId⟩
termination_by files.length
decreasing_by
  exact Nat.lt_succ_of_le (List.length_filter_le _ _)

/-- What files give to a name is what one of them gives to it. -/
theorem exists_of_latest {files : List VariableFile} {name : Bytes} {value : Value}
    (h : Fields.latest (files.flatMap values) name = some value) :
    ∃ file ∈ files, Fields.latest file.values name = some value := by
  induction files with
  | nil => cases h
  | cons file files ih =>
      rw [List.flatMap_cons, Fields.latest_append] at h
      obtain hmore | ⟨-, hhere⟩ := Option.or_eq_some_iff.mp h
      · obtain ⟨other, hother, hvalue⟩ := ih hmore
        exact ⟨other, List.mem_cons_of_mem _ hother, hvalue⟩
      · exact ⟨file, List.mem_cons_self, hhere⟩

theorem latest_ne_none {files : List VariableFile} {name : Bytes} {file : VariableFile}
    (hmem : file ∈ files) (h : Fields.latest file.values name ≠ none) :
    Fields.latest (files.flatMap values) name ≠ none := by
  obtain ⟨before, after, rfl⟩ := List.append_of_mem hmem
  rw [List.flatMap_append, List.flatMap_cons, Fields.latest_append, Fields.latest_append]
  simp [h]

/-- Where no two files differ about a name, repetitions do not matter for it. -/
theorem latest_firsts {files : List VariableFile} {name : Bytes}
    (hsame : ∀ file ∈ files, ∀ other ∈ files, file.id = other.id → file.values = other.values)
    (hagree : ∀ file ∈ files, ∀ other ∈ files, ∀ x y, Fields.latest file.values name = some x →
      Fields.latest other.values name = some y → x = y) :
    Fields.latest ((firsts files).flatMap values) name =
      Fields.latest (files.flatMap values) name := by
  cases hfirsts : Fields.latest ((firsts files).flatMap values) name with
  | none =>
      cases hfiles : Fields.latest (files.flatMap values) name with
      | none => rfl
      | some y =>
          -- The file with the value has a first occurrence, with the same values.
          obtain ⟨file, hfile, hy⟩ := exists_of_latest hfiles
          obtain ⟨first, hfirst, hid⟩ := exists_mem_firsts hfile
          have hvalues := hsame first (mem_of_mem_firsts hfirst) file hfile hid
          exact absurd hfirsts (latest_ne_none hfirst (by rw [hvalues, hy]; nofun))
  | some x =>
      obtain ⟨first, hfirst, hx⟩ := exists_of_latest hfirsts
      have hne := latest_ne_none (mem_of_mem_firsts hfirst)
        (by rw [hx]; exact Option.some_ne_none x)
      obtain ⟨y, hfiles⟩ := Option.ne_none_iff_exists'.mp hne
      obtain ⟨file, hfile, hy⟩ := exists_of_latest hfiles
      rw [hfiles, hagree first (mem_of_mem_firsts hfirst) file hfile x y hx hy]

end VariableFile

namespace Environment

variable {env : Environment}

/-- A path leads to a variable file, which it is also spelled to lead to. -/
structure Holds (env : Environment) (path : Bytes) (file : VariableFile) : Prop where
  resolve : env.resolve path = .ok path
  straight : env.files.Straight path
  load : ∃ content, env.files.entry? path = some (.file file.id content) ∧
    decodeVariables content = .ok file.values

def Loads (env : Environment) (name : Bytes) (file : VariableFile) : Prop :=
  ∃ path content, env.resolve name = .ok path ∧
    env.files.entry? path = some (.file file.id content) ∧
      decodeVariables content = .ok file.values

/-- A name that is no dots, and is found as a path whose dots are not taken behind a link. -/
structure Plain (env : Environment) (name : Bytes) : Prop where
  not_dots : ¬(name = ↑"." ∨ name = ↑"..")
  straight : ∀ path, env.resolve name = .ok path → env.files.Straight path

theorem Plain.resolve {name path : Bytes} (h : env.Plain name)
    (hname : env.resolve name = .ok path) : env.resolve path = .ok path :=
  resolve_of_resolve (fun hdots => absurd hdots h.not_dots) hname

theorem resolveAll_of_loads {names : List Bytes} {files : List VariableFile}
    (hplain : ∀ name ∈ names, env.Plain name) (h : List.Forall₂ env.Loads names files) :
    ∃ paths, env.resolveAll names = .ok paths ∧ List.Forall₂ env.Holds paths files := by
  induction h with
  | nil => exact ⟨[], rfl, .nil⟩
  | @cons name file names files hname _ ih =>
      obtain ⟨path, content, hpath, hentry, hvalues⟩ := hname
      obtain ⟨hfirst, hplain⟩ := List.forall_mem_cons.mp hplain
      obtain ⟨paths, hpaths, hholds⟩ := ih hplain
      have hfile : env.Holds path file :=
        ⟨hfirst.resolve hpath, hfirst.straight path hpath, content, hentry, hvalues⟩
      refine ⟨path :: paths, ?_, .cons hfile hholds⟩
      rw [resolveAll, hpath, hpaths]
      rfl

/-- The paths that are kept lead to the files that were not there before. -/
theorem forall₂_distinctFrom {paths : List Bytes} {files : List VariableFile}
    (h : List.Forall₂ env.Holds paths files) (seen : List Nat) :
    List.Forall₂ env.Holds (env.files.distinctFrom seen paths)
      (VariableFile.firsts (files.filter fun file => !seen.contains file.id)) := by
  induction h generalizing seen with
  | nil => exact .nil
  | @cons path file paths files hpath _ ih =>
      obtain ⟨content, hentry, -⟩ := hpath.load
      have hstep : env.files.distinctFrom seen (path :: paths) =
          if seen.contains file.id then env.files.distinctFrom seen paths
          else path :: env.files.distinctFrom (file.id :: seen) paths := by
        rw [FileSystem.distinctFrom, hpath.straight.identity? hentry]
        rfl
      rw [hstep]
      by_cases hseen : seen.contains file.id
      · rw [if_pos hseen, List.filter_cons_of_neg (by simpa using hseen)]
        exact ih seen
      · rw [if_neg hseen, List.filter_cons_of_pos (by simpa using hseen),
          VariableFile.firsts_cons, List.filter_filter]
        refine .cons hpath ?_
        have hmore := ih (file.id :: seen)
        have hsame : (fun other : VariableFile => !(file.id :: seen).contains other.id) =
            fun other => other.id != file.id && !seen.contains other.id := by
          funext other
          rw [List.contains_cons, Bool.not_or, bne]
        rwa [hsame] at hmore

theorem forall₂_distinct {paths : List Bytes} {files : List VariableFile}
    (h : List.Forall₂ env.Holds paths files) :
    List.Forall₂ env.Holds (env.files.distinct paths) (VariableFile.firsts files) := by
  have hall : (files.filter fun file => !([] : List Nat).contains file.id) = files :=
    List.filter_eq_self.mpr fun _ _ => rfl
  have hnone := forall₂_distinctFrom h []
  rwa [hall] at hnone

theorem loadVariables_of_holds {path : Bytes} {file : VariableFile} (h : env.Holds path file) :
    env.files.loadVariables path = .ok file.values := by
  obtain ⟨content, hentry, hvalues⟩ := h.load
  have hread : env.files.read path = .ok content := by
    rw [FileSystem.read, FileSystem.lookup_of_entry? hentry]
  rw [FileSystem.loadVariables, hread]
  simp only [hvalues]

/-- Files that are there are merged, in order. -/
theorem loadInto_of_holds {paths : List Bytes} {files : List VariableFile}
    (h : List.Forall₂ env.Holds paths files) (s : Store) :
    ∃ events,
      env.loadInto s paths = ⟨s.merge (files.flatMap VariableFile.values), events, none⟩ := by
  induction h generalizing s with
  | nil => exact ⟨[], rfl⟩
  | @cons path file paths files hpath _ ih =>
      obtain ⟨events, hmore⟩ := ih (s.merge file.values)
      rw [loadInto, hpath.resolve]
      simp only [loadVariables_of_holds hpath, hmore, Store.merge_merge, List.flatMap_cons]
      exact ⟨_, rfl⟩

end Environment

/-! ## The store of a run -/

namespace VariableSources

/-- What the sources of a run say, in order: the sample values, the files, the assignments. -/
def entries (v : VariableSources) (files : List VariableFile) (assigned : List Assignment) :
    Fields Value :=
  (if v.sample then Store.sampleValues else []) ++ files.flatMap VariableFile.values ++
    assigned.map fun a => (a.name, a.value)

theorem build_of_loads {v : VariableSources} {env : Environment}
    (hplain : ∀ name ∈ v.files, env.Plain name) {files : List VariableFile}
    {assigned : List Assignment}
    (hfiles : List.Forall₂ env.Loads v.files files)
    (hassigned : List.Forall₂ (fun text a => Assignment.parse text = .ok a) v.assignments
      assigned) :
    ∃ events, v.build env = (events, .ok
      ((Store.empty v.missing).merge (v.entries (VariableFile.firsts files) assigned))) := by
  obtain ⟨paths, hpaths, hholds⟩ := Environment.resolveAll_of_loads hplain hfiles
  have hstart : (if v.sample then (Store.empty v.missing).merge Store.sampleValues
      else Store.empty v.missing) =
      (Store.empty v.missing).merge (if v.sample then Store.sampleValues else []) := by
    cases v.sample <;> rfl
  obtain ⟨events, hload⟩ := Environment.loadInto_of_holds (Environment.forall₂_distinct hholds)
    ((Store.empty v.missing).merge (if v.sample then Store.sampleValues else []))
  rw [build, hpaths]
  simp only [hstart, hload, Store.assignAll_of_parse hassigned, Store.merge_merge]
  exact ⟨_, rfl⟩

/-- The store of a run gives each name its last value: the sample values come first, then the
files in the order in which they are first named, then the assignments. To merge a file each
time that it is named makes no difference for the names about which no two files differ. The
files may be named by any paths and links, as long as no two dots are taken behind a link. -/
theorem build_follows_precedence (v : VariableSources) (env : Environment)
    (files : List VariableFile) (assigned : List Assignment)
    (hplain : ∀ name ∈ v.files, env.Plain name)
    (hfiles : List.Forall₂ env.Loads v.files files)
    (hassigned : List.Forall₂ (fun text a => Assignment.parse text = .ok a) v.assignments
      assigned) :
    ∃ events s, v.build env = (events, .ok s) ∧ s.policy = v.missing ∧
      (∀ name, s.lookup name =
        Fields.latest (v.entries (VariableFile.firsts files) assigned) name) ∧
      ((∀ file ∈ files, ∀ other ∈ files, file.id = other.id → file.values = other.values) →
        ∀ name,
          (∀ file ∈ files, ∀ other ∈ files, ∀ x y, Fields.latest file.values name = some x →
            Fields.latest other.values name = some y → x = y) →
          s.lookup name = Fields.latest (v.entries files assigned) name) := by
  obtain ⟨events, hbuild⟩ := build_of_loads hplain hfiles hassigned
  refine ⟨events, _, hbuild, rfl, Store.lookup_merge_empty _ _, ?_⟩
  intro hsame name hagree
  rw [Store.lookup_merge_empty, entries, entries, Fields.latest_append, Fields.latest_append,
    Fields.latest_append, Fields.latest_append, VariableFile.latest_firsts hsame hagree]

/-- Two variable files in a working directory, and a link to a directory with a link to the
first one. -/
def linkedPlaces : List (Bytes × Standing) :=
  [ ("/", .entry (.directory 0)), ("/work", .entry (.directory 1)),
    ("/work/a.yaml", .entry (.file 3 "X: a\n")), ("/work/b.yaml", .entry (.file 4 "X: b\n")),
    ("/work/shelf", .link "../store"), ("/store", .entry (.directory 2)),
    ("/store/c.yaml", .link "/work/a.yaml") ]

def linkedFiles : Environment where
  files := ⟨"/work", fun place => linkedPlaces.lookup place⟩
  configDir := []
  cacheDir := []
  varsPath := []

/-- The first file, the second one, and the first one again. -/
def namedAgain : VariableSources :=
  ⟨true, ["a", "./b.yaml", "shelf/c.yaml"], ["ARR="], .error⟩

theorem linkedFiles_plain : ∀ name ∈ namedAgain.files, linkedFiles.Plain name := by
  have hplain : ∀ name path stop : Bytes, linkedFiles.resolve name = .ok path →
      linkedFiles.files.place path = .ok stop → ¬(name = ↑"." ∨ name = ↑"..") →
      ↑".." ∉ Bytes.splitOn Path.slash path → linkedFiles.Plain name := by
    intro name path stop hpath hstop hname hdots
    refine ⟨hname, fun other hother => ?_⟩
    cases hpath.symm.trans hother
    exact FileSystem.straight_of_no_dots hstop (by decide) hdots
  exact List.forall_mem_cons.mpr ⟨hplain _ "/work/a.yaml" "/work/a.yaml" rfl rfl (by decide)
      (by decide), List.forall_mem_cons.mpr ⟨hplain _ "./b.yaml" "/work/b.yaml" rfl rfl
      (by decide) (by decide), List.forall_mem_singleton.mpr (hplain _ "shelf/c.yaml"
      "/work/a.yaml" rfl rfl (by decide) (by decide))⟩⟩

/-- The test of a text for one field with a string. -/
theorem decodeVariables_of_field {content name text : Bytes}
    (h : (match decodeVariables content with
      | .ok [(key, .string value)] => key == name && value == text
      | _ => false) = true) : decodeVariables content = .ok [(name, .string text)] := by
  split at h
  · rename_i key value heq
    obtain ⟨hkey, hvalue⟩ := Bool.and_eq_true_iff.mp h
    rw [heq, eq_of_beq hkey, eq_of_beq hvalue]
  · cases h

def fileA : VariableFile := ⟨3, [("X", .string "a")]⟩

def fileB : VariableFile := ⟨4, [("X", .string "b")]⟩

theorem linkedFiles_loads :
    List.Forall₂ linkedFiles.Loads namedAgain.files [fileA, fileB, fileA] := by
  have hA : decodeVariables "X: a\n" = .ok fileA.values :=
    decodeVariables_of_field (by decide +kernel)
  have hB : decodeVariables "X: b\n" = .ok fileB.values :=
    decodeVariables_of_field (by decide +kernel)
  exact .cons ⟨"/work/a.yaml", _, rfl, rfl, hA⟩ <| .cons ⟨"./b.yaml", _, rfl, rfl, hB⟩ <|
    .cons ⟨"shelf/c.yaml", _, rfl, rfl, hA⟩ .nil

theorem namedAgain_assigns : List.Forall₂ (fun text a => Assignment.parse text = .ok a)
    namedAgain.assignments [⟨"ARR", .string []⟩] :=
  .cons (by cbv) .nil

/-- A sample value is replaced, and the second file wins. -/
theorem build_follows_precedence_sample :
    ∃ events s, namedAgain.build linkedFiles = (events, .ok s) ∧
      s.lookup "NUMBER_5" = some (.integer .int 5) ∧ s.lookup "X" = some (.string "b") ∧
        s.lookup "ARR" = some (.string []) := by
  obtain ⟨events, s, hbuild, -, hlookup, -⟩ := build_follows_precedence namedAgain linkedFiles _ _
    linkedFiles_plain linkedFiles_loads namedAgain_assigns
  exact ⟨events, s, hbuild, hlookup _, hlookup _, hlookup _⟩

/-- Merged again behind the second file, the first one would win. -/
theorem repeated_file_not_merged_again :
    ∃ events s, namedAgain.build linkedFiles = (events, .ok s) ∧
      List.Forall₂ linkedFiles.Loads namedAgain.files [fileA, fileB, fileA] ∧
        s.lookup "X" = some (.string "b") ∧
          Fields.latest (namedAgain.entries [fileA, fileB, fileA] [⟨"ARR", .string []⟩]) "X" =
            some (.string "a") := by
  obtain ⟨events, hbuild⟩ :=
    build_of_loads linkedFiles_plain linkedFiles_loads namedAgain_assigns
  exact ⟨events, _, hbuild, linkedFiles_loads, Store.lookup_merge_empty _ _ _, rfl⟩

end VariableSources

end Backtick
