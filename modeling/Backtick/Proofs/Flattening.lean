import Mathlib
import Backtick.Command.Configuration
import Backtick.Proofs.DocumentOrder

/-!
# Flattened configurations

The settings of a document are the values in its mappings that are no mappings themselves,
each with the keys that lead to it. Listed depth first in the order of the keys, the last
setting with the name of a flag is the value of the flag. A flattened configuration has one
setting for each flag, under the name of the flag, and so is not changed by flattening.
-/

namespace Backtick

namespace Configuration

/-! ## The names of flags -/

/-- The name of the flag that a path of keys sets: the keys joined by hyphens, without empty
ones at the start. -/
def pathName (path : List Bytes) : Bytes :=
  Bytes.join "-" ((path.dropWhile List.isEmpty).map flagName)

theorem flagName_append (first second : Bytes) :
    flagName (first ++ second) = flagName first ++ flagName second :=
  List.map_append

theorem flagName_flagName (key : Bytes) : flagName (flagName key) = flagName key := by
  rw [flagName, flagName, List.map_map]
  refine List.map_congr_left fun b _ => ?_
  by_cases h : b = '_'.toUInt8
  · rw [Function.comp_apply, if_pos h]
    rfl
  · rw [Function.comp_apply, if_neg h, if_neg h]

theorem flagName_eq_nil_iff {key : Bytes} : flagName key = [] ↔ key = [] :=
  List.map_eq_nil_iff

/-- Joined by what counts as a hyphen, keys make the same name as joined by one. -/
theorem flagName_join {sep : Bytes} (hsep : flagName sep = ↑"-") (keys : List Bytes) :
    flagName (Bytes.join sep keys) = Bytes.join "-" (keys.map flagName) := by
  induction keys with
  | nil => rfl
  | cons key rest ih =>
      by_cases hrest : rest = []
      · rw [hrest]
        rfl
      · have hnames : rest.map flagName ≠ [] := fun hnil => hrest (List.map_eq_nil_iff.mp hnil)
        rw [Bytes.join_cons hrest, flagName_append, flagName_append, hsep, ih, List.map_cons,
          Bytes.join_cons hnames]

theorem flagName_pathName (path : List Bytes) : flagName (pathName path) = pathName path := by
  rw [pathName, flagName_join rfl, List.map_map]
  exact congrArg _ (List.map_congr_left fun key _ => flagName_flagName key)

theorem pathName_singleton (key : Bytes) : pathName [key] = flagName key := by
  cases key <;> rfl

/-- A key below a path is joined to the name of the path. -/
theorem pathName_concat (path : List Bytes) (key : Bytes) :
    pathName (path ++ [key]) = below (pathName path) key := by
  rw [pathName, List.dropWhile_append]
  cases hkept : path.dropWhile List.isEmpty with
  | nil =>
      have hname : pathName path = [] := by rw [pathName, hkept]; rfl
      rw [hname, if_pos (by rfl), ← pathName, pathName_singleton]
      rfl
  | cons first rest =>
      have hfirst : first ≠ [] := by
        have hhead := List.head?_dropWhile_not List.isEmpty path
        rw [hkept, List.head?_cons] at hhead
        exact List.isEmpty_eq_false_iff.mp hhead
      have hname : pathName path = Bytes.join "-" ((first :: rest).map flagName) := by
        rw [pathName, hkept]
      have hne : pathName path ≠ [] := by
        intro hnil
        have hhead := Path.head?_join (fun h => hfirst (flagName_eq_nil_iff.mp h)) "-"
          (rest.map flagName)
        rw [← List.map_cons, ← hname, hnil] at hhead
        exact hfirst (flagName_eq_nil_iff.mp (List.head?_eq_none_iff.mp hhead.symm))
      rw [if_neg (by simp), List.map_append, List.map_singleton, Path.join_concat _ (by simp),
        below, if_neg (by rwa [List.isEmpty_iff]), hname]

theorem pathName_eq_foldl (path : List Bytes) : pathName path = path.foldl below [] := by
  induction path using List.reverseRecOn with
  | nil => rfl
  | append_singleton path key ih => rw [pathName_concat, List.foldl_concat, ih]

/-! ## The settings of a document -/

/-- A value of a document that is no mapping, with the keys that lead to it. -/
structure Setting where
  path : List Bytes
  value : Value

namespace Setting

def flag (s : Setting) : Bytes :=
  pathName s.path

def under (key : Bytes) (s : Setting) : Setting :=
  ⟨key :: s.path, s.value⟩

end Setting

mutual

/-- The settings of a value, depth first. -/
def settingsOf : Value -> List Setting
  | .map fields => settings fields
  | v => [⟨[], v⟩]

def settings : List (Bytes × Value) -> List Setting
  | [] => []
  | (key, v) :: rest => (settingsOf v).map (Setting.under key) ++ settings rest

end

def Setting.entry (outer : Bytes) (s : Setting) : Bytes × Value :=
  (s.path.foldl below outer, scalar s.value)

mutual

theorem flattenValue_eq (name : Bytes) (c : Configuration) (v : Value) :
    flattenValue name c v = c.insertAll ((settingsOf v).map (Setting.entry name)) := by
  cases v with
  | map fields => exact flattenFields_eq name c fields
  | _ => rfl

theorem flattenFields_eq (outer : Bytes) (c : Configuration) (fields : Fields Value) :
    flattenFields outer c fields = c.insertAll ((settings fields).map (Setting.entry outer)) := by
  cases fields with
  | nil => rfl
  | cons field rest =>
      obtain ⟨key, v⟩ := field
      rw [flattenFields, flattenValue_eq, flattenFields_eq, settings, List.map_append, List.map_map]
      exact (List.foldl_append ..).symm

end

def lastFor? (flag : Bytes) (listed : List Setting) : Option Setting :=
  (listed.filter fun s => s.flag = flag).getLast?

theorem lastFor?_concat (flag : Bytes) (listed : List Setting) (s : Setting) :
    lastFor? flag (listed ++ [s]) = if s.flag = flag then some s else lastFor? flag listed := by
  rw [lastFor?, List.filter_append, List.filter_singleton]
  by_cases hflag : s.flag = flag
  · rw [if_pos hflag, decide_eq_true hflag, cond_true, List.getLast?_concat]
  · rw [if_neg hflag, decide_eq_false hflag, cond_false, List.append_nil, lastFor?]

theorem latest_entries (flag : Bytes) (listed : List Setting) :
    Fields.latest (listed.map (Setting.entry [])) flag =
      (lastFor? flag listed).map fun s => scalar s.value := by
  induction listed using List.reverseRecOn with
  | nil => rfl
  | append_singleton listed s ih =>
      have hentry : s.entry [] = (s.flag, scalar s.value) := by
        rw [Setting.entry, ← pathName_eq_foldl, Setting.flag]
      rw [List.map_append, List.map_singleton, hentry, Fields.latest_append, ih, lastFor?_concat]
      by_cases hflag : s.flag = flag
      · rw [if_pos hflag, hflag, Fields.latest_singleton_self]
        rfl
      · rw [if_neg hflag, Fields.latest_singleton_of_ne (Ne.symm hflag), Option.none_or]

theorem resolve_flatten (doc : Fields Value) (flag : Bytes) :
    (flatten [] doc).resolve flag =
      (lastFor? flag (settings doc)).elim .null fun s => scalar s.value := by
  rw [resolve, flatten, flattenFields_eq, Fields.get?_insertAll, latest_entries]
  cases lastFor? flag (settings doc) <;> rfl

/-! ## Flattening twice -/

def isMapping : Value -> Bool
  | .map _ => true
  | _ => false

/-- A path of keys leads from a value to another one inside it. -/
inductive Leads : Value -> List Bytes -> Value -> Prop
  | here (v : Value) : Leads v [] v
  | down {fields : Fields Value} {key : Bytes} {v w : Value} {path : List Bytes}
      (field : (key, v) ∈ fields) (rest : Leads v path w) : Leads (.map fields) (key :: path) w

theorem settingsOf_of_not_isMapping {v : Value} (h : isMapping v = false) :
    settingsOf v = [⟨[], v⟩] := by
  cases v with
  | map fields => cases h
  | _ => rfl

theorem leads_of_not_isMapping {v w : Value} {path : List Bytes} (h : isMapping v = false) :
    Leads v path w ↔ path = [] ∧ w = v := by
  constructor
  · intro hleads
    cases hleads with
    | here => exact ⟨rfl, rfl⟩
    | down => cases h
  · rintro ⟨rfl, rfl⟩
    exact .here w

/-- Into fields a path leads through the first of them or through the others. -/
theorem leads_cons_iff {key : Bytes} {v w : Value} {rest : Fields Value} {path : List Bytes}
    (hw : isMapping w = false) :
    Leads (.map ((key, v) :: rest)) path w ↔
      (∃ tail, path = key :: tail ∧ Leads v tail w) ∨ Leads (.map rest) path w := by
  constructor
  · intro hleads
    cases hleads with
    | here => cases hw
    | down field hdown =>
        obtain heq | hrest := List.mem_cons.mp field
        · cases heq
          exact .inl ⟨_, rfl, hdown⟩
        · exact .inr (.down hrest hdown)
  · rintro (⟨tail, rfl, hdown⟩ | hrest)
    · exact .down List.mem_cons_self hdown
    · cases hrest with
      | here => cases hw
      | down field hdown => exact .down (List.mem_cons_of_mem _ field) hdown

mutual

theorem mem_settingsOf_iff (v : Value) (s : Setting) :
    s ∈ settingsOf v ↔ Leads v s.path s.value ∧ isMapping s.value = false := by
  by_cases hv : isMapping v = false
  · rw [settingsOf_of_not_isMapping hv, List.mem_singleton, leads_of_not_isMapping hv]
    constructor
    · rintro rfl
      exact ⟨⟨rfl, rfl⟩, hv⟩
    · rintro ⟨⟨hpath, hvalue⟩, -⟩
      cases s
      cases hpath
      cases hvalue
      rfl
  · cases v with
    | map fields => exact mem_settings_iff fields s
    | _ => exact absurd rfl hv

/-- The settings of a mapping are what paths lead to in it that is no mapping. -/
theorem mem_settings_iff (fields : Fields Value) (s : Setting) :
    s ∈ settings fields ↔ Leads (.map fields) s.path s.value ∧ isMapping s.value = false := by
  cases fields with
  | nil =>
      refine ⟨nofun, ?_⟩
      rintro ⟨hleads, hvalue⟩
      generalize s.path = path, s.value = w at hleads hvalue
      cases hleads with
      | here => cases hvalue
      | down field => cases field
  | cons field rest =>
      obtain ⟨key, v⟩ := field
      rw [settings, List.mem_append, List.mem_map, mem_settings_iff rest s]
      constructor
      · rintro (⟨t, ht, rfl⟩ | ⟨hleads, hvalue⟩)
        · obtain ⟨hleads, hvalue⟩ := (mem_settingsOf_iff v t).mp ht
          exact ⟨(leads_cons_iff hvalue).mpr (.inl ⟨t.path, rfl, hleads⟩), hvalue⟩
        · exact ⟨(leads_cons_iff hvalue).mpr (.inr hleads), hvalue⟩
      · rintro ⟨hleads, hvalue⟩
        obtain ⟨tail, hpath, hdown⟩ | hrest := (leads_cons_iff hvalue).mp hleads
        · refine .inl ⟨⟨tail, s.value⟩, (mem_settingsOf_iff v _).mpr ⟨hdown, hvalue⟩, ?_⟩
          rw [Setting.under, ← hpath]
        · exact .inr ⟨hrest, hvalue⟩

end

mutual

theorem scalar_scalar (v : Value) : scalar (scalar v) = scalar v := by
  cases v with
  | integer kind n => cases kind <;> rfl
  | list items => exact congrArg Value.list (scalars_scalars items)
  | _ => rfl

theorem scalars_scalars (items : List Value) : scalars (scalars items) = scalars items := by
  cases items with
  | nil => rfl
  | cons v rest => rw [scalars, scalars, scalar_scalar, scalars_scalars]

end

theorem isMapping_scalar (v : Value) : isMapping (scalar v) = isMapping v := by
  cases v with
  | integer kind n => cases kind <;> rfl
  | _ => rfl

/-- Fields with the names of flags and with values as flags take them make themselves. -/
theorem map_entry_settings {fields : Fields Value}
    (h : ∀ field ∈ fields, flagName field.1 = field.1 ∧ isMapping field.2 = false ∧
      scalar field.2 = field.2) :
    (settings fields).map (Setting.entry []) = fields := by
  induction fields with
  | nil => rfl
  | cons field rest ih =>
      obtain ⟨⟨hname, hvalue, hscalar⟩, hrest⟩ := List.forall_mem_cons.mp h
      obtain ⟨key, v⟩ := field
      rw [settings, settingsOf_of_not_isMapping hvalue, List.map_append, ih hrest]
      exact congrArg (· :: rest) (Prod.ext hname hscalar)

theorem ordered_flatten (doc : Fields Value) : Fields.Ordered (flatten [] doc) := by
  rw [flatten, flattenFields_eq]
  exact Fields.Ordered.insertAll List.Pairwise.nil _

theorem flatten_flatten (doc : Fields Value) : flatten [] (flatten [] doc) = flatten [] doc := by
  have hflat : ∀ field ∈ flatten [] doc, flagName field.1 = field.1 ∧
      isMapping field.2 = false ∧ scalar field.2 = field.2 := by
    intro field hfield
    rw [flatten, flattenFields_eq] at hfield
    obtain hentry | hnone := Fields.mem_of_mem_insertAll hfield
    · obtain ⟨s, hs, rfl⟩ := List.mem_map.mp hentry
      refine ⟨?_, ?_, scalar_scalar _⟩
      · rw [Setting.entry, ← pathName_eq_foldl, flagName_pathName]
      · exact (isMapping_scalar _).trans ((mem_settings_iff doc s).mp hs).2
    · cases hnone
  have hagain : flatten [] (flatten [] doc) = Fields.insertAll [] (flatten [] doc) := by
    conv_lhs => rw [flatten, flattenFields_eq, map_entry_settings hflat]
  rw [hagain, (ordered_flatten doc).insertAll_nil]

/-! ## The order of settings -/

/-- The order of paths in a listing: by the byte order of the first keys that differ. -/
def Before (first second : Setting) : Prop :=
  List.Lex (fun key other => Bytes.order key other = .lt) first.path second.path

theorem head_of_mem_settings {fields : Fields Value} {s : Setting} (h : s ∈ settings fields) :
    ∃ field ∈ fields, ∃ tail, s.path = field.1 :: tail := by
  obtain ⟨hleads, hvalue⟩ := (mem_settings_iff fields s).mp h
  generalize s.path = path, s.value = w at hleads hvalue
  cases hleads with
  | here => cases hvalue
  | down field => exact ⟨_, field, _, rfl⟩

theorem pairwise_settings {fields : Fields Value} (h : fields.Ordered)
    (hvalues : ∀ field ∈ fields, (settingsOf field.2).Pairwise Before) :
    (settings fields).Pairwise Before := by
  induction fields with
  | nil => exact .nil
  | cons field rest ih =>
      obtain ⟨hfirst, hrest⟩ := List.pairwise_cons.mp h
      obtain ⟨hvalue, hmore⟩ := List.forall_mem_cons.mp hvalues
      obtain ⟨key, v⟩ := field
      rw [settings, List.pairwise_append]
      refine ⟨hvalue.map _ fun _ _ hbefore => .cons hbefore, ih hrest hmore, ?_⟩
      -- a setting under the first key stands before those under the others
      intro s hs t ht
      obtain ⟨inner, -, rfl⟩ := List.mem_map.mp hs
      obtain ⟨other, hother, tail, hpath⟩ := head_of_mem_settings ht
      rw [Before, hpath]
      exact .rel (hfirst other hother)

/-- The settings of a document are listed in the order of their paths. -/
theorem pairwise_settingsOf {v : Value} (h : v.Decoded) : (settingsOf v).Pairwise Before := by
  induction h with
  | @scalar v plain =>
      have hv : isMapping v = false := by
        cases v with
        | map fields => cases plain
        | _ => rfl
      rw [settingsOf_of_not_isMapping hv]
      exact List.pairwise_singleton _ _
  | list => exact List.pairwise_singleton _ _
  | map ordered _ ih => exact pairwise_settings ordered ih

/-! ## The value of a flag -/

def Setting.named (s : Setting) : Bytes × Value :=
  (s.flag, s.value)

/-- Keys that are joined by hyphens or underscores set the flag that they set one below another. -/
theorem pathName_join {path : List Bytes} (h : path.head? ≠ some []) {sep : Bytes}
    (hsep : flagName sep = ↑"-") : pathName [Bytes.join sep path] = pathName path := by
  have hkept : path.dropWhile List.isEmpty = path := by
    cases path with
    | nil => rfl
    | cons key rest =>
        have hkey : ¬key.isEmpty = true := fun hempty =>
          h (congrArg some (List.isEmpty_iff.mp hempty))
        exact List.dropWhile_cons_of_neg hkey
  rw [pathName_singleton, flagName_join hsep, pathName, hkept]

theorem map_named_lastFor? (flag : Bytes) (listed : List Setting) :
    (lastFor? flag listed).map Setting.named =
      ((listed.map Setting.named).filter fun entry => entry.1 = flag).getLast? := by
  rw [lastFor?, List.filter_map, List.getLast?_map]
  rfl

/-- In whatever order documents have the same settings for flags, they agree about a flag that
occurs once. -/
theorem resolve_eq_of_perm {doc other : Fields Value} {flag : Bytes}
    (hsame : ((settings doc).map Setting.named).Perm ((settings other).map Setting.named))
    (honce : ((settings doc).filter fun s => s.flag = flag).length = 1) :
    (flatten [] doc).resolve flag = (flatten [] other).resolve flag := by
  have hentries := hsame.filter fun entry => entry.1 = flag
  have hlength : (((settings doc).map Setting.named).filter fun entry =>
      entry.1 = flag).length = 1 := by
    rw [List.filter_map, List.length_map]
    exact honce
  obtain ⟨entry, hentry⟩ := List.length_eq_one_iff.mp hlength
  rw [hentry] at hentries
  have hlast : (lastFor? flag (settings doc)).map Setting.named =
      (lastFor? flag (settings other)).map Setting.named := by
    rw [map_named_lastFor?, map_named_lastFor?, hentry, List.perm_singleton.mp hentries.symm]
  have hvalue (found : Option Setting) : found.elim Value.null (fun s => scalar s.value) =
      (found.map Setting.named).elim .null fun entry => scalar entry.2 := by
    cases found <;> rfl
  rw [resolve_flatten, resolve_flatten, hvalue, hlast, ← hvalue]

/--
The settings of a document are what paths of keys lead to in it that is no mapping, listed in
the order of the paths. A flag has the value of the last setting with its name, and none if
there is no such setting. To flatten again changes nothing, and a flag that occurs once has the
same value however its keys are spelled: one below another, or joined by hyphens or underscores.
-/
theorem flags_follow_settings (doc : Fields Value) (hdoc : Value.Decoded (.map doc)) :
    ((∀ s, s ∈ settings doc ↔ Leads (.map doc) s.path s.value ∧ isMapping s.value = false) ∧
      (settings doc).Pairwise Before) ∧
    (∀ flag, (flatten [] doc).resolve flag =
      (lastFor? flag (settings doc)).elim .null fun s => scalar s.value) ∧
    flatten [] (flatten [] doc) = flatten [] doc ∧
    (∀ path v, path.head? ≠ some [] → ∀ sep ∈ [("-" : Bytes), "_"],
      Setting.named ⟨[Bytes.join sep path], v⟩ = Setting.named ⟨path, v⟩) ∧
    ∀ other flag, ((settings doc).map Setting.named).Perm ((settings other).map Setting.named) →
      ((settings doc).filter fun s => s.flag = flag).length = 1 →
        (flatten [] doc).resolve flag = (flatten [] other).resolve flag := by
  refine ⟨⟨mem_settings_iff doc, pairwise_settingsOf hdoc⟩, resolve_flatten doc,
    flatten_flatten doc, ?_, fun other flag => resolve_eq_of_perm⟩
  intro path v hpath sep hsep
  have hhyphen : ∀ sep ∈ [("-" : Bytes), "_"], flagName sep = ↑"-" := by decide
  exact congrArg (·, v) (pathName_join hpath (hhyphen sep hsep))

def twoSpellings : Fields Value :=
  [("log", .map [("level", .string "debug")]), ("log_level", .integer .uint64 4)]

/-- A text is read as a field with a field of its own and a field with a number, if what is read
passes the comparison with them part by part; fields as a whole have no test for equality. -/
theorem read?_of_fields {text outer inner word key : Bytes} {n : Int}
    (h : (match Yaml.read? text with
      | some [(outer', .map [(inner', .string word')]), (key', .integer .uint64 n')] =>
          outer' == outer && inner' == inner && word' == word && key' == key && n' == n
      | _ => false) = true) :
    Yaml.read? text =
      some [(outer, .map [(inner, .string word)]), (key, .integer .uint64 n)] := by
  split at h
  · rename_i heq
    simp only [Bool.and_eq_true, beq_iff_eq] at h
    obtain ⟨⟨⟨⟨rfl, rfl⟩, rfl⟩, rfl⟩, rfl⟩ := h
    exact heq
  · cases h

/-- Of two spellings of a flag the one that is listed last counts, and its number is a text. -/
theorem flags_follow_settings_sample :
    Yaml.read? "log_level: 4\nlog:\n  level: debug\n" = some twoSpellings ∧
      Value.Decoded (.map twoSpellings) ∧
      (flatten [] twoSpellings).resolve "log-level" = .string "4" ∧
      (flatten [] twoSpellings).resolve "log" = .null := by
  have hread : Yaml.read? "log_level: 4\nlog:\n  level: debug\n" = some twoSpellings :=
    read?_of_fields (by decide +kernel)
  have hdoc := Yaml.decoded_read? hread
  obtain ⟨-, hresolve, -⟩ := flags_follow_settings twoSpellings hdoc
  exact ⟨hread, hdoc, hresolve _, hresolve _⟩

end Configuration

end Backtick
