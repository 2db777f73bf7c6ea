import Mathlib
import Backtick.Proofs.Precedence
import Backtick.Yaml.Read

/-!
# Documents in order

Fields are set by name so that the names stay in their byte order, each of them once. So a
document that is read from a text has all its mappings in order, however deep they are nested,
whatever the order in which the text has them.
-/

namespace Backtick

/-! ## Fields in order -/

namespace Bytes

theorem order_lt_trans {a b c : Bytes} (hab : order a b = .lt) (hbc : order b c = .lt) :
    order a c = .lt := by
  rw [order_eq_compareLex] at *
  exact Std.TransCmp.lt_trans hab hbc

theorem order_gt_iff {a b : Bytes} : order a b = .gt ↔ order b a = .lt := by
  rw [order_eq_compareLex, order_eq_compareLex]
  exact Std.OrientedCmp.gt_iff_lt

end Bytes

namespace Fields

variable {α : Type}

/-- The names stand in their byte order, each of them once. -/
def Ordered (fields : Fields α) : Prop :=
  fields.Pairwise fun first second => Bytes.order first.1 second.1 = .lt

theorem mem_of_mem_insert {fields : Fields α} {name : Bytes} {entry : α} {field : Bytes × α}
    (h : field ∈ fields.insert name entry) : field = (name, entry) ∨ field ∈ fields := by
  induction fields with
  | nil => exact .inl (List.mem_singleton.mp h)
  | cons first rest ih =>
      rw [insert.eq_def] at h
      cases horder : Bytes.order name first.1 with
      | lt =>
          simp only [horder] at h
          exact List.mem_cons.mp h
      | eq =>
          simp only [horder] at h
          exact (List.mem_cons.mp h).imp_right (List.mem_cons_of_mem _)
      | gt =>
          simp only [horder] at h
          obtain rfl | hrest := List.mem_cons.mp h
          · exact .inr List.mem_cons_self
          · exact (ih hrest).imp_right (List.mem_cons_of_mem _)

theorem Ordered.insert {fields : Fields α} (h : fields.Ordered) (name : Bytes) (entry : α) :
    (fields.insert name entry).Ordered := by
  induction fields with
  | nil => exact List.pairwise_singleton _ _
  | cons first rest ih =>
      obtain ⟨hfirst, hrest⟩ := List.pairwise_cons.mp h
      rw [Fields.insert.eq_def]
      cases horder : Bytes.order name first.1 with
      | lt =>
          simp only [horder]
          refine List.pairwise_cons.mpr ⟨fun field hfield => ?_, h⟩
          obtain rfl | hfield := List.mem_cons.mp hfield
          · exact horder
          · exact Bytes.order_lt_trans horder (hfirst field hfield)
      | eq =>
          simp only [horder]
          obtain rfl := Bytes.order_eq_iff.mp horder
          exact List.pairwise_cons.mpr ⟨hfirst, hrest⟩
      | gt =>
          simp only [horder]
          refine List.pairwise_cons.mpr ⟨fun field hfield => ?_, ih hrest⟩
          obtain rfl | hfield := mem_of_mem_insert hfield
          · exact Bytes.order_gt_iff.mp horder
          · exact hfirst field hfield

theorem Ordered.insertAll {fields : Fields α} (h : fields.Ordered) (entries : List (Bytes × α)) :
    (fields.insertAll entries).Ordered := by
  induction entries generalizing fields with
  | nil => exact h
  | cons entry entries ih => exact ih (h.insert entry.1 entry.2)

theorem mem_of_mem_insertAll {fields : Fields α} {entries : List (Bytes × α)} {field : Bytes × α}
    (h : field ∈ fields.insertAll entries) : field ∈ entries ∨ field ∈ fields := by
  induction entries generalizing fields with
  | nil => exact .inr h
  | cons entry entries ih =>
      obtain hmore | hhere := ih h
      · exact .inl (List.mem_cons_of_mem _ hmore)
      · obtain rfl | hbefore := mem_of_mem_insert hhere
        · exact .inl List.mem_cons_self
        · exact .inr hbefore

/-- A name behind all others is added at the end. -/
theorem insert_of_forall_lt {fields : Fields α} {name : Bytes}
    (h : ∀ field ∈ fields, Bytes.order field.1 name = .lt) (entry : α) :
    fields.insert name entry = fields ++ [(name, entry)] := by
  induction fields with
  | nil => rfl
  | cons first rest ih =>
      obtain ⟨hfirst, hrest⟩ := List.forall_mem_cons.mp h
      simp only [Fields.insert.eq_def name entry (first :: rest),
        Bytes.order_gt_iff.mpr hfirst, ih hrest, List.cons_append]

theorem Ordered.insertAll_append {before fields : Fields α} (h : Ordered (before ++ fields)) :
    before.insertAll fields = before ++ fields := by
  induction fields generalizing before with
  | nil => exact (List.append_nil _).symm
  | cons first rest ih =>
      have hlast : ∀ field ∈ before, Bytes.order field.1 first.1 = .lt := fun field hfield =>
        (List.pairwise_append.mp h).2.2 field hfield first List.mem_cons_self
      have hstep : before.insertAll (first :: rest) =
          Fields.insertAll (before.insert first.1 first.2) rest := rfl
      rw [hstep, insert_of_forall_lt hlast, ih (by simpa using h), List.append_assoc]
      rfl

/-- To set the entries of fields in order, from nothing, makes these fields. -/
theorem Ordered.insertAll_nil {fields : Fields α} (h : fields.Ordered) :
    Fields.insertAll [] fields = fields :=
  @Ordered.insertAll_append α [] fields h

end Fields

/-! ## Decoded values -/

def Value.isContainer : Value -> Bool
  | .list _ | .map _ => true
  | _ => false

/-- What a text can hold: scalars, lists, and mappings whose names are in order, nested to any
depth. -/
inductive Value.Decoded : Value -> Prop
  | scalar {v : Value} (plain : v.isContainer = false) : Decoded v
  | list {items : List Value} (values : ∀ item ∈ items, Decoded item) : Decoded (.list items)
  | map {fields : Fields Value} (ordered : fields.Ordered)
      (values : ∀ field ∈ fields, Decoded field.2) : Decoded (.map fields)

namespace Value.Decoded

theorem map_iff {fields : Fields Value} :
    Decoded (.map fields) ↔ fields.Ordered ∧ ∀ field ∈ fields, Decoded field.2 := by
  constructor
  · intro h
    cases h with
    | scalar plain => cases plain
    | map ordered values => exact ⟨ordered, values⟩
  · exact fun h => .map h.1 h.2

theorem mem_list {items : List Value} (h : Decoded (.list items)) :
    ∀ item ∈ items, Decoded item := by
  cases h with
  | scalar plain => cases plain
  | list values => exact values

theorem insert {fields : Fields Value} (h : Decoded (.map fields)) {v : Value} (hv : v.Decoded)
    (name : Bytes) : Decoded (.map (fields.insert name v)) := by
  obtain ⟨hordered, hvalues⟩ := map_iff.mp h
  refine .map (hordered.insert name v) fun field hfield => ?_
  obtain rfl | hfield := Fields.mem_of_mem_insert hfield
  · exact hv
  · exact hvalues field hfield

theorem insertAll {fields more : Fields Value} (h : Decoded (.map fields))
    (hmore : Decoded (.map more)) : Decoded (.map (fields.insertAll more)) := by
  obtain ⟨hordered, hvalues⟩ := map_iff.mp h
  refine .map (hordered.insertAll more) fun field hfield => ?_
  obtain hfield | hfield := Fields.mem_of_mem_insertAll hfield
  · exact (map_iff.mp hmore).2 field hfield
  · exact hvalues field hfield

end Value.Decoded

/-! ## Reading a document -/

namespace Yaml

theorem decoded_plainValue (text : Bytes) : (plainValue text).Decoded := by
  unfold plainValue
  split_ifs
  iterate 6 exact .scalar rfl
  all_goals split <;> exact .scalar rfl

theorem Scalar.decoded_value (s : Scalar) : s.value.Decoded := by
  rw [Scalar.value]
  split
  · exact decoded_plainValue s.text
  · exact .scalar rfl

namespace Node

/-- What each step keeps is kept by a run of steps that does not fail. -/
theorem foldlM_keeps {α β : Type} {p : β → Prop} {f : β → α → Option β} {items : List α}
    (hf : ∀ b c, ∀ item ∈ items, p b → f b item = some c → p c) {start stop : β}
    (hstart : p start) (h : items.foldlM f start = some stop) : p stop := by
  induction items generalizing start with
  | nil =>
      cases h
      exact hstart
  | cons item items ih =>
      rw [List.foldlM_cons] at h
      obtain ⟨next, hnext, hmore⟩ := Option.bind_eq_some_iff.mp h
      have hp := hf start next item List.mem_cons_self hstart hnext
      exact ih (fun b c other hother => hf b c other (List.mem_cons_of_mem _ hother)) hp hmore

theorem decoded_addField? {fields after : Fields Value} {key : Scalar} {v : Value}
    (hfields : Value.Decoded (.map fields)) (hv : v.Decoded)
    (h : addField? fields key v = some after) : Value.Decoded (.map after) := by
  unfold addField? at h
  by_cases hmerge : key.style = .merge
  · rw [if_pos hmerge] at h
    cases v with
    | map more =>
        cases h
        exact hfields.insertAll hv
    | list items =>
        refine foldlM_keeps (p := fun fields => Value.Decoded (.map fields)) ?_ hfields h
        intro before next item hitem hbefore hnext
        have hdecoded := hv.mem_list item hitem
        cases item with
        | map more =>
            cases hnext
            exact hbefore.insertAll hdecoded
        | _ => cases hnext
    | _ => cases h
  · rw [if_neg hmerge] at h
    cases h
    exact hfields.insert hv _

mutual

theorem decoded_value? (n : Node) {v : Value} (h : n.value? = some v) : v.Decoded := by
  cases n with
  | absent =>
      cases h
      exact .scalar rfl
  | scalar s =>
      cases h
      exact s.decoded_value
  | list items =>
      obtain ⟨vs, hvs, rfl⟩ := Option.map_eq_some_iff.mp h
      exact .list (decoded_values? items hvs)
  | map fields =>
      obtain ⟨after, hafter, rfl⟩ := Option.map_eq_some_iff.mp h
      exact decoded_fieldValues? fields (.map .nil nofun) hafter

theorem decoded_values? (ns : List Node) {vs : List Value} (h : values? ns = some vs) :
    ∀ v ∈ vs, v.Decoded := by
  cases ns with
  | nil =>
      cases h
      exact nofun
  | cons n rest =>
      obtain ⟨v, hv, hrest⟩ := Option.bind_eq_some_iff.mp h
      obtain ⟨more, hmore, hvs⟩ := Option.bind_eq_some_iff.mp hrest
      cases hvs
      exact List.forall_mem_cons.mpr ⟨decoded_value? n hv, decoded_values? rest hmore⟩

theorem decoded_fieldValues? (fields : List (Scalar × Node)) {before after : Fields Value}
    (hbefore : Value.Decoded (.map before)) (h : fieldValues? before fields = some after) :
    Value.Decoded (.map after) := by
  cases fields with
  | nil =>
      cases h
      exact hbefore
  | cons field rest =>
      obtain ⟨key, n⟩ := field
      obtain ⟨v, hv, hmore⟩ := Option.bind_eq_some_iff.mp h
      obtain ⟨added, hadded, hrest⟩ := Option.bind_eq_some_iff.mp hmore
      exact decoded_fieldValues? rest (decoded_addField? hbefore (decoded_value? n hv) hadded) hrest

end

theorem decoded_outerFields? {names : List Bytes} (fields : List (Scalar × Node))
    {before after : Fields Value} (hbefore : Value.Decoded (.map before))
    (h : outerFields? names before fields = some after) : Value.Decoded (.map after) := by
  induction fields generalizing names before with
  | nil =>
      cases h
      exact hbefore
  | cons field rest ih =>
      obtain ⟨key, n⟩ := field
      obtain ⟨v, hv, hmore⟩ := Option.bind_eq_some_iff.mp h
      have hvalue := decoded_value? n hv
      by_cases hmerge : key.style = .merge
      · rw [if_pos hmerge] at hmore
        obtain ⟨added, hadded, hrest⟩ := Option.bind_eq_some_iff.mp hmore
        exact ih (decoded_addField? hbefore hvalue hadded) hrest
      · rw [if_neg hmerge] at hmore
        split at hmore
        · cases hmore
        · exact ih (hbefore.insert hvalue _) hmore

end Node

theorem decoded_firstFields? {nodes : List (Option Node)} {doc : Fields Value}
    (h : firstFields? nodes = some doc) : Value.Decoded (.map doc) := by
  induction nodes with
  | nil =>
      cases h
      exact .map .nil nofun
  | cons node rest ih =>
      cases node with
      | none => exact ih h
      | some n =>
          cases n with
          | map fields => exact Node.decoded_outerFields? fields (.map .nil nofun) h
          | _ => cases h

/-- A text that can be read holds a document with all names in order. -/
theorem decoded_read? {text : Bytes} {doc : Fields Value} (h : read? text = some doc) :
    Value.Decoded (.map doc) := by
  obtain ⟨tokens, -, h⟩ := Option.bind_eq_some_iff.mp h
  obtain ⟨parts, -, h⟩ := Option.bind_eq_some_iff.mp h
  obtain ⟨nodes, -, h⟩ := Option.bind_eq_some_iff.mp h
  split at h
  · cases h
  · exact decoded_firstFields? h

end Yaml

end Backtick
