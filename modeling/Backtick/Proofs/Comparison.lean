import Mathlib
import Backtick.Value.Compare

/-!
# Laws of comparing

The ordering operators read one order: that of bytes for two strings, that of
places on the line for all else. Exchanging the operands turns it around, and where
there is no order no operator holds. Strict equality goes by kinds: plain values that
are equal have the same place, and for two strings or two numbers the same place is
all it takes.
-/

namespace Backtick

/-! ## Orders of bytes and of numbers -/

theorem Bytes.order_eq_compareLex (a b : Bytes) :
    Bytes.order a b = List.compareLex compare a b := by
  fun_induction Bytes.order a b with
  | case1 | case2 | case3 => rfl
  | case4 a as b bs h => simp [List.compareLex_cons_cons, compare, compareOfLessAndEq, h]
  | case5 a as b bs h h' =>
      have hne : a ≠ b := by
        rintro rfl
        exact h h'
      simp [List.compareLex_cons_cons, compare, compareOfLessAndEq, h, hne]
  | case6 a as b bs h h' ih =>
      have hab : a = b := UInt8.le_antisymm (UInt8.not_lt.mp h') (UInt8.not_lt.mp h)
      simp [List.compareLex_cons_cons, hab, ih]

namespace Binary64

theorem order?_eq_some_iff {x y : Binary64} {o : Ordering} :
    order? x y = some o ↔
      ∃ m n, x.place? = some m ∧ y.place? = some n ∧ compare m n = o := by
  unfold order?
  cases x.place? <;> cases y.place? <;> simp

theorem order?_swap (x y : Binary64) : (order? x y).map Ordering.swap = order? y x := by
  unfold order?
  cases x.place? <;> cases y.place? <;> simp [Int.compare_swap]

theorem order?_trans {x y z : Binary64} (hxy : order? x y = some .lt)
    (hyz : order? y z = some .lt) : order? x z = some .lt := by
  obtain ⟨m, n, hm, hn, hmn⟩ := order?_eq_some_iff.mp hxy
  obtain ⟨n', k, hn', hk, hnk⟩ := order?_eq_some_iff.mp hyz
  obtain rfl := Option.some.inj (hn.symm.trans hn')
  exact order?_eq_some_iff.mpr ⟨m, k, hm, hk, Std.TransCmp.lt_trans hmn hnk⟩

theorem order?_self {x : Binary64} (h : x.isNaN = false) : order? x x = some .eq := by
  cases x with
  | nan => cases h
  | infinite | finite =>
      exact order?_eq_some_iff.mpr ⟨_, _, rfl, rfl, Std.ReflCmp.compare_self⟩

theorem equal_comm (x y : Binary64) : x.equal y = y.equal x := by
  unfold equal
  rw [← order?_swap x y]
  rcases x.order? y with _ | _ | _ | _ <;> rfl

theorem isNaN_ofUnits (negative : Bool) (units : Nat) : (ofUnits negative units).isNaN = false := by
  unfold ofUnits
  split <;> rfl

theorem isNaN_ofInt (n : Int) : (ofInt n).isNaN = false := by
  rw [ofInt, ofRatio, isNaN_ofUnits]

end Binary64

namespace Value

/-! ## The order of two values -/

def isString : Value -> Bool
  | .string _ => true
  | _ => false

def isNumber (v : Value) : Bool :=
  v.number?.isSome

/-- Whether a value is plain: null, a truth value, a number or a string. -/
def isPlain : Value -> Bool
  | .null | .bool _ => true
  | v => v.isString || v.isNumber

theorem isPlain_of_or {v : Value} (h : v.isString ∨ v.isNumber) : v.isPlain := by
  cases v with
  | null | bool => rfl
  | _ => simpa [isPlain] using h

theorem exists_of_isString {v : Value} (h : v.isString) : ∃ s, v = .string s := by
  cases v with
  | string s => exact ⟨s, rfl⟩
  | _ => cases h

theorem order?_strings (s t : Bytes) :
    order? (.string s) (.string t) = some (List.compareLex Ord.compare s t) := by
  rw [order?, Bytes.order_eq_compareLex]

theorem order?_numbers {a b : Value} (h : ¬(a.isString ∧ b.isString)) :
    order? a b = a.toNumber.order? b.toNumber := by
  unfold order?
  split
  · exact absurd ⟨rfl, rfl⟩ h
  · rfl

theorem order?_swap (a b : Value) : (order? a b).map Ordering.swap = order? b a := by
  by_cases h : a.isString ∧ b.isString
  · obtain ⟨s, rfl⟩ := exists_of_isString h.1
    obtain ⟨t, rfl⟩ := exists_of_isString h.2
    rw [order?_strings, order?_strings, Option.map_some, ← Std.OrientedCmp.eq_swap]
  · rw [order?_numbers h, order?_numbers fun h' => h h'.symm, Binary64.order?_swap]

/-- The order is transitive among strings, and among all else. -/
theorem order?_trans {a b c : Value} (hsort : a.isString = b.isString ∧ b.isString = c.isString)
    (hab : order? a b = some .lt) (hbc : order? b c = some .lt) : order? a c = some .lt := by
  cases hb : b.isString with
  | true =>
      obtain ⟨s, rfl⟩ := exists_of_isString (hsort.1.trans hb)
      obtain ⟨t, rfl⟩ := exists_of_isString hb
      obtain ⟨u, rfl⟩ := exists_of_isString (hsort.2.symm.trans hb)
      rw [order?_strings, Option.some.injEq] at hab hbc ⊢
      exact Std.TransCmp.lt_trans hab hbc
  | false =>
      have ha := hsort.1.trans hb
      rw [order?_numbers (by simp [hb])] at hab hbc
      rw [order?_numbers (by simp [ha])]
      exact Binary64.order?_trans hab hbc

theorem compare_of_ne {op : Comparator} (h : op ≠ .strictEqual) (a b : Value) :
    compare a op b = (order? a b).any (accepts op) :=
  if_neg h

/-! ## Strict equality -/

theorem same_symm :
    (∀ a b, same a b → same b a) ∧ (∀ as bs, sameFields as bs → sameFields bs as) ∧
      ∀ as bs, sameItems as bs → sameItems bs as := by
  -- the cases are those of `same`, then of `sameItems`, then of `sameFields`
  apply same.mutual_induct
  case case1 | case17 | case20 => exact id
  case case2 | case3 | case9 | case10 | case11 | case14 | case15 =>
    intro a b h
    rw [same] at h ⊢
    exact BEq.symm h
  case case4 =>
    intro k a l b h
    rw [same, Bool.and_eq_true] at h ⊢
    exact h.imp BEq.symm BEq.symm
  case case5 | case6 =>
    intro x y h
    rw [same] at h ⊢
    exact (Binary64.equal_comm y x).trans h
  case case7 | case8 | case12 | case13 =>
    intro a b ih h
    rw [same] at h ⊢
    exact ih h
  case case16 =>
    -- values of different types
    intros
    rename_i h
    rw [same] at h
    · cases h
    all_goals assumption
  case case18 =>
    intro a as b bs iha ihas h
    rw [sameItems, Bool.and_eq_true] at h ⊢
    exact h.imp iha ihas
  case case19 =>
    intro as bs hnil hcons h
    rw [sameItems] at h
    exacts [Bool.noConfusion h, hnil, hcons]
  case case21 =>
    intro k a as l b bs iha ihas h
    simp only [sameFields, Bool.and_eq_true] at h ⊢
    exact h.imp (And.imp BEq.symm iha) ihas
  case case22 =>
    intro as bs hnil hcons h
    rw [sameFields] at h
    exacts [Bool.noConfusion h, hnil, hcons]

theorem strictEqual_comm (a b : Value) : strictEqual a b = strictEqual b a := by
  unfold strictEqual
  cases a.number? <;> cases b.number?
  · exact Bool.eq_iff_iff.mpr ⟨same_symm.1 a b, same_symm.1 b a⟩
  · rfl
  · rfl
  · exact Binary64.equal_comm _ _

theorem toNumber_of_number? {v : Value} {x : Binary64} (h : v.number? = some x) :
    v.toNumber = x := by
  cases v <;> simp_all [toNumber, number?]

theorem not_isString_of_number? {v : Value} {x : Binary64} (h : v.number? = some x) :
    v.isString = false := by
  cases v with
  | string => cases h
  | _ => rfl

/-- Two strings, or two numbers, are equal exactly if neither comes before the other. -/
theorem strictEqual_iff {a b : Value}
    (h : a.isString ∧ b.isString ∨ a.isNumber ∧ b.isNumber) :
    strictEqual a b ↔ order? a b = some .eq := by
  rcases h with ⟨ha, hb⟩ | ⟨ha, hb⟩
  · obtain ⟨s, rfl⟩ := exists_of_isString ha
    obtain ⟨t, rfl⟩ := exists_of_isString hb
    rw [order?_strings, Option.some.injEq, Std.LawfulEqCmp.compare_eq_iff_eq]
    exact beq_iff_eq
  · obtain ⟨x, hx⟩ := Option.isSome_iff_exists.mp ha
    obtain ⟨y, hy⟩ := Option.isSome_iff_exists.mp hb
    have hnot : ¬(a.isString ∧ b.isString) := by simp [not_isString_of_number? hx]
    rw [order?_numbers hnot, toNumber_of_number? hx, toNumber_of_number? hy]
    simp [strictEqual, hx, hy, Binary64.equal]

theorem isNaN_toNumber {v : Value} (h : v.isPlain) (hs : v.isString = false)
    (hn : v.isNumber = false) : v.toNumber.isNaN = false := by
  cases v with
  | null => rw [toNumber, Binary64.zero, Binary64.isNaN_ofUnits]
  | bool b =>
      cases b
      · rw [toNumber, if_neg Bool.false_ne_true, Binary64.zero, Binary64.isNaN_ofUnits]
      · rw [toNumber, if_pos rfl, Binary64.one, Binary64.isNaN_ofUnits]
  | string => cases hs
  | integer | double | single => cases hn
  | list | map | strings | integers | bytes | array | ref | emptyRef | duration => cases h

/-- Plain values that are no numbers are equal only if they are one value. -/
theorem eq_of_same {a b : Value} (ha : a.isPlain) (hn : a.isNumber = false) (h : same a b) :
    a = b := by
  cases a with
  | null => cases b <;> simp_all [same]
  | bool => cases b <;> simp_all [same]
  | string => cases b <;> simp_all [same]
  | integer | double | single => cases hn
  | list | map | strings | integers | bytes | array | ref | emptyRef | duration => cases ha

theorem isNumber_eq_of_strictEqual {a b : Value} (h : strictEqual a b) :
    a.isNumber = b.isNumber := by
  unfold strictEqual at h
  unfold isNumber
  cases ha : a.number? <;> cases hb : b.number? <;> simp_all

theorem order?_self_of_isPlain {v : Value} (h : v.isPlain) (hn : v.isNumber = false) :
    order? v v = some .eq := by
  cases hs : v.isString with
  | true =>
      obtain ⟨s, rfl⟩ := exists_of_isString hs
      exact (order?_strings s s).trans (congrArg some Std.ReflCmp.compare_self)
  | false =>
      rw [order?_numbers (by simp [hs])]
      exact Binary64.order?_self (isNaN_toNumber h hs hn)

/-- Plain values that are equal have the same place. -/
theorem order?_of_strictEqual {a b : Value} (ha : a.isPlain) (h : strictEqual a b) :
    order? a b = some .eq := by
  have hab := isNumber_eq_of_strictEqual h
  cases hn : a.isNumber with
  | true => exact (strictEqual_iff (.inr ⟨hn, hab.symm.trans hn⟩)).mp h
  | false =>
      have hsame : same a b := by
        have hb := hab.symm.trans hn
        simp only [isNumber, Option.isSome_eq_false_iff, Option.isNone_iff_eq_none] at hn hb
        simpa [strictEqual, hn, hb] using h
      obtain rfl := eq_of_same ha hn hsame
      exact order?_self_of_isPlain ha hn

/-- A plain value equals itself as it equals any value that is the same. -/
theorem equalsItself_of_isPlain {v : Value} (h : v.isPlain) :
    v.equalsItself = strictEqual v v := by
  cases v with
  | null => rfl
  | bool b => exact (beq_self_eq_true b).symm
  | string s => exact (beq_self_eq_true s).symm
  | integer _ n =>
      have hself := Binary64.order?_self (Binary64.isNaN_ofInt n)
      simp [equalsItself, strictEqual, number?, Binary64.equal, hself]
  | double | single => rfl
  | list | map | strings | integers | bytes | array | ref | emptyRef | duration => cases h

end Value

/-! ## The laws -/

section Laws

variable {α : Type}

/-- No ordering operator holds between the two, whichever comes first. -/
def Incomparable (holds : α -> Comparator -> α -> Bool) (a b : α) : Prop :=
  ∀ op ∈ [Comparator.less, .lessEqual, .greater, .greaterEqual],
    holds a op b = false ∧ holds b op a = false

/-- Exactly one of before, after and level holds, and the weak operators deny the strict ones. -/
structure Comparable (holds : α -> Comparator -> α -> Bool) (a b : α) : Prop where
  exactly_one : [holds a .less b, holds a .greater b,
    holds a .lessEqual b && holds a .greaterEqual b].count true = 1
  lessEqual_eq : holds a .lessEqual b = !holds a .greater b
  greaterEqual_eq : holds a .greaterEqual b = !holds a .less b

structure ComparisonLaws (value : α -> Value) (holds : α -> Comparator -> α -> Bool) : Prop where
  less_eq_greater : ∀ a b, holds a .less b = holds b .greater a
  lessEqual_eq_greaterEqual : ∀ a b, holds a .lessEqual b = holds b .greaterEqual a
  incomparable_or_comparable : ∀ a b, Incomparable holds a b ∨ Comparable holds a b
  less_trans : ∀ a b c, (∀ x ∈ [a, b, c], (value x).isString) ∨
      (∀ x ∈ [a, b, c], (value x).isString = false) →
    holds a .less b → holds b .less c → holds a .less c
  equal_symm : ∀ a b, holds a .strictEqual b = holds b .strictEqual a
  equal_iff : ∀ a b, (value a).isString ∧ (value b).isString ∨
      (value a).isNumber ∧ (value b).isNumber →
    (holds a .strictEqual b ↔ holds a .lessEqual b ∧ holds a .greaterEqual b)
  level_of_equal : ∀ a b, (value a).isPlain → (value b).isPlain →
    holds a .strictEqual b → holds a .lessEqual b ∧ holds a .greaterEqual b

/-- The ordering operators read the order of the values. -/
def ByOrder (value : α -> Value) (holds : α -> Comparator -> α -> Bool) : Prop :=
  ∀ a op b, op ≠ .strictEqual →
    holds a op b = ((value a).order? (value b)).any (Value.accepts op)

variable {value : α -> Value} {holds : α -> Comparator -> α -> Bool}

theorem ByOrder.less_iff (h : ByOrder value holds) {a b : α} :
    holds a .less b ↔ (value a).order? (value b) = some .lt := by
  rw [h a .less b (by decide)]
  rcases (value a).order? (value b) with _ | _ | _ | _ <;> simp [Value.accepts]

theorem ByOrder.level_iff (h : ByOrder value holds) {a b : α} :
    holds a .lessEqual b ∧ holds a .greaterEqual b ↔ (value a).order? (value b) = some .eq := by
  rw [h a .lessEqual b (by decide), h a .greaterEqual b (by decide)]
  rcases (value a).order? (value b) with _ | _ | _ | _ <;> simp [Value.accepts]

/-- Exchanged operands satisfy the operators that accept the order turned around. -/
theorem ByOrder.swap (h : ByOrder value holds) {op op' : Comparator} (hop : op ≠ .strictEqual)
    (hop' : op' ≠ .strictEqual) (hswap : ∀ o, Value.accepts op o = Value.accepts op' o.swap)
    (a b : α) : holds a op b = holds b op' a := by
  rw [h a op b hop, h b op' a hop', ← Value.order?_swap (value a) (value b)]
  cases (value a).order? (value b) with
  | none => rfl
  | some o => exact hswap o

theorem ByOrder.incomparable_or_comparable (h : ByOrder value holds) (a b : α) :
    Incomparable holds a b ∨ Comparable holds a b := by
  cases horder : (value a).order? (value b) with
  | none =>
      have hback : (value b).order? (value a) = none := by
        rewrite [← Value.order?_swap, horder]
        rfl
      left
      intro op hop
      have hne : op ≠ .strictEqual := by
        rintro rfl
        simp at hop
      rw [h a op b hne, h b op a hne, horder, hback]
      exact ⟨rfl, rfl⟩
  | some o =>
      have hless := h a .less b (by decide)
      have hlessEqual := h a .lessEqual b (by decide)
      have hgreater := h a .greater b (by decide)
      have hgreaterEqual := h a .greaterEqual b (by decide)
      rw [horder] at hless hlessEqual hgreater hgreaterEqual
      right
      constructor <;> simp only [hless, hlessEqual, hgreater, hgreaterEqual] <;> cases o <;> rfl

/-- Operators that go by the order, and by strict equality on plain values, obey the laws. -/
theorem ByOrder.laws (h : ByOrder value holds)
    (hsymm : ∀ a b, holds a .strictEqual b = holds b .strictEqual a)
    (hplain : ∀ a b, (value a).isPlain → (value b).isPlain →
      holds a .strictEqual b = (value a).strictEqual (value b)) :
    ComparisonLaws value holds where
  less_eq_greater := h.swap (by decide) (by decide) (by decide)
  lessEqual_eq_greaterEqual := h.swap (by decide) (by decide) (by decide)
  incomparable_or_comparable := h.incomparable_or_comparable
  less_trans a b c hsort hab hbc := by
    have hkind : (value a).isString = (value b).isString ∧
        (value b).isString = (value c).isString := by
      rcases hsort with hsort | hsort <;> simp_all
    exact h.less_iff.mpr (Value.order?_trans hkind (h.less_iff.mp hab) (h.less_iff.mp hbc))
  equal_symm := hsymm
  equal_iff a b hsort := by
    have ha := Value.isPlain_of_or (hsort.imp And.left And.left)
    have hb := Value.isPlain_of_or (hsort.imp And.right And.right)
    rw [h.level_iff, hplain a b ha hb, Value.strictEqual_iff hsort]
  level_of_equal a b ha hb heq := by
    rw [hplain a b ha hb] at heq
    exact h.level_iff.mpr (Value.order?_of_strictEqual ha heq)

end Laws

namespace Reading

/-- A reading of a variable has the value that the variable has. -/
def IsOf (env : Bytes -> Value) (r : Reading) : Prop :=
  ∀ name, r.source = some name → r.value = env name

theorem ofSameVariable_comm (a b : Reading) : a.ofSameVariable b = b.ofSameVariable a := by
  unfold ofSameVariable
  cases a.source <;> cases b.source <;> simp [eq_comm]

theorem IsOf.value_eq {env : Bytes -> Value} {a b : Reading} (ha : a.IsOf env) (hb : b.IsOf env)
    (h : a.ofSameVariable b) : a.value = b.value := by
  simp only [ofSameVariable, Bool.and_eq_true, Option.isSome_iff_exists, beq_iff_eq] at h
  obtain ⟨⟨name, hname⟩, hab⟩ := h
  rw [ha name hname, hb name (hab.symm.trans hname)]

theorem compare_of_ne {op : Comparator} (h : op ≠ .strictEqual) (a b : Reading) :
    a.compare op b = a.value.compare op b.value := by
  simp [compare, h]

theorem compare_strictEqual (a b : Reading) : a.compare .strictEqual b =
    if a.ofSameVariable b then a.value.equalsItself else a.value.strictEqual b.value := by
  simp [compare, Value.compare]

end Reading

/-- The operators obey the laws on all values, and on all readings of the same variables. -/
theorem comparison_laws :
    ComparisonLaws id Value.compare ∧ ∀ env : Bytes -> Value,
      ComparisonLaws (fun r : {r : Reading // r.IsOf env} => r.val.value)
        (fun a op b => a.val.compare op b.val) := by
  refine ⟨?_, fun env => ?_⟩
  · have hord : ByOrder id Value.compare := fun a op b hop => Value.compare_of_ne hop a b
    exact hord.laws Value.strictEqual_comm fun _ _ _ _ => rfl
  · have hord : ByOrder (fun r : {r : Reading // r.IsOf env} => r.val.value)
        (fun a op b => a.val.compare op b.val) := fun a op b hop =>
      (Reading.compare_of_ne hop _ _).trans (Value.compare_of_ne hop _ _)
    refine hord.laws ?_ ?_
    · rintro ⟨a, ha⟩ ⟨b, hb⟩
      simp only [Reading.compare_strictEqual, b.ofSameVariable_comm a]
      split
      · rename_i h
        rw [ha.value_eq hb h]
      · exact Value.strictEqual_comm _ _
    · rintro ⟨a, ha⟩ ⟨b, hb⟩ hplain -
      simp only [Reading.compare_strictEqual]
      split
      · rename_i h
        rw [Value.equalsItself_of_isPlain hplain, ha.value_eq hb h]
      · rfl

end Backtick
