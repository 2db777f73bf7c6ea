import Mathlib
import Backtick.Proofs.Rounding
import Backtick.Script.Emit
import Backtick.Script.Read

/-!
# Numbers in figures

The figures of a finite number read back as that number. The decimal that is
written was read back when it was chosen, so what is left to show is that its
value survives the layout with a point and the limits of the reader.
-/

namespace Backtick

/-! ## Decimals -/

namespace Decimal

theorem ratio_den_pos (d : Decimal) : 0 < d.ratio.2 :=
  Nat.pow_pos (by decide)

/-- Zeros can be moved between the significand and the exponent. -/
theorem read_shift (p : Precision) (n k : Nat) (e : Int) :
    read p ⟨n * 10 ^ k, e⟩ = read p ⟨n, e + k⟩ := by
  apply Precision.round_eq_of_ratio p (ratio_den_pos _) (ratio_den_pos _)
  have hexp : k + e.toNat + (-(e + k)).toNat = (e + k).toNat + (-e).toNat := by omega
  simp only [ratio, Nat.pow_eq]
  calc
    n * 10 ^ k * 10 ^ e.toNat * Binary64.oneUnits * 10 ^ (-(e + k)).toNat
      = n * Binary64.oneUnits * 10 ^ (k + e.toNat + (-(e + k)).toNat) := by
        rw [Nat.pow_add, Nat.pow_add]; ring
    _ = n * Binary64.oneUnits * 10 ^ ((e + k).toNat + (-e).toNat) := by rw [hexp]
    _ = n * 10 ^ (e + k).toNat * Binary64.oneUnits * 10 ^ (-e).toNat := by
        rw [Nat.pow_add]; ring

theorem read_strip_go (p : Precision) (fuel n : Nat) (e : Int) :
    read p (strip.go fuel n e) = read p ⟨n, e⟩ := by
  induction fuel generalizing n e with
  | zero => rfl
  | succ fuel ih =>
      unfold strip.go
      split
      · rename_i hzero
        have hn : n = n / 10 * 10 ^ 1 := by omega
        have hshift := read_shift p (n / 10) 1 e
        rw [ih]
        rw [← hn] at hshift
        exact hshift.symm
      · rfl

theorem read_strip (p : Precision) (d : Decimal) : read p d.strip = read p d :=
  read_strip_go p d.significand d.significand d.exponent

theorem ratio_exact (units : Nat) :
    (exact units).ratio = (units * 10 ^ Binary64.unitExponent, 10 ^ Binary64.unitExponent) := by
  unfold exact ratio Binary64.oneUnits
  generalize Binary64.unitExponent = k
  have hlow : (-(k : Int)).toNat = 0 := by omega
  have hhigh : (- -(k : Int)).toNat = k := by omega
  have hten : 5 ^ k * 2 ^ k = 10 ^ k := (Nat.mul_pow 5 2 k).symm
  simp only [hlow, hhigh, Nat.pow_eq, Nat.pow_zero, Nat.mul_one, Nat.mul_assoc, hten]

theorem read_exact {units : Nat} (h : IsBinary64 units) :
    read .double (exact units) = units := by
  rw [read, ratio_exact]
  exact Precision.round_exact h (Nat.pow_pos (by decide))

theorem read_onGrid {p : Precision} {units : Nat} {e : Int} {d : Decimal}
    (h : onGrid? p units e = some d) : read p d = units := by
  unfold onGrid? at h
  have hfound := List.find?_some h
  rw [beq_iff_eq] at hfound
  exact hfound

/-- The decimal that is written for a number reads back as that number. -/
theorem read_shortest {units : Nat} (h : IsBinary64 units) :
    read .double (shortest .double units) = units := by
  unfold shortest
  dsimp only
  rw [read_strip]
  cases hfound : (List.range 17).findSome? fun (i : Nat) =>
      onGrid? .double units (scale units - Int.ofNat i - 1) with
  | none => exact read_exact h
  | some d =>
      obtain ⟨i, -, hgrid⟩ := List.exists_of_findSome?_eq_some hfound
      exact read_onGrid hgrid

end Decimal

/-! ## Digits -/

theorem length_digits (d : Decimal) : d.digits.length = (Nat.toDigits 10 d.significand).length := by
  simp [Decimal.digits, Bytes.ofNat]

theorem significand_lt (d : Decimal) : d.significand < 10 ^ d.digits.length := by
  rw [length_digits]
  exact (Nat.length_toDigits_le_iff (by decide) Nat.length_toDigits_pos).mp (Nat.le_refl _)

theorem le_significand {d : Decimal} (h : d.significand ≠ 0) :
    10 ^ (d.digits.length - 1) ≤ d.significand := by
  by_contra hlt
  rw [Nat.not_le] at hlt
  have hpos : 0 < d.digits.length - 1 := by
    by_contra hzero
    have hexp : d.digits.length - 1 = 0 := by omega
    rw [hexp, Nat.pow_zero] at hlt
    omega
  have hle := (Nat.length_toDigits_le_iff (by decide) hpos).mpr hlt
  rw [← length_digits] at hle
  omega

/-- A decimal far below the smallest number of the format reads as zero. -/
theorem read_tiny {d : Decimal} (h : (d.digits.length : Int) + d.exponent < -330) :
    d.read .double = 0 := by
  have hlt := significand_lt d
  have hexp : d.exponent.toNat = 0 := by omega
  have hden : 10 ^ (d.digits.length + 331) ≤ 10 ^ (-d.exponent).toNat :=
    Nat.pow_le_pow_right (by decide) (by omega)
  have hone : 2 * Binary64.oneUnits ≤ Nat.pow 10 331 := by decide +kernel
  generalize 331 = k at hden hone
  have hpos : 0 < 2 * Binary64.oneUnits := by decide +kernel
  apply Precision.round_small
  simp only [Decimal.ratio, Nat.pow_eq, hexp, Nat.pow_zero, Nat.mul_one]
  calc
    2 * (d.significand * Binary64.oneUnits) = d.significand * (2 * Binary64.oneUnits) := by ring
    _ < 10 ^ d.digits.length * (2 * Binary64.oneUnits) := Nat.mul_lt_mul_of_pos_right hlt hpos
    _ ≤ 10 ^ d.digits.length * Nat.pow 10 k := Nat.mul_le_mul_left _ hone
    _ = 10 ^ (d.digits.length + k) := (Nat.pow_add _ _ _).symm
    _ ≤ 10 ^ (-d.exponent).toNat := hden

/-- A decimal far above the largest number of the format reads as no number of it. -/
theorem read_huge {d : Decimal} (hne : d.significand ≠ 0)
    (h : 310 < (d.digits.length : Int) + d.exponent) :
    Nat.pow 2 Precision.double.limit ≤ d.read .double := by
  have hle := le_significand hne
  have hone : 2 * Nat.pow 2 Precision.double.limit ≤ Nat.pow 10 310 * Binary64.oneUnits := by
    decide +kernel
  have hexp : 310 + (-d.exponent).toNat ≤ d.digits.length - 1 + d.exponent.toNat := by omega
  generalize 310 = k at hone hexp
  have hquot : 2 * Nat.pow 2 Precision.double.limit ≤ d.ratio.1 / d.ratio.2 := by
    refine Nat.le_trans hone ((Nat.le_div_iff_mul_le (Decimal.ratio_den_pos d)).mpr ?_)
    simp only [Decimal.ratio]
    generalize Binary64.oneUnits = one
    generalize (-d.exponent).toNat = below at hexp ⊢
    generalize d.exponent.toNat = above at hexp ⊢
    calc
      Nat.pow 10 k * one * Nat.pow 10 below = Nat.pow 10 (k + below) * one := by
        simp only [Nat.pow_eq, Nat.pow_add]; ring
      _ ≤ Nat.pow 10 (d.digits.length - 1 + above) * one :=
        Nat.mul_le_mul_right _ (Nat.pow_le_pow_right (by decide) hexp)
      _ = Nat.pow 10 (d.digits.length - 1) * Nat.pow 10 above * one := by
        simp only [Nat.pow_eq, Nat.pow_add]
      _ ≤ d.significand * Nat.pow 10 above * one :=
        Nat.mul_le_mul_right _ (Nat.mul_le_mul_right _ hle)
  have hround := Precision.div_le_two_mul_round d.ratio.1 d.ratio.2
  unfold Decimal.read
  exact Nat.le_of_mul_le_mul_left (Nat.le_trans hquot hround) (by decide)

/-! ## Runs of digits -/

namespace Bytes

theorem digitsValue_foldl (acc : Nat) (digits : Bytes) :
    digits.foldl (fun acc b => acc * 10 + (b.toNat - '0'.toNat)) acc =
      acc * 10 ^ digits.length + digitsValue digits := by
  unfold digitsValue
  induction digits generalizing acc with
  | nil => simp
  | cons b rest ih =>
      rw [List.foldl_cons, ih, List.foldl_cons, ih (0 * 10 + _), List.length_cons, Nat.pow_succ]
      ring

theorem digitsValue_append (xs ys : Bytes) :
    digitsValue (xs ++ ys) = digitsValue xs * 10 ^ ys.length + digitsValue ys := by
  rw [← digitsValue_foldl, digitsValue, List.foldl_append, ← digitsValue]

theorem digitsValue_zeros (n : Nat) : digitsValue (List.replicate n '0'.toUInt8) = 0 := by
  induction n with
  | zero => rfl
  | succ n ih =>
      rw [List.replicate_succ', digitsValue_append, ih]
      rfl

theorem digitsValue_ofNat (n : Nat) : digitsValue (ofNat n) = n := by
  have hdigit : ∀ k < 10, digitsValue [(Nat.digitChar k).toUInt8] = k := by decide
  induction n using Nat.strongRecOn with
  | _ n ih =>
      unfold ofNat
      rcases Nat.lt_or_ge n 10 with hlt | hge
      · rw [Nat.toDigits_of_lt_base hlt]
        exact hdigit n hlt
      · rw [Nat.toDigits_of_base_le (by decide) hge, List.map_append, digitsValue_append,
          ← ofNat, ih (n / 10) (by omega), List.map_singleton, hdigit _ (Nat.mod_lt n (by decide))]
        simp only [List.length_singleton]
        omega

theorem isDigit_of_mem_ofNat {n : Nat} {b : UInt8} (h : b ∈ ofNat n) : isDigit b := by
  have hdigit : ∀ k < 10, isDigit (Nat.digitChar k).toUInt8 := by decide
  induction n using Nat.strongRecOn with
  | _ n ih =>
      unfold ofNat at h
      rcases Nat.lt_or_ge n 10 with hlt | hge
      · rw [Nat.toDigits_of_lt_base hlt, List.map_singleton, List.mem_singleton] at h
        exact h ▸ hdigit n hlt
      · rw [Nat.toDigits_of_base_le (by decide) hge, List.map_append, List.mem_append, ← ofNat,
          List.map_singleton, List.mem_singleton] at h
        rcases h with h | rfl
        · exact ih (n / 10) (by omega) h
        · exact hdigit _ (Nat.mod_lt n (by decide))

end Bytes

/-! ## Reading figures -/

namespace Numeral

/-- What is collected once a run of digits has been read as well. -/
def Digits.taking (acc : Digits) (run : Bytes) : Digits where
  value := acc.value * 10 ^ run.length + Bytes.digitsValue run
  places := if acc.seenPoint then acc.places + run.length else acc.places
  seenPoint := acc.seenPoint
  seenDigit := acc.seenDigit || !run.isEmpty

theorem plain_of_figure (b : UInt8) (h : Script.isFigure b) :
    b ≠ '-'.toUInt8 ∧ b ≠ '+'.toUInt8 ∧ b ≠ '_'.toUInt8 ∧ Bytes.toLowerByte b ≠ 'x'.toUInt8 := by
  revert b
  decide +kernel

theorem digits_run (acc : Digits) {run : Bytes} (hrun : ∀ b ∈ run, Bytes.isDigit b)
    (rest : Bytes) : digits false acc (run ++ rest) = digits false (acc.taking run) rest := by
  induction run generalizing acc with
  | nil => simp [Digits.taking, Bytes.digitsValue]
  | cons b run ih =>
      have hb : Bytes.isDigit b := hrun b List.mem_cons_self
      have hplain := plain_of_figure b (by simp [Script.isFigure, hb])
      have hpoint : b ≠ '.'.toUInt8 := by
        rintro rfl
        exact absurd hb (by decide)
      rw [List.cons_append, digits, if_neg hplain.2.2.1, if_neg hpoint]
      simp only [digit?, Bool.false_eq_true, if_false, hb, if_true]
      rw [ih _ fun x hx => hrun x (List.mem_cons_of_mem b hx)]
      congr 1
      have hvalue := Bytes.digitsValue_append [b] run
      have hone : Bytes.digitsValue [b] = b.toNat - '0'.toNat := by simp [Bytes.digitsValue]
      rw [hone, List.singleton_append] at hvalue
      cases hseen : acc.seenPoint <;>
        simp only [Digits.taking, hseen, hvalue, List.length_cons, List.isEmpty_cons,
          Digits.mk.injEq, Bool.not_false, Bool.or_true, Bool.true_or, if_true,
          Bool.false_eq_true, if_false, and_true, Nat.pow_succ]
      · ring
      · exact ⟨by ring, by omega⟩

theorem isWord_of_digit {w : List Bytes} {b : UInt8} (hb : Bytes.isDigit b) (more : Bytes)
    (hwords : ∀ word ∈ w, ∀ d, Bytes.isDigit d → word.head? ≠ some (Bytes.toLowerByte d)) :
    isWord (b :: more) w = false := by
  rw [isWord, List.map_cons, ← Bool.not_eq_true, List.contains_iff_mem]
  intro hmem
  exact hwords _ hmem b hb rfl

/-- A text of digits and points that starts with a digit is a decimal numeral. -/
theorem readAs_figures {p : Precision} {b : UInt8} {more : Bytes} {found : Digits}
    (hb : Bytes.isDigit b) (hmore : ∀ x ∈ more, Script.isFigure x)
    (hdigits : digits false ⟨0, 0, false, false⟩ (b :: more) = (found, []))
    (hseen : found.seenDigit) :
    readAs p (b :: more) = ofDecimal p false ⟨found.value, -(found.places : Int)⟩ := by
  have hfigures : ∀ x ∈ b :: more, Script.isFigure x := by
    intro x hx
    rcases List.mem_cons.mp hx with rfl | hx
    · simp [Script.isFigure, hb]
    · exact hmore x hx
  have hplain := plain_of_figure b (hfigures b List.mem_cons_self)
  have hsign : sign (b :: more) = (false, b :: more) := by simp [sign, hplain.1, hplain.2.1]
  have hinf := isWord_of_digit (w := ["inf", "infinity"]) hb more (by decide +kernel)
  have hnan := isWord_of_digit (w := ["nan"]) hb more (by decide +kernel)
  have hhex : hasHexPrefix (b :: more) = false := by
    cases more with
    | nil => rfl
    | cons x rest =>
        cases rest with
        | nil => rfl
        | cons y rest =>
            have hx := plain_of_figure x (hmore x List.mem_cons_self)
            simp [hasHexPrefix, hx.2.2.2]
  have hunderscore : (b :: more).contains '_'.toUInt8 = false := by
    rw [← Bool.not_eq_true, List.contains_iff_mem]
    intro hmem
    exact (plain_of_figure _ (hfigures _ hmem)).2.2.1 rfl
  unfold readAs
  rw [hsign]
  dsimp only
  rw [hinf, hnan]
  unfold readDigits
  simp only [hhex, hdigits, hseen, hunderscore, Bool.false_eq_true, if_false, Bool.not_true,
    Bool.not_false, Bool.or_true, Bool.or_false]

theorem readAs_whole (p : Precision) {b : UInt8} {more : Bytes} (hb : Bytes.isDigit b)
    (hmore : ∀ x ∈ more, Bytes.isDigit x) :
    readAs p (b :: more) = ofDecimal p false ⟨Bytes.digitsValue (b :: more), 0⟩ := by
  have hrun : ∀ x ∈ b :: more, Bytes.isDigit x := List.forall_mem_cons.mpr ⟨hb, hmore⟩
  have hdigits := digits_run ⟨0, 0, false, false⟩ hrun []
  rw [List.append_nil, digits] at hdigits
  rw [readAs_figures hb (fun x hx => by simp [Script.isFigure, hmore x hx]) hdigits rfl]
  simp [Digits.taking]

theorem readAs_fraction (p : Precision) {b : UInt8} {more places : Bytes}
    (hb : Bytes.isDigit b) (hmore : ∀ x ∈ more, Bytes.isDigit x)
    (hplaces : ∀ x ∈ places, Bytes.isDigit x) :
    readAs p (b :: more ++ '.'.toUInt8 :: places) =
      ofDecimal p false
        ⟨Bytes.digitsValue (b :: more ++ places), -(places.length : Int)⟩ := by
  have hrun : ∀ x ∈ b :: more, Bytes.isDigit x := List.forall_mem_cons.mpr ⟨hb, hmore⟩
  have hfigures : ∀ x ∈ more ++ '.'.toUInt8 :: places, Script.isFigure x := by
    intro x hx
    rcases List.mem_append.mp hx with hx | hx
    · simp [Script.isFigure, hmore x hx]
    · rcases List.mem_cons.mp hx with rfl | hx
      · rfl
      · simp [Script.isFigure, hplaces x hx]
  have hdigits := digits_run ⟨0, 0, false, false⟩ hrun ('.'.toUInt8 :: places)
  rw [digits, if_neg (by decide), if_pos rfl, if_neg (by simp [Digits.taking])] at hdigits
  have hrest := digits_run
    { Digits.taking ⟨0, 0, false, false⟩ (b :: more) with seenPoint := true } hplaces []
  rw [List.append_nil, digits] at hrest
  rw [hrest] at hdigits
  have hvalue := Bytes.digitsValue_append (b :: more) places
  rw [List.cons_append] at hvalue
  rw [List.cons_append, List.cons_append, readAs_figures hb hfigures hdigits rfl, hvalue]
  simp [Digits.taking]

theorem finish_units {negative : Bool} {units : Nat} (h : IsBinary64 units) :
    finish .double negative units = .ok (.finite negative units h) := by
  rw [finish, if_pos h.1, Binary64.ofUnits, dif_pos h]

/-- The limits of the reader leave out no number of the format. -/
theorem ofDecimal_eq_ok {d : Decimal} {units : Nat} (hread : d.read .double = units)
    (h : IsBinary64 units) (negative : Bool) :
    ofDecimal .double negative d = .ok (.finite negative units h) := by
  unfold ofDecimal
  dsimp only
  by_cases hsmall : (decide (d.significand = 0) ||
      decide ((d.digits.length : Int) + d.exponent < -330)) = true
  · have hzero : units = 0 := by
      rw [Bool.or_eq_true, decide_eq_true_eq, decide_eq_true_eq] at hsmall
      rw [← hread]
      rcases hsmall with hsig | htop
      · apply Precision.round_small
        simp [Decimal.ratio, hsig]
      · exact read_tiny htop
    subst hzero
    rw [if_pos hsmall, finish_units h]
  · rw [if_neg hsmall]
    rw [Bool.or_eq_true, decide_eq_true_eq, decide_eq_true_eq, not_or] at hsmall
    have htop : ¬ 310 < (d.digits.length : Int) + d.exponent := by
      intro htop
      have hhuge := read_huge hsmall.1 htop
      rw [hread] at hhuge
      exact absurd h.1 (Nat.not_lt.mpr hhuge)
    rw [if_neg htop, hread, finish_units h]

theorem isFinite_of_ofDecimal {d : Decimal} {negative : Bool} {x : Binary64}
    (h : ofDecimal .double negative d = .ok x) : x.isFinite := by
  have hzero : IsBinary64 0 := by decide +kernel
  unfold ofDecimal at h
  dsimp only at h
  split at h
  · rw [finish_units hzero] at h
    cases h
    rfl
  · split at h
    · cases h
    · unfold finish at h
      split at h
      · rename_i hlimit
        have hunits : IsBinary64 (d.read .double) :=
          Precision.round_isBinary64 d.ratio.1 (Decimal.ratio_den_pos d) hlimit
        rw [← Except.ok.inj h, Binary64.ofUnits, dif_pos hunits]
        rfl
      · cases h

/-- Digits on both sides of a point, and the decimal they denote. -/
inductive Pointed : Bytes -> Decimal -> Prop
  | mk {b : UInt8} {more places : Bytes} (hb : Bytes.isDigit b)
      (hmore : ∀ x ∈ more, Bytes.isDigit x) (hplaces : ∀ x ∈ places, Bytes.isDigit x) :
      Pointed (b :: more ++ '.'.toUInt8 :: places)
        ⟨Bytes.digitsValue (b :: more ++ places), -(places.length : Int)⟩

theorem Pointed.read? {text : Bytes} {d : Decimal} {units : Nat} (htext : Pointed text d)
    (hread : d.read .double = units) (h : IsBinary64 units) :
    Numeral.read? text = some (.finite false units h) := by
  cases htext with
  | mk hb hmore hplaces =>
      rw [Numeral.read?, readAs_fraction _ hb hmore hplaces, ofDecimal_eq_ok hread h]
      rfl

theorem Pointed.of_append {whole places : Bytes} (hne : whole ≠ [])
    (hwhole : ∀ x ∈ whole, Bytes.isDigit x) (hplaces : ∀ x ∈ places, Bytes.isDigit x) :
    Pointed (whole ++ '.'.toUInt8 :: places)
      ⟨Bytes.digitsValue (whole ++ places), -(places.length : Int)⟩ := by
  cases whole with
  | nil => exact absurd rfl hne
  | cons b more =>
      obtain ⟨hb, hmore⟩ := List.forall_mem_cons.mp hwhole
      exact .mk hb hmore hplaces

end Numeral

/-! ## Written numbers -/

namespace Notation

theorem isDigit_of_mem_zeros {n : Nat} {b : UInt8}
    (h : b ∈ List.replicate n '0'.toUInt8) : Bytes.isDigit b := by
  rw [List.eq_of_mem_replicate h]
  rfl

theorem not_contains_point {run : Bytes} (h : ∀ b ∈ run, Bytes.isDigit b) :
    run.contains '.'.toUInt8 = false := by
  rw [← Bool.not_eq_true, List.contains_iff_mem]
  intro hmem
  exact absurd (h _ hmem) (by decide)

theorem isDigit_of_mem_digits {d : Decimal} {b : UInt8} (h : b ∈ d.digits) : Bytes.isDigit b :=
  Bytes.isDigit_of_mem_ofNat h

theorem digits_length_pos (d : Decimal) : 0 < d.digits.length := by
  rw [length_digits]
  exact Nat.length_toDigits_pos

theorem leading_eq (d : Decimal) : d.leading = d.exponent + d.digits.length - 1 :=
  rfl

theorem pointed_zeros_digits (p : Precision) {d : Decimal} (hlead : d.leading < 0) :
    ∃ e, Numeral.Pointed (['0'.toUInt8] ++ '.'.toUInt8 ::
        (List.replicate (-d.leading - 1).toNat '0'.toUInt8 ++ d.digits)) e ∧
      e.read p = d.read p := by
  generalize hgap : List.replicate (-d.leading - 1).toNat '0'.toUInt8 = gap
  have hplaces : ∀ b ∈ gap ++ d.digits, Bytes.isDigit b := by
    intro b hb
    rcases List.mem_append.mp hb with hb | hb
    · exact isDigit_of_mem_zeros (hgap ▸ hb)
    · exact isDigit_of_mem_digits hb
  refine ⟨_, .of_append (by simp) (by decide +kernel) hplaces, ?_⟩
  have hplace : -((gap ++ d.digits).length : Int) = d.exponent := by
    have := leading_eq d
    rw [List.length_append, ← hgap, List.length_replicate]
    omega
  have hzero : Bytes.digitsValue ['0'.toUInt8] = 0 := rfl
  rw [hplace, Bytes.digitsValue_append, Bytes.digitsValue_append, hzero, ← hgap,
    Bytes.digitsValue_zeros, Nat.zero_mul, Nat.zero_mul, Nat.zero_add, Nat.zero_add,
    Decimal.digits, Bytes.digitsValue_ofNat]

theorem pointed_digits_zeros (p : Precision) {d : Decimal} (hexp : 0 ≤ d.exponent) :
    ∃ e, Numeral.Pointed
        (d.digits ++ List.replicate d.exponent.toNat '0'.toUInt8 ++ '.'.toUInt8 :: ['0'.toUInt8])
        e ∧
      e.read p = d.read p := by
  generalize hgap : List.replicate d.exponent.toNat '0'.toUInt8 = gap
  have hwhole : ∀ b ∈ d.digits ++ gap, Bytes.isDigit b := by
    intro b hb
    rcases List.mem_append.mp hb with hb | hb
    · exact isDigit_of_mem_digits hb
    · exact isDigit_of_mem_zeros (hgap ▸ hb)
  have hne : d.digits ++ gap ≠ [] := by
    have hpos := digits_length_pos d
    intro hnil
    simp [List.append_eq_nil_iff.mp hnil] at hpos
  refine ⟨_, .of_append hne hwhole (by decide +kernel), ?_⟩
  have hshift := Decimal.read_shift p d.significand (d.exponent.toNat + 1) (-1)
  have hplace : (-1 : Int) + (d.exponent.toNat + 1 : Nat) = d.exponent := by omega
  have hzero : Bytes.digitsValue ['0'.toUInt8] = 0 := rfl
  rw [hplace] at hshift
  rw [← hshift, Bytes.digitsValue_append, Bytes.digitsValue_append, hzero, ← hgap,
    Bytes.digitsValue_zeros, Decimal.digits, Bytes.digitsValue_ofNat]
  simp [Nat.pow_succ, Nat.mul_assoc]

theorem pointed_digits (p : Precision) {d : Decimal} (hlead : 0 ≤ d.leading)
    (hexp : d.exponent < 0) :
    ∃ e, Numeral.Pointed (d.digits.take (d.leading.toNat + 1) ++
        '.'.toUInt8 :: d.digits.drop (d.leading.toNat + 1)) e ∧
      e.read p = d.read p := by
  have hpos := digits_length_pos d
  have hlength := leading_eq d
  have hne : d.digits.take (d.leading.toNat + 1) ≠ [] := by
    intro hnil
    have := congrArg List.length hnil
    rw [List.length_take, List.length_nil] at this
    omega
  refine ⟨_, .of_append hne (fun b hb => isDigit_of_mem_digits (List.mem_of_mem_take hb))
    (fun b hb => isDigit_of_mem_digits (List.mem_of_mem_drop hb)), ?_⟩
  have hplace : -((d.digits.drop (d.leading.toNat + 1)).length : Int) = d.exponent := by
    rw [List.length_drop]
    omega
  rw [hplace, List.take_append_drop, Decimal.digits, Bytes.digitsValue_ofNat]

/-- With a point added where there is none, the layout denotes the decimal it is made from. -/
theorem pointed_placed (p : Precision) (d : Decimal) :
    ∃ e, Numeral.Pointed
        (if (placed d).contains '.'.toUInt8 then placed d else placed d ++ ↑".0") e ∧
      e.read p = d.read p := by
  unfold placed
  dsimp only
  by_cases hlead : d.leading < 0
  · have hpoint : '.'.toUInt8 ∈ Bytes.ofString "0." := by decide +kernel
    rw [if_pos hlead, if_pos (by simp [hpoint]), List.append_assoc]
    exact pointed_zeros_digits p hlead
  · rw [if_neg hlead]
    by_cases hexp : 0 ≤ d.exponent
    · have hwhole : ∀ b ∈ d.digits ++ List.replicate d.exponent.toNat '0'.toUInt8,
          Bytes.isDigit b := by
        intro b hb
        rcases List.mem_append.mp hb with hb | hb
        · exact isDigit_of_mem_digits hb
        · exact isDigit_of_mem_zeros hb
      rw [if_pos hexp, not_contains_point hwhole, if_neg Bool.false_ne_true]
      exact pointed_digits_zeros p hexp
    · have hpoint : '.'.toUInt8 ∈ Bytes.ofString "." := by decide +kernel
      rw [if_neg hexp, if_pos (by simp [hpoint]), List.append_assoc]
      exact pointed_digits p (by omega) (by omega)

theorem write_finite (n : Notation) (p : Precision) (negative : Bool) {units : Nat}
    (h : IsBinary64 units) :
    n.write p (.finite negative units h) =
      (if negative then ↑"-" else []) ++
        (if units = 0 then ↑"0" else n.layout (Decimal.shortest p units)) :=
  rfl

theorem layout_positional (d : Decimal) : positional.layout d = placed d := by
  simp [layout, positional]

end Notation

/-! ## Numbers of scripts -/

namespace Script

/-- The figures of a number without its sign. -/
theorem pointed_number {units : Nat} (h : IsBinary64 units) :
    ∃ d, Numeral.Pointed (number (.finite false units h)) d ∧ d.read .double = units := by
  unfold number
  dsimp only
  rw [Notation.write_finite, if_neg Bool.false_ne_true, List.nil_append]
  by_cases hzero : units = 0
  · have hfigure : ∀ b ∈ ['0'.toUInt8], Bytes.isDigit b := by decide +kernel
    rw [if_pos hzero, hzero]
    exact ⟨_, .of_append (List.cons_ne_nil _ _) hfigure hfigure, by decide +kernel⟩
  · rw [if_neg hzero, Notation.layout_positional]
    obtain ⟨d, hpointed, hread⟩ := Notation.pointed_placed .double (Decimal.shortest .double units)
    exact ⟨d, hpointed, hread.trans (Decimal.read_shortest h)⟩

theorem number_negative {units : Nat} (h : IsBinary64 units) :
    number (.finite true units h) = '-'.toUInt8 :: number (.finite false units h) := by
  have hpoint : ('.'.toUInt8 == '-'.toUInt8) = false := by decide
  have hsign : Bytes.ofString "-" = ['-'.toUInt8] := rfl
  unfold number
  dsimp only
  rw [Notation.write_finite, Notation.write_finite, if_pos rfl, if_neg Bool.false_ne_true, hsign,
    List.nil_append, List.singleton_append, List.contains_cons, hpoint, Bool.false_or,
    List.cons_append]
  exact (apply_ite (List.cons '-'.toUInt8) _ _ _).symm

end Script

end Backtick
