import Mathlib
import Backtick.Number.Decimal

/-!
# Rounding to binary64

Rounding depends only on the quotient that is rounded, gives back every number
of the format, and always lands on the grid of its result. Numbers below half a
unit become zero, and no number falls to less than half of its whole units.
-/

namespace Backtick

namespace Precision

theorem roundQuotient_scale {k : Nat} (hk : 0 < k) (num den : Nat) :
    roundQuotient (k * num) (k * den) = roundQuotient num den := by
  have htwice : 2 * (k * (num % den)) = k * (2 * (num % den)) := by ring
  have hlt : k * (2 * (num % den)) < k * den ↔ 2 * (num % den) < den :=
    Nat.mul_lt_mul_left hk
  have heq : k * (2 * (num % den)) = k * den ↔ 2 * (num % den) = den :=
    Nat.mul_right_inj hk.ne'
  simp only [roundQuotient, Nat.mul_div_mul_left _ _ hk, Nat.mul_mod_mul_left, htwice,
    decide_eq_decide.mpr hlt, Bool.beq_eq_decide_eq, decide_eq_decide.mpr heq]

theorem roundQuotient_exact (q : Nat) {den : Nat} (hden : 0 < den) :
    roundQuotient (q * den) den = q := by
  simp [roundQuotient, Nat.mul_div_cancel _ hden, hden]

theorem roundQuotient_bounds (num den : Nat) :
    num / den ≤ roundQuotient num den ∧ roundQuotient num den ≤ num / den + 1 := by
  unfold roundQuotient
  dsimp only
  split <;> omega

theorem roundQuotient_small {num den : Nat} (h : 2 * num < den) : roundQuotient num den = 0 := by
  have hlt : num < den := by omega
  simp [roundQuotient, Nat.div_eq_of_lt hlt, Nat.mod_eq_of_lt hlt, h]

theorem round_eq (p : Precision) (num den : Nat) :
    p.round num den =
      roundQuotient num (den * 2 ^ p.gridExponent (num / den)) * 2 ^ p.gridExponent (num / den) :=
  rfl

/-- Rounding depends only on the quotient. -/
theorem round_scale (p : Precision) {k : Nat} (hk : 0 < k) (num den : Nat) :
    p.round (k * num) (k * den) = p.round num den := by
  rw [round_eq, round_eq, Nat.mul_div_mul_left _ _ hk, Nat.mul_assoc, roundQuotient_scale hk]

theorem round_eq_of_ratio (p : Precision) {num den num' den' : Nat} (hden : 0 < den)
    (hden' : 0 < den') (h : num * den' = num' * den) : p.round num den = p.round num' den' := by
  calc
    p.round num den = p.round (den' * num) (den' * den) := (round_scale p hden' num den).symm
    _ = p.round (den * num') (den * den') := by
      rw [Nat.mul_comm den' num, h, Nat.mul_comm num' den, Nat.mul_comm den' den]
    _ = p.round num' den' := round_scale p hden num' den'

theorem gridExponent_double (units : Nat) :
    double.gridExponent units = units.log2 + 1 - 53 := by
  simp [gridExponent, double]

/-- A number of the format rounds to itself. -/
theorem round_exact {units den : Nat} (h : IsBinary64 units) (hden : 0 < den) :
    double.round (units * den) den = units := by
  obtain ⟨-, hgrid⟩ := h
  have hpos : 0 < 2 ^ double.gridExponent units := Nat.two_pow_pos _
  obtain ⟨q, hq⟩ := Nat.dvd_of_mod_eq_zero hgrid
  rw [Nat.pow_eq] at hq
  rw [round_eq, Nat.mul_div_cancel _ hden]
  have hprod : units * den = q * (den * 2 ^ double.gridExponent units) := by
    calc
      units * den = 2 ^ double.gridExponent units * q * den := by rw [← hq]
      _ = q * (den * 2 ^ double.gridExponent units) := by ring
  rw [hprod, roundQuotient_exact q (Nat.mul_pos hden hpos), Nat.mul_comm]
  exact hq.symm

/-- The number of grid steps of a rounded number does not exceed the significand. -/
theorem roundQuotient_grid_le (num : Nat) {den : Nat} (hden : 0 < den) :
    roundQuotient num (den * 2 ^ double.gridExponent (num / den)) ≤ 2 ^ 53 := by
  have hlog : num / den < 2 ^ ((num / den).log2 + 1) := Nat.lt_log2_self
  have hexp : (num / den).log2 + 1 ≤ 53 + double.gridExponent (num / den) := by
    rw [gridExponent_double]
    omega
  have hlt : num / den < 2 ^ 53 * 2 ^ double.gridExponent (num / den) := by
    rw [← Nat.pow_add]
    exact Nat.lt_of_lt_of_le hlog (Nat.pow_le_pow_right (by decide) hexp)
  have hnum : num < 2 ^ 53 * (den * 2 ^ double.gridExponent (num / den)) := by
    have := (Nat.div_lt_iff_lt_mul hden).mp hlt
    calc
      num < 2 ^ 53 * 2 ^ double.gridExponent (num / den) * den := this
      _ = 2 ^ 53 * (den * 2 ^ double.gridExponent (num / den)) := by ring
  have hquot := (Nat.div_lt_iff_lt_mul
    (Nat.mul_pos hden (Nat.two_pow_pos (double.gridExponent (num / den))))).mpr hnum
  have hbound := (roundQuotient_bounds num (den * 2 ^ double.gridExponent (num / den))).2
  omega

/-- A rounded number lies on its own grid, also where rounding reached the next power of two. -/
theorem round_isBinary64 (num : Nat) {den : Nat} (hden : 0 < den)
    (hfits : double.round num den < Nat.pow 2 double.limit) :
    IsBinary64 (double.round num den) := by
  refine ⟨hfits, ?_⟩
  rw [Nat.pow_eq]
  apply Nat.mod_eq_zero_of_dvd
  rw [round_eq]
  have hle := roundQuotient_grid_le num hden
  generalize roundQuotient num (den * 2 ^ double.gridExponent (num / den)) = q at hle ⊢
  generalize double.gridExponent (num / den) = g
  rcases Nat.lt_or_eq_of_le hle with hlt | rfl
  · -- below the next power of two the grid of the result is no coarser
    have hres : q * 2 ^ g < 2 ^ (53 + g) := by
      rw [Nat.pow_add]
      exact Nat.mul_lt_mul_of_pos_right hlt (Nat.two_pow_pos g)
    have hgrid : double.gridExponent (q * 2 ^ g) ≤ g := by
      rw [gridExponent_double]
      by_cases hzero : q * 2 ^ g = 0
      · simp [hzero]
      · have := (Nat.log2_lt hzero).mpr hres
        omega
    exact Nat.dvd_trans (Nat.pow_dvd_pow 2 hgrid) (Nat.dvd_mul_left _ _)
  · rw [← Nat.pow_add, gridExponent_double, Nat.log2_two_pow]
    exact Nat.pow_dvd_pow 2 (by omega)

theorem round_small (p : Precision) {num den : Nat} (h : 2 * num < den) :
    p.round num den = 0 := by
  have hgrid : 0 < 2 ^ p.gridExponent (num / den) := Nat.two_pow_pos _
  rw [round_eq, roundQuotient_small, Nat.zero_mul]
  calc
    2 * num < den := h
    _ ≤ den * 2 ^ p.gridExponent (num / den) := Nat.le_mul_of_pos_right den hgrid

/-- Rounding loses less than half of the whole units. -/
theorem div_le_two_mul_round (num den : Nat) :
    num / den ≤ 2 * double.round num den := by
  by_cases hzero : num / den = 0
  · omega
  have hgrid : 2 ^ double.gridExponent (num / den) ≤ num / den := by
    calc
      2 ^ double.gridExponent (num / den) ≤ 2 ^ (num / den).log2 := by
        apply Nat.pow_le_pow_right (by decide)
        rw [gridExponent_double]
        omega
      _ ≤ num / den := Nat.log2_self_le hzero
  have hpos : 0 < 2 ^ double.gridExponent (num / den) := Nat.two_pow_pos _
  have hlow := (roundQuotient_bounds num (den * 2 ^ double.gridExponent (num / den))).1
  rw [← Nat.div_div_eq_div_mul] at hlow
  rw [round_eq]
  generalize roundQuotient num (den * 2 ^ double.gridExponent (num / den)) = q at hlow ⊢
  generalize 2 ^ double.gridExponent (num / den) = grid at hgrid hpos hlow ⊢
  have hsplit := Nat.div_add_mod (num / den) grid
  have hmod := Nat.mod_lt (num / den) hpos
  have hone : 1 ≤ num / den / grid := (Nat.one_le_div_iff hpos).mpr hgrid
  have hsteps : grid * (num / den / grid) ≤ q * grid := by
    rw [Nat.mul_comm]
    exact Nat.mul_le_mul_right grid hlow
  have hgrid' : grid ≤ grid * (num / den / grid) := Nat.le_mul_of_pos_right grid hone
  omega

end Precision

end Backtick
