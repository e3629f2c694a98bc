import Mathlib
import CalibratedCosts.Numeral.Quantity
import CalibratedCosts.Proofs.Numeral.Rounding

/-! # Tenths

    The nearest tenth of a fraction is half a tenth off at most, does not pass
    an integer, and is an integer itself only if the fraction is close to one.
    It grows with the fraction, and what comes closer to it keeps it.  Its
    ceiling is found by counting tenths.
-/

namespace CalibratedCosts

/-! ## Section 1: the nearest tenth -/

/-- The tenth is within half a tenth. -/
theorem abs_nearestTenth_sub_le (q : ℚ) : |nearestTenth q - q| ≤ 1 / 20 := by
  have hhalf := abs_nearestInteger_sub_le (10 * q)
  have hscale : nearestTenth q - q = ((nearestInteger (10 * q) : ℚ) - 10 * q) / 10 := by
    unfold nearestTenth
    ring
  rw [hscale, abs_div, abs_of_pos (by norm_num : (0 : ℚ) < 10)]
  linarith

@[simp] theorem nearestTenth_intCast (n : ℤ) : nearestTenth n = n := by
  have hten : (10 : ℚ) * n = ((10 * n : ℤ) : ℚ) := by push_cast; ring
  unfold nearestTenth
  rw [hten, nearestInteger_intCast]
  push_cast
  ring

/-- An integer bound on a fraction bounds its tenth. -/
theorem nearestTenth_le {q : ℚ} {n : ℤ} (h : q ≤ n) : nearestTenth q ≤ n := by
  have hten : nearestInteger (10 * q) ≤ n * 10 := by
    apply nearestInteger_le
    push_cast
    linarith
  unfold nearestTenth
  rw [div_le_iff₀ (by norm_num)]
  exact_mod_cast hten

theorem le_nearestTenth {q : ℚ} {n : ℤ} (h : (n : ℚ) ≤ q) : (n : ℚ) ≤ nearestTenth q := by
  have hten : n * 10 ≤ nearestInteger (10 * q) := by
    apply le_nearestInteger
    push_cast
    linarith
  unfold nearestTenth
  rw [le_div_iff₀ (by norm_num)]
  exact_mod_cast hten

theorem nearestTenth_nonneg {q : ℚ} (h : 0 ≤ q) : 0 ≤ nearestTenth q := by
  have hzero : ((0 : ℤ) : ℚ) ≤ nearestTenth q := le_nearestTenth (by exact_mod_cast h)
  exact_mod_cast hzero

theorem nearestTenth_neg (q : ℚ) : nearestTenth (-q) = -nearestTenth q := by
  unfold nearestTenth
  rw [mul_neg, nearestInteger_neg, Int.cast_neg, neg_div]

theorem nearestTenth_mono {p q : ℚ} (h : p ≤ q) : nearestTenth p ≤ nearestTenth q := by
  have hten : (nearestInteger (10 * p) : ℚ) ≤ nearestInteger (10 * q) := by
    exact_mod_cast nearestInteger_mono (mul_le_mul_of_nonneg_left h (by norm_num))
  exact div_le_div_of_nonneg_right hten (by norm_num)

/-- A fraction that is no farther from a tenth than what was rounded to it has
    the same tenth. -/
theorem nearestTenth_eq_of_abs_sub_le {p q : ℚ}
    (h : |p - nearestTenth q| ≤ |q - nearestTenth q|) : nearestTenth p = nearestTenth q := by
  -- Distances are compared on the scale of tenths.
  have hscale : ∀ r : ℚ, |(nearestInteger (10 * q) : ℚ) - 10 * r| = 10 * |r - nearestTenth q| := by
    intro r
    have hten : (nearestInteger (10 * q) : ℚ) - 10 * r = 10 * (nearestTenth q - r) := by
      unfold nearestTenth
      ring
    rw [hten, abs_mul, abs_sub_comm r, abs_of_pos (by norm_num : (0 : ℚ) < 10)]
  have hnear : IsNearestEven (nearestInteger (10 * q)) (10 * p) := by
    apply (isNearestEven_nearestInteger (10 * q)).of_abs_sub_le
    rw [hscale, hscale]
    exact mul_le_mul_of_nonneg_left h (by norm_num)
  unfold nearestTenth
  rw [(isNearestEven_nearestInteger (10 * p)).unique hnear]

/-! ## Section 2: its ceiling -/

theorem ceil_nearestTenth_nonneg {q : ℚ} (h : 0 ≤ q) : 0 ≤ (nearestTenth q).ceil := by
  exact_mod_cast (nearestTenth_nonneg h).trans Rat.le_ceil

@[simp] theorem ceil_nearestTenth_natCast (n : ℕ) : (nearestTenth (n : ℚ)).ceil = n := by
  rw [← Int.cast_natCast, nearestTenth_intCast, Rat.ceil_intCast]

/-- The ceiling of a tenth, counted in tenths. -/
theorem tenths_ceil_bounds (q : ℚ) :
    10 * ((nearestTenth q).ceil - 1) < nearestInteger (10 * q) ∧
    nearestInteger (10 * q) ≤ 10 * (nearestTenth q).ceil := by
  have hlow : (((nearestTenth q).ceil - 1 : ℤ) : ℚ) < nearestTenth q :=
    Rat.lt_ceil_iff.1 (by omega)
  have hhigh : nearestTenth q ≤ (nearestTenth q).ceil := Rat.le_ceil
  generalize (nearestTenth q).ceil = n at hlow hhigh ⊢
  unfold nearestTenth at hlow hhigh
  rw [lt_div_iff₀ (by norm_num)] at hlow
  rw [div_le_iff₀ (by norm_num)] at hhigh
  have hlow' : (n - 1) * 10 < nearestInteger (10 * q) := by exact_mod_cast hlow
  have hhigh' : nearestInteger (10 * q) ≤ n * 10 := by exact_mod_cast hhigh
  omega

/-- Tenths are rounded up to an integer in integer arithmetic. -/
theorem ceil_nearestTenth (q : ℚ) : (nearestTenth q).ceil = (nearestInteger (10 * q) + 9) / 10 := by
  have hbounds := tenths_ceil_bounds q
  omega

/-- The tenth is at most half a tenth off, and the ceiling adds at most nine
    tenths. -/
theorem ceil_nearestTenth_bounds (q : ℚ) :
    q - 1 / 20 ≤ (nearestTenth q).ceil ∧ ((nearestTenth q).ceil : ℚ) ≤ q + 19 / 20 := by
  have hhalf := abs_nearestTenth_sub_le q
  have hceil : nearestTenth q ≤ (nearestTenth q).ceil := Rat.le_ceil
  have hbounds := (tenths_ceil_bounds q).1
  have hcast : (10 : ℚ) * (nearestTenth q).ceil ≤ nearestInteger (10 * q) + 9 := by
    have hint : 10 * (nearestTenth q).ceil ≤ nearestInteger (10 * q) + 9 := by omega
    exact_mod_cast hint
  have htenths : nearestTenth q = (nearestInteger (10 * q) : ℚ) / 10 := rfl
  rw [abs_le] at hhalf
  constructor <;> linarith

/-- A fraction within half a tenth of a tenth that is no integer has the
    ceiling of the tenth. -/
theorem ceil_eq_of_abs_sub_le {q y : ℚ} (hmod : nearestInteger (10 * q) % 10 ≠ 0)
    (hy : |y - nearestTenth q| ≤ 1 / 20) : y.ceil = (nearestTenth q).ceil := by
  obtain ⟨hlow, hhigh⟩ := tenths_ceil_bounds q
  generalize (nearestTenth q).ceil = n at hlow hhigh ⊢
  unfold nearestTenth at hy
  generalize nearestInteger (10 * q) = d at hmod hlow hhigh hy
  -- The tenth is no integer, so its ceiling is off by one tenth at least.
  have hlow' : (10 : ℚ) * (n - 1) + 1 ≤ d := by
    have hint : 10 * (n - 1) + 1 ≤ d := by omega
    exact_mod_cast hint
  have hhigh' : (d : ℚ) ≤ 10 * n - 1 := by
    have hint : d ≤ 10 * n - 1 := by omega
    exact_mod_cast hint
  rw [abs_le] at hy
  apply le_antisymm
  · exact Rat.ceil_le_iff.2 (by linarith)
  · have hlt : n - 1 < y.ceil := by
      apply Rat.lt_ceil_iff.2
      push_cast
      linarith
    omega

end CalibratedCosts
