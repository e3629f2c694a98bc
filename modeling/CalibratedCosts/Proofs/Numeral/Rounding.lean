import Mathlib
import CalibratedCosts.Proofs.Numeral.NearestEven

/-! # Rounding to integers and magnitudes

    No integer is nearer to a fraction than the one it is rounded to, and the
    binary magnitude is the exponent of the power of two at or below it.
-/

namespace CalibratedCosts

/-! ## Section 1: nearest integer -/

theorem abs_nearestInteger_sub_le (q : ℚ) : |(nearestInteger q : ℚ) - q| ≤ 1 / 2 :=
  (isNearestEven_nearestInteger q).near

/-- No integer is nearer. -/
theorem abs_nearestInteger_sub_le_abs_sub (q : ℚ) (n : ℤ) :
    |(nearestInteger q : ℚ) - q| ≤ |(n : ℚ) - q| := by
  have hhalf := abs_nearestInteger_sub_le q
  by_cases h : n = nearestInteger q
  · rw [h]
  -- Two integers are at least one apart, and the nearest is within a half.
  · have hne : nearestInteger q - n ≠ 0 := sub_ne_zero.2 (Ne.symm h)
    have hgap : (1 : ℚ) ≤ |(nearestInteger q : ℚ) - n| := by
      exact_mod_cast Int.one_le_abs hne
    have htriangle : |(nearestInteger q : ℚ) - n| ≤ |(nearestInteger q : ℚ) - q| + |q - n| :=
      abs_sub_le _ _ _
    rw [abs_sub_comm q] at htriangle
    linarith

@[simp] theorem nearestInteger_intCast (n : ℤ) : nearestInteger (n : ℚ) = n :=
  (isNearestEven_nearestInteger n).unique (IsNearestEven.intCast n)

/-- An integer below the fraction is below what it is rounded to. -/
theorem le_nearestInteger {q : ℚ} {n : ℤ} (h : (n : ℚ) ≤ q) : n ≤ nearestInteger q := by
  have hmono := nearestInteger_mono h
  rwa [nearestInteger_intCast] at hmono

theorem nearestInteger_le {q : ℚ} {n : ℤ} (h : q ≤ n) : nearestInteger q ≤ n := by
  have hmono := nearestInteger_mono h
  rwa [nearestInteger_intCast] at hmono

/-! ## Section 2: binary magnitude -/

/-- A natural number lies between the powers of two that its bit length
    gives. -/
theorem pow_log2_le_and_lt {n : ℕ} (hn : n ≠ 0) :
    (2 : ℚ) ^ (n.log2 : ℤ) ≤ n ∧ (n : ℚ) < 2 ^ ((n.log2 : ℤ) + 1) := by
  constructor
  · rw [zpow_natCast]
    exact_mod_cast Nat.log2_self_le hn
  · have hlt : n < 2 ^ (n.log2 + 1) := Nat.lt_log2_self
    have hcast : ((n.log2 : ℤ) + 1) = ((n.log2 + 1 : ℕ) : ℤ) := by push_cast; rfl
    rw [hcast, zpow_natCast]
    exact_mod_cast hlt

theorem binaryMagnitude_spec {q : ℚ} (hq : 0 < q) :
    (2 : ℚ) ^ binaryMagnitude q ≤ q ∧ q < 2 ^ (binaryMagnitude q + 1) := by
  have hnum : 0 < q.num := Rat.num_pos.2 hq
  have habs : q.num.natAbs ≠ 0 := Int.natAbs_ne_zero.2 hnum.ne'
  obtain ⟨hnlow, hnhigh⟩ := pow_log2_le_and_lt habs
  obtain ⟨hdlow, hdhigh⟩ := pow_log2_le_and_lt q.den_nz
  have hden : (0 : ℚ) < q.den := by exact_mod_cast q.den_pos
  have hnat : ((q.num.natAbs : ℕ) : ℚ) = q * q.den := by
    have hcast : ((q.num.natAbs : ℤ) : ℚ) = (q.num : ℚ) :=
      congrArg (fun z : ℤ => (z : ℚ)) (Int.natAbs_of_nonneg hnum.le)
    rw [Int.cast_natCast] at hcast
    rw [hcast, Rat.mul_den_eq_num]
  rw [hnat] at hnlow hnhigh
  set a : ℤ := (q.num.natAbs.log2 : ℤ) with ha
  set b : ℤ := (q.den.log2 : ℤ) with hb
  have htwo : (2 : ℚ) ≠ 0 := by norm_num
  -- The bit lengths leave two candidates.
  have hupper : q < 2 ^ (a - b + 1) := by
    have hle : q * 2 ^ b ≤ q * q.den := mul_le_mul_of_nonneg_left hdlow hq.le
    have hlt : q * 2 ^ b < 2 ^ (a - b + 1) * 2 ^ b := by
      rw [← zpow_add₀ htwo]
      have hexp : a - b + 1 + b = a + 1 := by ring
      rw [hexp]
      exact lt_of_le_of_lt hle hnhigh
    exact lt_of_mul_lt_mul_right hlt (zpow_pos (by norm_num) b).le
  have hlower : 2 ^ (a - b - 1) ≤ q := by
    have hle : q * q.den ≤ q * 2 ^ (b + 1) := mul_le_mul_of_nonneg_left hdhigh.le hq.le
    have hlt : (2 : ℚ) ^ (a - b - 1) * 2 ^ (b + 1) ≤ q * 2 ^ (b + 1) := by
      rw [← zpow_add₀ htwo]
      have hexp : a - b - 1 + (b + 1) = a := by ring
      rw [hexp]
      exact hnlow.trans hle
    exact le_of_mul_le_mul_right hlt (zpow_pos (by norm_num) _)
  have hdef : binaryMagnitude q = if (2 : ℚ) ^ (a - b) ≤ q then a - b else a - b - 1 := rfl
  by_cases h : (2 : ℚ) ^ (a - b) ≤ q
  · rw [hdef, if_pos h]
    exact ⟨h, hupper⟩
  · rw [hdef, if_neg h, sub_add_cancel]
    exact ⟨hlower, not_le.1 h⟩

end CalibratedCosts
