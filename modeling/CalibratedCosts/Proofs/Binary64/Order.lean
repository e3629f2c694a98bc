import Mathlib
import CalibratedCosts.Proofs.Binary64.Rounding

/-! # Order and identity of rounded numbers

    What follows from the fact that no finite number is nearer to a fraction
    than the one it is rounded to.

    * **Order**: rounding keeps the order of fractions.  The middle of two
      numbers in the wrong order would be on the wrong side of a fraction.
    * **Identity**: a canonical pair is the only one for its magnitude, so that
      a finite number is known by its sign and its value.
-/

namespace CalibratedCosts

/-! ## Section 1: canonical pairs -/

namespace IsCanonical

variable {m m' : ℕ} {e e' : ℤ}

theorem exponent_le (h : IsCanonical m e) (h' : IsCanonical m' e')
    (heq : (m : ℚ) * 2 ^ e = m' * 2 ^ e') : e' ≤ e := by
  by_contra hlt
  -- The pair with the larger exponent is normal, and the other one is too long.
  have hbits : 0x10000000000000 ≤ m' := by
    rcases h'.2.2.2 with hbits | hmin
    · exact hbits
    · exact absurd h.2.1 (by omega)
  obtain ⟨k, hk⟩ := Int.eq_ofNat_of_zero_le (show 0 ≤ e' - e - 1 by omega)
  have hexp : e' = (k + 1 : ℕ) + e := by
    push_cast
    omega
  have hmantissa : m = m' * 2 ^ (k + 1) := by
    rw [hexp, zpow_add₀ (by norm_num : (2 : ℚ) ≠ 0), ← mul_assoc, zpow_natCast] at heq
    exact_mod_cast mul_right_cancel₀ (zpow_pos (by norm_num : (0 : ℚ) < 2) e).ne' heq
  have hlong : 0x10000000000000 * 2 ≤ m :=
    calc
      0x10000000000000 * 2 ≤ m' * 2 := Nat.mul_le_mul_right 2 hbits
      _ ≤ m' * 2 ^ (k + 1) := Nat.mul_le_mul_left m' (Nat.le_self_pow (Nat.succ_ne_zero k) 2)
      _ = m := hmantissa.symm
  exact absurd h.1 (by omega)

theorem unique (h : IsCanonical m e) (h' : IsCanonical m' e')
    (heq : (m : ℚ) * 2 ^ e = m' * 2 ^ e') : m = m' ∧ e = e' := by
  have hexp : e = e' := le_antisymm (h'.exponent_le h heq.symm) (h.exponent_le h' heq)
  subst hexp
  exact ⟨by exact_mod_cast mul_right_cancel₀ (zpow_pos (by norm_num : (0 : ℚ) < 2) e).ne' heq, rfl⟩

end IsCanonical

namespace Binary64

/-! ## Section 2: sign and value -/

/-- A finite number is known by its sign and its value. -/
theorem eq_of_toRat_eq {x y : Binary64} (hx : x.isFinite = true) (hy : y.isFinite = true)
    (hsign : x.isNegative = y.isNegative) (h : x.toRat = y.toRat) : x = y := by
  obtain ⟨negative, m, e, hcanonical, rfl⟩ := exists_eq_finite hx
  obtain ⟨negative', m', e', hcanonical', rfl⟩ := exists_eq_finite hy
  have habs := congrArg (|·|) h
  simp only [abs_toRat_finite] at habs
  obtain ⟨rfl, rfl⟩ := hcanonical.unique hcanonical' habs
  cases hsign
  rfl

/-- The sign of a value other than zero is that of the number. -/
theorem isNegative_eq_decide {x : Binary64} (hx : x.toRat ≠ 0) :
    x.isNegative = decide (x.toRat < 0) := by
  -- Only a finite number has a value that is not zero, and its sign is its own.
  cases x with
  | nan => exact absurd rfl hx
  | infinite negative => exact absurd rfl hx
  | finite negative m e h =>
    have hnonneg : (0 : ℚ) ≤ (m : ℚ) * 2 ^ e := by positivity
    cases negative with
    | false => exact (decide_eq_false hnonneg.not_gt).symm
    | true =>
      have hle : -((m : ℚ) * 2 ^ e) ≤ 0 := neg_nonpos.2 hnonneg
      exact (decide_eq_true (lt_of_le_of_ne hle hx)).symm

theorem isNegative_ofSignedRat (negativeZero : Bool) (q : ℚ) :
    (ofSignedRat negativeZero q).isNegative = if q = 0 then negativeZero else decide (q < 0) := by
  unfold ofSignedRat
  by_cases hq : q = 0
  · rw [if_pos hq, if_pos hq]
    rfl
  · rw [if_neg hq, if_neg hq]
    unfold ofMagnitude
    dsimp only
    split_ifs <;> rfl

/-- Only a zero takes the sign that is given. -/
theorem ofSignedRat_of_ne_zero {q : ℚ} (hq : q ≠ 0) (s t : Bool) :
    ofSignedRat s q = ofSignedRat t q := by
  unfold ofSignedRat
  rw [if_neg hq, if_neg hq]

theorem toRat_ofSignedRat_congr (s t : Bool) (q : ℚ) :
    (ofSignedRat s q).toRat = (ofSignedRat t q).toRat := by
  by_cases hq : q = 0
  · rw [hq, ofSignedRat_zero, ofSignedRat_zero]
    simp [signedZero, toRat]
  · rw [ofSignedRat_of_ne_zero hq s t]

/-- Rounding again with the sign that came out changes nothing. -/
theorem ofSignedRat_isNegative (negativeZero : Bool) (q : ℚ) :
    ofSignedRat (ofSignedRat negativeZero q).isNegative q = ofSignedRat negativeZero q := by
  by_cases hq : q = 0
  · rw [isNegative_ofSignedRat, if_pos hq]
  · exact ofSignedRat_of_ne_zero hq _ _

/-! ## Section 3: order -/

/-- The nearer of two points is on the side of the middle on which `p` is. -/
theorem sub_mul_middle_le_zero {a b p : ℚ} (h : |a - p| ≤ |b - p|) :
    (a - b) * (a + b - 2 * p) ≤ 0 := by
  have hsq : (a - p) ^ 2 ≤ (b - p) ^ 2 := sq_le_sq.2 h
  linarith

/-- Rounding keeps the order. -/
theorem toRat_ofSignedRat_le {p q : ℚ} (s t : Bool) (hp : |p| ≤ largest) (hq : |q| ≤ largest)
    (h : p ≤ q) : (ofSignedRat s p).toRat ≤ (ofSignedRat t q).toRat := by
  rcases h.eq_or_lt with rfl | hlt
  · exact (toRat_ofSignedRat_congr s t p).le
  · by_contra hgt
    have hsmall := sub_mul_middle_le_zero
      (abs_ofSignedRat_sub_le s hp (isFinite_ofSignedRat t hq))
    have hlarge := sub_mul_middle_le_zero
      (abs_ofSignedRat_sub_le t hq (isFinite_ofSignedRat s hp))
    -- The middle is neither above the smaller fraction nor below the larger one.
    have hproduct := mul_pos (sub_pos.2 (not_le.1 hgt)) (sub_pos.2 hlt)
    linarith

theorem toRat_ofSignedRat_nonneg {q : ℚ} (negativeZero : Bool) (hq : |q| ≤ largest) (h : 0 ≤ q) :
    0 ≤ (ofSignedRat negativeZero q).toRat := by
  have hmono := toRat_ofSignedRat_le false negativeZero (le_largest (by norm_num)) hq h
  rw [ofSignedRat_zero] at hmono
  simpa [signedZero, toRat] using hmono

end Binary64
end CalibratedCosts
