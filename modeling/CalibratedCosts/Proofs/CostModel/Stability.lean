import Mathlib
import CalibratedCosts.Proofs.Binary64.Decimal
import CalibratedCosts.Proofs.Binary64.Integer
import CalibratedCosts.Proofs.CostModel.Quantize

/-! # Rounding to a tenth is stable

    A parameter is rounded to a tenth and the tenth is read back as a double,
    which is not a tenth in general.  It is no farther from the tenth than the
    parameter was, and so it has the same tenth: rounding it again gives the
    same double.

    * **Projection**: rounding twice is rounding once, and the order is kept.
    * **Large numbers**: from `2 ^ 49` on doubles are an eighth apart or more,
      while rounding moves a number by a tenth at most.  So from `2 ^ 50` on it
      moves none.
    * **Quantizing**: a rounded parameter is quantized to the integer of the
      parameter, and that integer to itself.
-/

namespace CalibratedCosts

open Binary64 (IsExact ofInt ofSignedRat InRange)

variable {x y : Binary64}

/-! ## Section 1: the rounded number -/

theorem isFinite_roundToTenth (hx : x.isFinite = true) :
    (Quantity.roundToTenth x).isFinite = true := by
  rw [roundToTenth_of_isFinite hx]
  exact Binary64.isFinite_ofSignedRat _ x.abs_nearestTenth_le_largest

/-- The rounded number is no farther from the tenth. -/
theorem abs_roundToTenth_sub_le (hx : x.isFinite = true) :
    |(Quantity.roundToTenth x).toRat - nearestTenth x.toRat| ≤ |x.toRat - nearestTenth x.toRat| := by
  rw [roundToTenth_of_isFinite hx]
  exact Binary64.abs_ofSignedRat_sub_le _ x.abs_nearestTenth_le_largest hx

theorem nearestTenth_roundToTenth (hx : x.isFinite = true) :
    nearestTenth (Quantity.roundToTenth x).toRat = nearestTenth x.toRat :=
  nearestTenth_eq_of_abs_sub_le (abs_roundToTenth_sub_le hx)

theorem roundToTenth_roundToTenth (hx : x.isFinite = true) :
    Quantity.roundToTenth (Quantity.roundToTenth x) = Quantity.roundToTenth x := by
  -- The tenth is the same, and a zero keeps the sign that it was rounded to.
  rw [roundToTenth_of_isFinite (isFinite_roundToTenth hx), nearestTenth_roundToTenth hx,
    roundToTenth_of_isFinite hx, Binary64.ofSignedRat_isNegative]

theorem toRat_roundToTenth_le (hx : x.isFinite = true) (hy : y.isFinite = true)
    (h : x.toRat ≤ y.toRat) :
    (Quantity.roundToTenth x).toRat ≤ (Quantity.roundToTenth y).toRat := by
  rw [roundToTenth_of_isFinite hx, roundToTenth_of_isFinite hy]
  exact Binary64.toRat_ofSignedRat_le _ _ x.abs_nearestTenth_le_largest
    y.abs_nearestTenth_le_largest (nearestTenth_mono h)

/-! ## Section 2: large numbers -/

/-- Rounding moves a number by a tenth at most: half to the tenth, and half to
    the double that is read back. -/
theorem abs_roundToTenth_sub_self_le (hx : x.isFinite = true) :
    |(Quantity.roundToTenth x).toRat - x.toRat| ≤ 1 / 10 := by
  have hread := abs_roundToTenth_sub_le hx
  have htenth := abs_nearestTenth_sub_le x.toRat
  rw [abs_sub_comm] at htenth
  have htriangle := abs_sub_le (Quantity.roundToTenth x).toRat (nearestTenth x.toRat) x.toRat
  rw [abs_sub_comm (nearestTenth x.toRat)] at htriangle
  linarith

/-- Two eighths that are a tenth apart at most are the same. -/
theorem toRat_eq_of_near (hx : 2 ^ 49 ≤ |x.toRat|) (hy : 2 ^ 49 ≤ |y.toRat|)
    (h : |x.toRat - y.toRat| ≤ 1 / 10) : x.toRat = y.toRat := by
  -- From `2 ^ 49` on, doubles are multiples of 1/8, and two of them closer than
  -- that are one.
  have hbits : (2 : ℚ) ^ ((-3 : ℤ) + 52) = 2 ^ 49 := by norm_num
  have hunit : (2 : ℚ) ^ (-3 : ℤ) = 1 / 8 := by norm_num
  obtain ⟨n, hn⟩ := Binary64.exists_toRat_eq_mul_zpow (hbits.trans_le hx)
  obtain ⟨k, hk⟩ := Binary64.exists_toRat_eq_mul_zpow (hbits.trans_le hy)
  rw [hn, hk, hunit] at h ⊢
  have hclose : |(n : ℚ) - k| < 1 := by
    rw [← sub_mul, abs_mul, abs_of_pos (by norm_num : (0 : ℚ) < 1 / 8)] at h
    linarith
  have hsame : n - k = 0 := Int.abs_lt_one_iff.1 (by exact_mod_cast hclose)
  rw [sub_eq_zero.1 hsame]

theorem roundToTenth_of_large (hx : x.isFinite = true) (h : 2 ^ 50 ≤ |x.toRat|) :
    Quantity.roundToTenth x = x := by
  have hnear := abs_roundToTenth_sub_self_le hx
  have hlarge : 2 ^ 49 ≤ |(Quantity.roundToTenth x).toRat| := by
    have hdistance := abs_sub_abs_le_abs_sub x.toRat (Quantity.roundToTenth x).toRat
    rw [abs_sub_comm] at hdistance
    linarith
  have hvalue : (Quantity.roundToTenth x).toRat = x.toRat :=
    toRat_eq_of_near hlarge (by linarith) hnear
  have hne : x.toRat ≠ 0 := by
    intro hzero
    rw [hzero, abs_zero] at h
    norm_num at h
  -- The value is not zero and so gives the sign.
  apply Binary64.eq_of_toRat_eq (isFinite_roundToTenth hx) hx _ hvalue
  rw [Binary64.isNegative_eq_decide (by rwa [hvalue]), Binary64.isNegative_eq_decide hne, hvalue]

/-! ## Section 3: quantizing again -/

theorem toRat_roundToTenth_nonneg (hx : x.isFinite = true) (h : 0 ≤ x.toRat) :
    0 ≤ (Quantity.roundToTenth x).toRat := by
  rw [roundToTenth_of_isFinite hx]
  exact Binary64.toRat_ofSignedRat_nonneg _ x.abs_nearestTenth_le_largest (nearestTenth_nonneg h)

/-- A rounded parameter is quantized like the parameter. -/
theorem quantizeParameter_roundToTenth (hx : x.isFinite = true) (hnonneg : 0 ≤ x.toRat)
    (parameter : String) :
    quantizeParameter parameter (Quantity.roundToTenth x) = quantizeParameter parameter x := by
  by_cases hlarge : 2 ^ 50 ≤ |x.toRat|
  -- Also a parameter that is refused stays as it is, and the error shows it.
  · rw [roundToTenth_of_large hx hlarge]
  · rw [abs_of_nonneg hnonneg, not_le] at hlarge
    have hnear := (abs_le.1 (abs_roundToTenth_sub_self_le hx)).2
    obtain ⟨n, hn, hceil⟩ := quantizeParameter_eq_ok parameter
      (InRange.mk hx hnonneg (hlarge.trans (by norm_num)))
    obtain ⟨k, hk, hceil'⟩ := quantizeParameter_eq_ok parameter
      (InRange.mk (isFinite_roundToTenth hx) (toRat_roundToTenth_nonneg hx hnonneg) (by linarith))
    rw [nearestTenth_roundToTenth hx, ← hceil] at hceil'
    rw [hn, hk, Subtype.ext (show k.1 = n.1 by exact_mod_cast hceil')]

variable {n : { n : ℕ // n ≤ u64Max }} {parameter : String}

/-- What a double is quantized to is a number of the format. -/
theorem isExact_of_quantizeParameter (hx : x.isFinite = true)
    (h : quantizeParameter parameter x = .ok n) : IsExact n.1 := by
  have hceil := ceil_of_quantizeParameter hx h
  by_cases hlarge : 0x1fffffffffffff < |x.toRat|
  -- The parameter is an integer and not changed.
  · obtain ⟨k, hk⟩ := Binary64.toRat_eq_intCast hlarge
    rw [hk, nearestTenth_intCast, Rat.ceil_intCast] at hceil
    exact ⟨x, hx, by rw [hk, ← hceil, Int.cast_natCast]⟩
  -- The integers in reach have 53 bits.
  · have htenth := (le_abs_self _).trans (Binary64.abs_nearestTenth_le (not_lt.1 hlarge))
    have hle : (nearestTenth x.toRat).ceil ≤ 0x1fffffffffffff :=
      Rat.ceil_le_iff.2 (by exact_mod_cast htenth)
    exact Binary64.isExact_of_le (by omega)

theorem quantizeParameter_ofInt (h : IsExact n.1) (parameter : String) :
    quantizeParameter parameter (ofInt n.1) = .ok n := by
  have hmax : (n.1 : ℚ) < 0x10000000000000000 := by
    have hlt : n.1 < 0x10000000000000000 := Nat.lt_succ_of_le n.2
    exact_mod_cast hlt
  obtain ⟨k, hk, hceil⟩ := quantizeParameter_eq_ok parameter
    (InRange.mk (Binary64.isFinite_ofInt h.le_largest) (by rw [h.toRat_ofInt]; positivity)
      (by rwa [h.toRat_ofInt]))
  rw [h.toRat_ofInt, ceil_nearestTenth_natCast] at hceil
  rw [hk, Subtype.ext (show k.1 = n.1 by exact_mod_cast hceil)]

/-- Rounding to a tenth, which is writing a number with one digit after the
    point and reading it back, is a projection of the finite numbers that keeps
    their order and leaves those from `2 ^ 50` on alone.  So a parameter that
    was rounded before is quantized as if it had not been, and one that was
    quantized before keeps its integer. -/
theorem roundToTenth_stable (hx : x.isFinite = true) (hy : y.isFinite = true)
    (parameter : String) :
    Binary64.ofText? (x.fixed 1) = some (Quantity.roundToTenth x) ∧
    (Quantity.roundToTenth x).isFinite = true ∧
    Quantity.roundToTenth (Quantity.roundToTenth x) = Quantity.roundToTenth x ∧
    (x.toRat ≤ y.toRat → (Quantity.roundToTenth x).toRat ≤ (Quantity.roundToTenth y).toRat) ∧
    (2 ^ 50 ≤ |x.toRat| → Quantity.roundToTenth x = x) ∧
    (0 ≤ x.toRat →
      quantizeParameter parameter (Quantity.roundToTenth x) = quantizeParameter parameter x) ∧
    ∀ n, quantizeParameter parameter x = .ok n →
      quantizeParameter parameter (ofInt n.1) = .ok n := by
  refine ⟨x.ofText?_fixed_one, isFinite_roundToTenth hx, roundToTenth_roundToTenth hx,
    toRat_roundToTenth_le hx hy, roundToTenth_of_large hx, fun hnonneg => ?_, fun n hn => ?_⟩
  · exact quantizeParameter_roundToTenth hx hnonneg parameter
  · exact quantizeParameter_ofInt (isExact_of_quantizeParameter hx hn) parameter

/-- A quarter is a tie between two tenths, and goes to the double next to two
    of them. -/
example :
    Quantity.roundToTenth (Binary64.finite false 0x10000000000000 (-54) (by decide)) =
      Binary64.finite false 0x1999999999999a (-55) (by decide) := by
  decide +kernel

def threeQuartersAbove : Binary64 := .finite false 0x10000000000003 (-2) (by decide)

def oneAbove : Binary64 := .finite false 0x10000000000004 (-2) (by decide)

/-- A tie between two tenths of which none is a double, and the next number. -/
theorem threeQuartersAbove_stable :
    threeQuartersAbove.isFinite = true ∧ oneAbove.isFinite = true ∧
    Quantity.roundToTenth (Quantity.roundToTenth threeQuartersAbove) =
      Quantity.roundToTenth threeQuartersAbove ∧
    (Quantity.roundToTenth threeQuartersAbove).toRat ≤ (Quantity.roundToTenth oneAbove).toRat ∧
    Quantity.roundToTenth threeQuartersAbove = threeQuartersAbove ∧
    quantizeParameter "const_param" (Quantity.roundToTenth threeQuartersAbove) =
      quantizeParameter "const_param" threeQuartersAbove ∧
    ∃ n, quantizeParameter "const_param" threeQuartersAbove = .ok n ∧
      quantizeParameter "const_param" (ofInt n.1) = .ok n := by
  have hvalue : threeQuartersAbove.toRat = 0x10000000000003 / 4 := by
    norm_num [threeQuartersAbove, Binary64.toRat]
  have hnext : oneAbove.toRat = 0x10000000000004 / 4 := by
    norm_num [oneAbove, Binary64.toRat]
  have hnonneg : 0 ≤ threeQuartersAbove.toRat := by rw [hvalue]; norm_num
  obtain ⟨-, -, htwice, hmono, hlarge, hagain, hinteger⟩ :=
    @roundToTenth_stable threeQuartersAbove oneAbove rfl rfl "const_param"
  obtain ⟨n, hn, -⟩ := quantizeParameter_eq_ok (x := threeQuartersAbove) "const_param"
    (InRange.mk rfl hnonneg (by rw [hvalue]; norm_num))
  refine ⟨rfl, rfl, htwice, hmono (by rw [hvalue, hnext]; norm_num), hlarge ?_, hagain hnonneg,
    n, hn, hinteger n hn⟩
  rw [abs_of_nonneg hnonneg, hvalue]
  norm_num

end CalibratedCosts
