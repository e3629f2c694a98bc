import Mathlib
import CalibratedCosts.CostModel.Quantize
import CalibratedCosts.Proofs.Binary64.Rounding
import CalibratedCosts.Proofs.CostModel.Charge
import CalibratedCosts.Proofs.Numeral.Tenth

/-! # Conservative charges

    Quantizing rounds a parameter to a tenth, reads the tenth back as a double
    and takes its ceiling.  The double is not the tenth, but it is at least as
    near to it as the parameter was, so that the ceiling is the ceiling of the
    tenth.  From there on everything is an integer: each parameter is off by
    at most `19 / 20` above and `1 / 20` below, and the charge by as much for
    each unit of size.
-/

namespace CalibratedCosts

/-! ## Section 1: the ceiling of a rounded parameter -/

namespace Binary64

variable {x : Binary64}

/-- A number of more than 53 bits is an integer and its own tenth. -/
theorem nearestTenth_toRat_of_large (h : 0x1fffffffffffff < |x.toRat|) :
    nearestTenth x.toRat = x.toRat := by
  obtain ⟨k, hk⟩ := toRat_eq_intCast h
  rw [hk, nearestTenth_intCast]

theorem abs_nearestTenth_le (h : |x.toRat| ≤ 0x1fffffffffffff) :
    |nearestTenth x.toRat| ≤ 0x1fffffffffffff := by
  obtain ⟨hlow, hhigh⟩ := abs_le.1 h
  have hlow' : ((-0x1fffffffffffff : ℤ) : ℚ) ≤ nearestTenth x.toRat :=
    le_nearestTenth (by exact_mod_cast hlow)
  have hhigh' : nearestTenth x.toRat ≤ ((0x1fffffffffffff : ℤ) : ℚ) :=
    nearestTenth_le (by exact_mod_cast hhigh)
  exact abs_le.2 ⟨by exact_mod_cast hlow', by exact_mod_cast hhigh'⟩

/-- The tenth of a number is within the format. -/
theorem abs_nearestTenth_le_largest (x : Binary64) : |nearestTenth x.toRat| ≤ largest := by
  by_cases hlarge : 0x1fffffffffffff < |x.toRat|
  · rw [nearestTenth_toRat_of_large hlarge]
    exact x.abs_toRat_le_largest
  · apply le_largest
    have hle := abs_nearestTenth_le (not_lt.1 hlarge)
    linarith

/-- The tenth read back as a double has the ceiling of the tenth. -/
theorem ceil_ofSignedRat_nearestTenth (hx : x.isFinite = true) (negativeZero : Bool) :
    (ofSignedRat negativeZero (nearestTenth x.toRat)).toRat.ceil = (nearestTenth x.toRat).ceil := by
  by_cases hlarge : 0x1fffffffffffff < |x.toRat|
  · rw [nearestTenth_toRat_of_large hlarge, toRat_ofSignedRat_toRat negativeZero hx]
  · by_cases hmod : nearestInteger (10 * x.toRat) % 10 = 0
    -- A tenth that is an integer is read back without error.
    · have htenth : nearestTenth x.toRat = ((nearestInteger (10 * x.toRat) / 10 : ℤ) : ℚ) := by
        unfold nearestTenth
        rw [Int.cast_div (Int.dvd_of_emod_eq_zero hmod) (by norm_num)]
        norm_num
      have hle := abs_nearestTenth_le (not_lt.1 hlarge)
      rw [htenth] at hle ⊢
      rw [toRat_ofSignedRat_intCast negativeZero]
      have hint : |nearestInteger (10 * x.toRat) / 10| ≤ 0x1fffffffffffff := by exact_mod_cast hle
      omega
    -- Else it is off by less than what there is up to the next integer.
    · apply ceil_eq_of_abs_sub_le hmod
      have hnear := abs_ofSignedRat_sub_le negativeZero x.abs_nearestTenth_le_largest hx
      have hhalf := abs_nearestTenth_sub_le x.toRat
      rw [abs_sub_comm] at hhalf
      exact hnear.trans hhalf

/-- The ceiling of the tenth is a 64-bit unsigned integer if the number is
    below the first integer that is not. -/
theorem ceil_nearestTenth_le_u64Max_iff (hnonneg : 0 ≤ x.toRat) :
    (nearestTenth x.toRat).ceil ≤ u64Max ↔ x.toRat < 0x10000000000000000 := by
  -- Beyond `2 ^ 53` a double is an integer and its own tenth; below, the tenth
  -- is far from the bound.
  by_cases hlarge : 0x1fffffffffffff < |x.toRat|
  · obtain ⟨k, hk⟩ := toRat_eq_intCast hlarge
    have hmax : (u64Max : ℤ) = 0xffffffffffffffff := rfl
    rw [hk, nearestTenth_intCast, Rat.ceil_intCast, hmax]
    have hcast : (k : ℚ) < 0x10000000000000000 ↔ k < 0x10000000000000000 := by norm_cast
    rw [hcast]
    omega
  · have hle := not_lt.1 hlarge
    rw [abs_of_nonneg hnonneg] at hle
    have htenth := (le_abs_self _).trans (abs_nearestTenth_le (not_lt.1 hlarge))
    refine iff_of_true (Rat.ceil_le_iff.2 (htenth.trans ?_)) (hle.trans_lt (by norm_num))
    unfold u64Max
    norm_num

end Binary64

/-! ## Section 2: quantized parameters -/

theorem value_of_isFinite {x : Binary64} (h : x.isFinite = true) :
    Quantity.value x = .finite x.toRat := by
  obtain ⟨negative, m, e, hcanonical, rfl⟩ := Binary64.exists_eq_finite h
  rfl

theorem roundToTenth_of_isFinite {x : Binary64} (h : x.isFinite = true) :
    Quantity.roundToTenth x = Binary64.ofSignedRat x.isNegative (nearestTenth x.toRat) := by
  obtain ⟨negative, m, e, hcanonical, rfl⟩ := Binary64.exists_eq_finite h
  rfl

theorem ceiling_roundToTenth {x : Binary64} (hx : x.isFinite = true) :
    Quantity.ceiling (Quantity.roundToTenth x) = (nearestTenth x.toRat).ceil := by
  have hfinite := Binary64.isFinite_ofSignedRat x.isNegative x.abs_nearestTenth_le_largest
  rw [roundToTenth_of_isFinite hx]
  unfold Quantity.ceiling
  rw [value_of_isFinite hfinite]
  exact Binary64.ceil_ofSignedRat_nearestTenth hx x.isNegative

theorem value_zero : Quantity.value (0 : Binary64) = .finite 0 := by
  show Extended.finite (Binary64.toRat (Binary64.signedZero false)) = .finite 0
  simp [Binary64.signedZero, Binary64.toRat]

theorem less_zero_iff {x : Binary64} (hx : x.isFinite = true) :
    Quantity.less x 0 = true ↔ x.toRat < 0 := by
  unfold Quantity.less
  rw [value_of_isFinite hx, value_zero]
  exact decide_eq_true_iff

theorem same_zero_iff {x : Binary64} (hx : x.isFinite = true) :
    Quantity.same x 0 = true ↔ x.toRat = 0 := by
  unfold Quantity.same
  rw [value_of_isFinite hx, value_zero]
  exact decide_eq_true_iff

/-- What becomes of a finite parameter. -/
theorem quantizeParameter_of_isFinite {x : Binary64} (hx : x.isFinite = true)
    (parameter : String) :
    quantizeParameter parameter x =
      if x.toRat < 0 then .error (.negativeParameter parameter x)
      else if h : (nearestTenth x.toRat).ceil.toNat ≤ u64Max then .ok ⟨_, h⟩
      else .error (.parameterTooLarge parameter x) := by
  have hfinite : (Quantity.value x).isFinite = true := by rw [value_of_isFinite hx]; rfl
  unfold quantizeParameter
  simp only [hfinite, less_zero_iff hx, ceiling_roundToTenth hx]
  simp

/-- What is accepted is the ceiling of the tenth. -/
theorem ceil_of_quantizeParameter {x : Binary64} (hx : x.isFinite = true) {parameter : String}
    {n : { n : ℕ // n ≤ u64Max }} (h : quantizeParameter parameter x = .ok n) :
    (n.1 : ℤ) = (nearestTenth x.toRat).ceil := by
  rw [quantizeParameter_of_isFinite hx] at h
  split_ifs at h with hnegative hfits
  rw [← Except.ok.inj h]
  exact Int.toNat_of_nonneg (ceil_nearestTenth_nonneg (not_lt.1 hnegative))

namespace Binary64

/-- A finite number from zero up to and without `2 ^ 64`. -/
structure InRange (x : Binary64) : Prop where
  finite : x.isFinite = true
  nonneg : 0 ≤ x.toRat
  lt : x.toRat < 0x10000000000000000

end Binary64

open Binary64 (InRange)

/-- A parameter in range is quantized to the ceiling of its tenth. -/
theorem quantizeParameter_eq_ok {x : Binary64} (parameter : String) (hx : x.InRange) :
    ∃ n, quantizeParameter parameter x = .ok n ∧ (n.1 : ℤ) = (nearestTenth x.toRat).ceil := by
  have hle : (nearestTenth x.toRat).ceil.toNat ≤ u64Max :=
    Int.toNat_le.2 ((Binary64.ceil_nearestTenth_le_u64Max_iff hx.nonneg).2 hx.lt)
  refine ⟨⟨_, hle⟩, ?_, Int.toNat_of_nonneg (ceil_nearestTenth_nonneg hx.nonneg)⟩
  rw [quantizeParameter_of_isFinite hx.finite, if_neg hx.nonneg.not_gt, dif_pos hle]

/-- Quantizing a model in range takes the ceilings of both tenths. -/
theorem CostModel.quantize_eq_ok {m : CostModel Binary64} (hconst : m.constParam.InRange)
    (hlin : m.linParam.InRange) :
    ∃ quantized : QuantizedModel, m.quantize.outcome = .ok quantized ∧
      (quantized.constParam : ℤ) = (nearestTenth m.constParam.toRat).ceil ∧
      (quantized.linParam : ℤ) = (nearestTenth m.linParam.toRat).ceil := by
  obtain ⟨const, hc, hconstCeil⟩ := quantizeParameter_eq_ok "const_param" hconst
  obtain ⟨lin, hl, hlinCeil⟩ := quantizeParameter_eq_ok "lin_param" hlin
  refine ⟨.ofParameters const lin, ?_, hconstCeil, hlinCeil⟩
  unfold CostModel.quantize
  simp [hc, hl, Except.bind]

/-! ## Section 3: charges -/

/-- The cost that the parameters predict, without rounding. -/
def CostModel.exactCost (m : CostModel Binary64) (size : ℕ) : ℚ :=
  m.constParam.toRat + m.linParam.toRat * size

/-- The cost that the parameters rounded to tenths predict. -/
def CostModel.tenthCost (m : CostModel Binary64) (size : ℕ) : ℚ :=
  nearestTenth m.constParam.toRat + nearestTenth m.linParam.toRat * size

/-- Charges are conservative: a charge is not below what the rounded model
    predicts and differs from the exact cost only by the rounding of the two
    parameters, up to the largest charge. -/
theorem CostModel.charge_conservative {m : CostModel Binary64} {size : ℕ}
    (hconst : m.constParam.InRange) (hlin : m.linParam.InRange) (hsize : size ≤ u64Max) :
    ∃ (quantized : QuantizedModel) (cost : ℤ),
      m.quantize.outcome = .ok quantized ∧ quantized.evaluate size = .ok cost ∧
      min (u64Max : ℚ) (m.exactCost size - (1 + size) / 20) ≤ cost ∧
      (cost : ℚ) ≤ m.exactCost size + 19 * (1 + size) / 20 ∧
      min (u64Max : ℚ) (m.tenthCost size) ≤ cost := by
  obtain ⟨quantized, hquantize, hc, hl⟩ := m.quantize_eq_ok hconst hlin
  have hmem : 0 ≤ (size : ℤ) ∧ (size : ℤ) ≤ u64Max := by omega
  refine ⟨quantized, quantized.charge size, hquantize, quantized.evaluate_of_mem hmem, ?_⟩
  have hcharge : (quantized.charge size : ℚ) =
      min (((nearestTenth m.constParam.toRat).ceil : ℚ) +
        ((nearestTenth m.linParam.toRat).ceil : ℚ) * size) (u64Max : ℚ) := by
    rw [quantized.charge_eq, hc, hl]
    push_cast
    rfl
  obtain ⟨hconstLow, hconstHigh⟩ := ceil_nearestTenth_bounds m.constParam.toRat
  obtain ⟨hlinLow, hlinHigh⟩ := ceil_nearestTenth_bounds m.linParam.toRat
  have hconstCeil := Rat.le_ceil (x := nearestTenth m.constParam.toRat)
  have hlinCeil := Rat.le_ceil (x := nearestTenth m.linParam.toRat)
  -- Each bound on the slope holds for every unit of size.
  have hscale : (0 : ℚ) ≤ size := Nat.cast_nonneg size
  have hlow := mul_le_mul_of_nonneg_right hlinLow hscale
  have hhigh := mul_le_mul_of_nonneg_right hlinHigh hscale
  have htenth := mul_le_mul_of_nonneg_right hlinCeil hscale
  rw [hcharge]
  unfold CostModel.exactCost CostModel.tenthCost
  refine ⟨?_, ?_, ?_⟩
  · rw [min_comm]
    apply min_le_min_right
    linarith
  · apply (min_le_left _ _).trans
    linarith
  · rw [min_comm]
    apply min_le_min_right
    linarith

/-- A quarter, which is a tie between two tenths, and the double nearest to a
    tenth. -/
def quarterAndTenth : CostModel Binary64 where
  constParam := .finite false 0x10000000000000 (-54) (by decide)
  linParam := .finite false 0x1999999999999a (-56) (by decide)
  rSquared := 0

/-- A charge of 11 for an exact cost just above `1.25`. -/
theorem quarterAndTenth_charge_conservative :
    ∃ (quantized : QuantizedModel) (cost : ℤ),
      quarterAndTenth.quantize.outcome = .ok quantized ∧ quantized.evaluate 10 = .ok cost ∧
      min (u64Max : ℚ) (quarterAndTenth.exactCost 10 - (1 + 10) / 20) ≤ cost ∧
      (cost : ℚ) ≤ quarterAndTenth.exactCost 10 + 19 * (1 + 10) / 20 ∧
      min (u64Max : ℚ) (quarterAndTenth.tenthCost 10) ≤ cost := by
  have hconst : quarterAndTenth.constParam.InRange :=
    ⟨rfl, by norm_num [quarterAndTenth, Binary64.toRat],
      by norm_num [quarterAndTenth, Binary64.toRat]⟩
  have hlin : quarterAndTenth.linParam.InRange :=
    ⟨rfl, by norm_num [quarterAndTenth, Binary64.toRat],
      by norm_num [quarterAndTenth, Binary64.toRat]⟩
  exact_mod_cast @CostModel.charge_conservative quarterAndTenth 10 hconst hlin (by decide)

end CalibratedCosts
