import Mathlib
import CalibratedCosts.Proofs.Binary64.Integer
import CalibratedCosts.Proofs.CostModel.Quantize

/-! # Predictions and charges agree

    A model predicts a cost in double precision, and its integer form charges
    for it in saturating 64-bit arithmetic.  Up to a cost of `2 ^ 53` neither
    rounding nor saturation shows: prediction and charge are the exact cost.

    * **Sizes**: an empty input is told from others after the conversion of its
      size as before it.
    * **Costs**: the constant and, if there is an input, the slope are at most
      the cost and hence exact.  A size that is larger than the cost may be
      rounded, but then it meets a slope of zero.
-/

namespace CalibratedCosts

open Binary64 (IsExact ofInt largest)

/-! ## Section 1: sizes in double precision -/

theorem le_largest_of_le_u64Max {n : ℕ} (h : n ≤ u64Max) : (n : ℚ) ≤ largest := by
  have hle : (n : ℚ) ≤ u64Max := by exact_mod_cast h
  apply Binary64.le_largest
  exact hle.trans (by norm_num [u64Max])

/-- Every size of 64 bits is converted. -/
theorem toDouble?_whole {size : ℕ} (h : size ≤ u64Max) :
    (Number.whole size).toDouble? = some (ofInt size) :=
  if_pos (Binary64.isFinite_ofInt (le_largest_of_le_u64Max h))

/-- Only the size zero is converted to zero. -/
theorem toRat_ofInt_eq_zero_iff {size : ℕ} (h : size ≤ u64Max) :
    (ofInt size).toRat = 0 ↔ size = 0 := by
  constructor
  · intro hzero
    by_contra hne
    have hone := Binary64.one_le_toRat_ofInt (Nat.pos_of_ne_zero hne) (le_largest_of_le_u64Max h)
    linarith
  · rintro rfl
    exact_mod_cast (Binary64.isExact_of_le (by norm_num)).toRat_ofInt

namespace CostModel

/-- The prediction for an input of 64-bit size. -/
theorem evaluate_ofInt (m : CostModel Binary64) {size : ℕ} (h : size ≤ u64Max) :
    m.evaluate (ofInt size) =
      if size = 0 then m.constParam else m.constParam + m.linParam * ofInt size := by
  have hfinite := Binary64.isFinite_ofInt (le_largest_of_le_u64Max h)
  have hvalue : (Quantity.value (ofInt size)).isFinite = true := by
    rw [value_of_isFinite hfinite]
    rfl
  have hsame : Quantity.same (ofInt size) 0 = true ↔ size = 0 :=
    (same_zero_iff hfinite).trans (toRat_ofInt_eq_zero_iff h)
  unfold evaluate
  -- The size is a finite double, so of the two tests the one on zero decides.
  by_cases hsize : size = 0
  · rw [hvalue, hsame.2 hsize, if_neg (by decide), if_pos hsize]
  · rw [hvalue, Bool.eq_false_iff.2 (mt hsame.1 hsize), if_pos (by decide), if_neg hsize]

end CostModel

/-! ## Section 2: costs in double precision -/

namespace QuantizedModel

/-- The model with its parameters in double precision. -/
def toDouble (m : QuantizedModel) (rSquared : Binary64) : CostModel Binary64 where
  constParam := ofInt m.constParam
  linParam := ofInt m.linParam
  rSquared := rSquared

variable {m : QuantizedModel} {size : ℕ}

theorem isExact_constParam (h : m.constParam + m.linParam * size ≤ 2 ^ 53) :
    IsExact m.constParam :=
  Binary64.isExact_of_le ((Nat.le_add_right _ _).trans h)

/-- The slope is exact, unless the input is empty. -/
theorem isExact_linParam (hsize : size ≠ 0) (h : m.constParam + m.linParam * size ≤ 2 ^ 53) :
    IsExact m.linParam := by
  apply Binary64.isExact_of_le
  calc
    m.linParam ≤ m.linParam * size := Nat.le_mul_of_pos_right _ (Nat.pos_of_ne_zero hsize)
    _ ≤ m.constParam + m.linParam * size := Nat.le_add_left _ _
    _ ≤ 2 ^ 53 := h

/-- The size is exact, unless there is no slope. -/
theorem isExact_size (hlin : m.linParam ≠ 0) (h : m.constParam + m.linParam * size ≤ 2 ^ 53) :
    IsExact size := by
  apply Binary64.isExact_of_le
  calc
    size ≤ m.linParam * size := Nat.le_mul_of_pos_left _ (Nat.pos_of_ne_zero hlin)
    _ ≤ m.constParam + m.linParam * size := Nat.le_add_left _ _
    _ ≤ 2 ^ 53 := h

/-- The prediction is the double precision form of the exact cost. -/
theorem evaluate_toDouble (hsize : size ≤ u64Max)
    (h : m.constParam + m.linParam * size ≤ 2 ^ 53) (rSquared : Binary64) :
    (m.toDouble rSquared).evaluate (ofInt size) =
      ofInt (m.constParam + m.linParam * size : ℕ) := by
  rw [CostModel.evaluate_ofInt _ hsize]
  by_cases hempty : size = 0
  -- The slope is not looked at, and need not be exact.
  · rw [if_pos hempty, hempty, Nat.mul_zero, Nat.add_zero]
    rfl
  -- All three integers are exact, but for the size next to a zero slope.
  · have hproduct : ofInt m.linParam * ofInt size = ofInt (m.linParam * size : ℕ) :=
      Binary64.ofInt_mul (isExact_linParam hempty h) (le_largest_of_le_u64Max hsize)
        (or_iff_not_imp_left.2 fun hlin => isExact_size hlin h)
    have hterm : IsExact (m.linParam * size) :=
      Binary64.isExact_of_le ((Nat.le_add_left _ _).trans h)
    rw [if_neg hempty]
    show ofInt m.constParam + ofInt m.linParam * ofInt size = _
    rw [hproduct, Binary64.ofInt_add (isExact_constParam h) hterm]

/-- Up to a cost of `2 ^ 53`, the prediction in double precision is exactly the
    charge, which is the exact cost.  The constant is a number of the format,
    and so is the slope unless the input is empty; the size need not be one if
    the slope is zero. -/
theorem prediction_eq_charge (hsize : size ≤ u64Max)
    (hcost : m.constParam + m.linParam * size ≤ 2 ^ 53) (rSquared : Binary64) :
    IsExact m.constParam ∧ (size ≠ 0 → IsExact m.linParam) ∧
    (m.linParam ≠ 0 → IsExact size) ∧
    ∃ (s : Binary64) (cost : ℤ),
      (Number.whole size).toDouble? = some s ∧
      m.evaluate size = .ok cost ∧ cost = m.constParam + m.linParam * size ∧
      (m.toDouble rSquared).evaluate s = ofInt cost ∧
      Quantity.value ((m.toDouble rSquared).evaluate s) = .finite cost := by
  have hexact : IsExact (m.constParam + m.linParam * size) := Binary64.isExact_of_le hcost
  have hcharge := evaluate_line hsize (hcost.trans (by decide))
  have hprediction := evaluate_toDouble hsize hcost rSquared
  refine ⟨isExact_constParam hcost, fun h => isExact_linParam h hcost,
    fun h => isExact_size h hcost, ofInt size, (m.constParam + m.linParam * size : ℕ),
    toDouble?_whole hsize, by exact_mod_cast hcharge, by push_cast; rfl, hprediction, ?_⟩
  -- The integer result is exact, hence its double has the same value.
  rw [hprediction, value_of_isFinite (Binary64.isFinite_ofInt hexact.le_largest),
    hexact.toRat_ofInt, Int.cast_natCast]

def flatAtBound : QuantizedModel := ⟨2 ^ 53, 0, by decide, Nat.zero_le _⟩

def divisorOfBound : QuantizedModel := ⟨6361, 6361, by decide, by decide⟩

/-- The largest size, which is rounded up to `2 ^ 64` and meets no slope, and an
    input whose cost is one below the bound. -/
theorem flatAtBound_divisorOfBound_agree :
    (∃ (s : Binary64) (cost : ℤ), (Number.whole u64Max).toDouble? = some s ∧
      flatAtBound.evaluate u64Max = .ok cost ∧ cost = 0x20000000000000 ∧
      Quantity.value ((flatAtBound.toDouble 0).evaluate s) = .finite cost) ∧
    ∃ (s : Binary64) (cost : ℤ), (Number.whole 1416003655830).toDouble? = some s ∧
      divisorOfBound.evaluate 1416003655830 = .ok cost ∧ cost = 0x1fffffffffffff ∧
      Quantity.value ((divisorOfBound.toDouble 0).evaluate s) = .finite cost := by
  constructor
  · obtain ⟨-, -, -, s, cost, hs, hcharge, hcost, -, hvalue⟩ :=
      @prediction_eq_charge flatAtBound u64Max le_rfl (by decide) 0
    exact ⟨s, cost, hs, hcharge, hcost, hvalue⟩
  · obtain ⟨-, -, -, s, cost, hs, hcharge, hcost, -, hvalue⟩ :=
      @prediction_eq_charge divisorOfBound 1416003655830 (by decide) (by decide) 0
    exact ⟨s, cost, hs, hcharge, hcost, hvalue⟩

/-- A cost one above the bound is a tie, and the bound is predicted for it. -/
example :
    let m : QuantizedModel := ⟨2 ^ 53, 1, by decide, by decide⟩
    m.evaluate 1 = .ok 0x20000000000001 ∧
      (m.toDouble 0).evaluate (ofInt 1) = ofInt 0x20000000000000 := by
  decide +kernel

end QuantizedModel
end CalibratedCosts
