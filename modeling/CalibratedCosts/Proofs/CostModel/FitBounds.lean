import Mathlib
import CalibratedCosts.Proofs.CostModel.FitOutcome
import CalibratedCosts.Proofs.Numeral.Tenth

/-! # A fit can be stored

    No parameter of a fitted model is above the largest cost.  For the mean
    and for an intercept this is plain.  A slope is a quotient of sums, and as
    sizes are integers, a distance between two of them is at most its square:
    each product in the upper sum is at most the largest cost times the square
    in the lower one.

    Rounding to tenths and taking a ceiling does not pass an integer, so that
    the quantized parameters have the same bound.
-/

namespace CalibratedCosts
namespace SampleSet

variable {s : SampleSet} {bound : ℕ}

/-! ## Section 1: parameters -/

/-- A product of integers is at most a bound on the one times the square of
    the other. -/
theorem mul_le_bound_mul_sq {k c : ℤ} (h : |c| ≤ bound) : k * c ≤ bound * k ^ 2 := by
  have hsquare : |k| ≤ k ^ 2 := by
    rw [← sq_abs]
    exact Int.le_self_sq |k|
  calc k * c ≤ |k| * |c| := by rw [← abs_mul]; exact le_abs_self _
    _ ≤ k ^ 2 * bound := mul_le_mul hsquare h (abs_nonneg c) (sq_nonneg k)
    _ = bound * k ^ 2 := mul_comm _ _

theorem productsFrom_le {x y : ℕ} (h : ∀ t ∈ s.toList, |(t.cost : ℤ) - y| ≤ bound) :
    s.productsFrom x y ≤ bound * s.squaresFrom x := by
  unfold productsFrom squaresFrom
  rw [← List.sum_map_mul_left]
  apply List.sum_le_sum
  intro t ht
  exact_mod_cast mul_le_bound_mul_sq (k := (t.size : ℤ) - x) (h t ht)

theorem slope_le {x y : ℕ} (h : ∀ t ∈ s.toList, |(t.cost : ℤ) - y| ≤ bound) :
    s.productsFrom x y / s.squaresFrom x ≤ bound :=
  div_le_of_le_mul₀ (sum_map_sq_nonneg _ _) (Nat.cast_nonneg bound) (productsFrom_le h)

theorem pinnedSlope_le (h : ∀ t ∈ s.toList, t.cost ≤ bound) : s.pinnedSlope ≤ bound := by
  apply slope_le
  intro t ht
  have hcost := h t ht
  have hfirst := h s.first List.mem_cons_self
  exact abs_sub_le_of_nonneg_of_le (by omega) (by omega) (by omega) (by omega)

theorem originSlope_le (h : ∀ t ∈ s.toList, t.cost ≤ bound) : s.originSlope ≤ bound := by
  have hcosts : ∀ t ∈ s.toList, |(t.cost : ℤ) - (0 : ℕ)| ≤ bound := by
    intro t ht
    rw [Nat.cast_zero, sub_zero, Nat.abs_cast]
    exact_mod_cast h t ht
  exact_mod_cast slope_le (x := 0) hcosts

theorem mean_le (h : ∀ t ∈ s.toList, t.cost ≤ bound) : (s.mean : ℚ) ≤ bound := by
  have hsum : s.costs.sum ≤ s.costs.length • bound :=
    List.sum_le_card_nsmul _ _ (List.forall_mem_map.2 h)
  rw [mean_eq]
  apply div_le_of_le_mul₀ (Nat.cast_nonneg _) (Nat.cast_nonneg _)
  rw [smul_eq_mul, mul_comm] at hsum
  exact_mod_cast hsum

/-- A line that rises to the first sample starts below it. -/
theorem pinnedIntercept_le (h : ∀ t ∈ s.toList, t.cost ≤ bound) (hslope : 0 ≤ s.pinnedSlope) :
    s.pinnedIntercept ≤ bound := by
  have hfirst : (s.first.cost : ℚ) ≤ bound := by exact_mod_cast h s.first List.mem_cons_self
  have hrise : 0 ≤ s.pinnedSlope * s.first.size := mul_nonneg hslope (Nat.cast_nonneg _)
  unfold pinnedIntercept
  linarith

/-- A bound on the costs bounds both parameters of a fitted model. -/
theorem parameters_le_of_fit {operation : Option Text} {m : CostModel ℚ}
    (hfit : (s.fit operation).outcome = .ok m) (h : ∀ t ∈ s.toList, t.cost ≤ bound) :
    m.constParam ≤ bound ∧ m.linParam ≤ bound := by
  have hzero : (0 : ℚ) ≤ bound := Nat.cast_nonneg bound
  rcases fit_eq_ok_cases hfit with
    ⟨-, rfl⟩ | ⟨hsize, hproducts, ⟨-, rfl⟩ | ⟨-, rfl⟩⟩
  · exact ⟨mean_le h, hzero⟩
  · have hslope := (pinnedSlope_pos_iff hsize).2 hproducts
    exact ⟨pinnedIntercept_le h hslope.le, pinnedSlope_le h⟩
  · exact ⟨hzero, originSlope_le h⟩

end SampleSet

/-! ## Section 2: quantized parameters -/

/-- An integer bound on a parameter is one on its quantized form. -/
theorem exists_quantizeParameter_le {x : ℚ} {bound : ℕ} (hx : 0 ≤ x) (hle : x ≤ bound)
    (hbound : bound ≤ u64Max) (parameter : String) :
    ∃ n, quantizeParameter parameter x = .ok n ∧ n.1 ≤ bound := by
  have hceil : (nearestTenth x).ceil ≤ bound :=
    Rat.ceil_le_iff.2 (nearestTenth_le (by exact_mod_cast hle))
  have hnat : (nearestTenth x).ceil.toNat ≤ bound := Int.toNat_le.2 hceil
  rw [quantizeParameter_of_nonneg hx, dif_pos (hnat.trans hbound)]
  exact ⟨_, rfl, hnat⟩

theorem CostModel.exists_quantize_le {m : CostModel ℚ} {bound : ℕ} (hbound : bound ≤ u64Max)
    (hconst : 0 ≤ m.constParam) (hlin : 0 ≤ m.linParam) (hconstLe : m.constParam ≤ bound)
    (hlinLe : m.linParam ≤ bound) :
    ∃ quantized, m.quantize.outcome = .ok quantized ∧
      quantized.constParam ≤ bound ∧ quantized.linParam ≤ bound := by
  obtain ⟨const, hc, hcle⟩ := exists_quantizeParameter_le hconst hconstLe hbound "const_param"
  obtain ⟨lin, hl, hlle⟩ := exists_quantizeParameter_le hlin hlinLe hbound "lin_param"
  refine ⟨.ofParameters const lin, ?_, hcle, hlle⟩
  rw [outcome_quantize, hc, hl]
  rfl

/-! ## Section 3: the largest cost -/

namespace SampleSet

theorem exists_largest (s : SampleSet) : ∃ largest, s.costs.max? = some largest ∧
    largest ≤ u64Max ∧ ∀ t ∈ s.toList, t.cost ≤ largest := by
  obtain ⟨largest, hlargest⟩ :=
    Option.isSome_iff_exists.1 (List.isSome_max?_of_ne_nil (l := s.costs) (List.cons_ne_nil _ _))
  obtain ⟨hmem, hle⟩ := List.max?_eq_some_iff.1 hlargest
  obtain ⟨t, -, rfl⟩ := List.mem_map.1 hmem
  exact ⟨t.cost, hlargest, t.cost_le, List.forall_mem_map.1 hle⟩

/-- A fit that is accepted can be stored: its parameters lie between zero and
    the largest cost, and so do the quantized ones, which exist. -/
theorem fit_storable {s : SampleSet} {operation : Option Text} {m : CostModel ℚ}
    (h : (s.fit operation).outcome = .ok m) :
    ∃ largest, s.costs.max? = some largest ∧
      0 ≤ m.constParam ∧ m.constParam ≤ largest ∧ 0 ≤ m.linParam ∧ m.linParam ≤ largest ∧
      ∃ quantized, m.quantize.outcome = .ok quantized ∧
        quantized.constParam ≤ largest ∧ quantized.linParam ≤ largest := by
  obtain ⟨largest, hmax, hlargest, hall⟩ := s.exists_largest
  obtain ⟨hconst, hlin, -⟩ := parameters_of_fit h
  obtain ⟨hconstLe, hlinLe⟩ := parameters_le_of_fit h hall
  exact ⟨largest, hmax, hconst, hconstLe, hlin, hlinLe,
    m.exists_quantize_le hlargest hconst hlin hconstLe hlinLe⟩

def steepCosts : SampleSet :=
  ⟨⟨6, 10, by decide, by decide⟩, [⟨8, 40, by decide, by decide⟩]⟩

/-- The line through the origin with the slope `19 / 5`. -/
theorem steepCosts_storable :
    (steepCosts.fit none).outcome = .ok (CostModel.mk (0 : ℚ) (19 / 5) (97 / 225)) ∧
    ∃ largest, steepCosts.costs.max? = some largest ∧
      (0 : ℚ) ≤ 0 ∧ (0 : ℚ) ≤ largest ∧ (0 : ℚ) ≤ 19 / 5 ∧ (19 / 5 : ℚ) ≤ largest ∧
      ∃ quantized,
        (CostModel.mk (0 : ℚ) (19 / 5) (97 / 225)).quantize.outcome = .ok quantized ∧
        quantized.constParam ≤ largest ∧ quantized.linParam ≤ largest := by
  have hfit : (steepCosts.fit none).outcome = .ok (CostModel.mk (0 : ℚ) (19 / 5) (97 / 225)) := by
    cbv
  exact ⟨hfit, fit_storable hfit⟩

end SampleSet
end CalibratedCosts
