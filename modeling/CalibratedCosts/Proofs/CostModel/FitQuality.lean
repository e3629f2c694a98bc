import Mathlib
import CalibratedCosts.Proofs.CostModel.FitOutcome

/-! # A fit has a quality

    The share of the variance that a line explains is undefined only where
    there is no variance and the line is off some sample.  A fit asks for it
    twice, and gets it both times:

    * **Before the slope is judged**: without variance the line through the
      first sample is flat and leaves nothing over.
    * **After a refit**: a rising slope needs costs that differ, so that there
      is variance.

    A line explains all of the variance exactly if no sample is off it.
-/

namespace CalibratedCosts
namespace SampleSet

variable {s : SampleSet}

/-! ## Section 1: where a quality is asked for -/

/-- A slope other than zero needs variance. -/
theorem totalSum_ne_zero_of_slope (h : s.pinnedSlope ≠ 0) : totalSum (α := ℚ) s.points ≠ 0 := by
  intro htotal
  apply h
  unfold pinnedSlope
  rw [pinnedProducts_eq_zero_of_totalSum htotal, zero_div]

theorem outcome_fit_ne_fitQualityUndefined (operation : Option Text) (residual : ℚ) :
    (s.fit operation).outcome ≠ .error (.fitQualityUndefined residual) := by
  by_cases hsize : s.OneSize
  · rw [outcome_fit_of_oneSize hsize]
    intro h
    cases h
  · rw [outcome_fit_of_severalSizes hsize]
    -- The one error left is for the slope.
    split_ifs <;> (intro h; cases h)

theorem outcome_fit_of_flat (hsize : ¬ s.OneSize) (h : ∀ t ∈ s.toList, t.cost = s.first.cost)
    (operation : Option Text) :
    (s.fit (α := ℚ) operation).outcome = .error (.slopeNotPositive 0 operation) := by
  have hproducts := pinnedProducts_eq_zero_of_flat h
  rw [outcome_fit_of_severalSizes hsize, if_pos hproducts.le]
  unfold pinnedSlope
  rw [hproducts, zero_div]

/-! ## Section 2: the largest quality -/

/-- With variance, the quality is at most one, and one only for a line that
    leaves nothing over. -/
theorem rSquared_modelOf {const lin : ℚ} (h : totalSum (α := ℚ) s.points ≠ 0) :
    (s.modelOf const lin).rSquared ≤ 1 ∧
      ((s.modelOf const lin).rSquared = 1 ↔
        ∀ t ∈ s.toList, (t.cost : ℚ) = const + lin * t.size) := by
  -- Both sums are sums of squares, so the quality is 1 less a quotient that is
  -- not negative.
  have hresidual : 0 ≤ residualSum s.points const lin := by
    rw [residualSum_eq]
    exact sum_map_sq_nonneg _ _
  have htotal : 0 ≤ totalSum (α := ℚ) s.points := by
    rw [totalSum_eq]
    exact sum_map_sq_nonneg _ _
  constructor
  · exact sub_le_self _ (div_nonneg hresidual htotal)
  · have hquotient : residualSum s.points const lin / totalSum s.points = 0 ↔
        residualSum s.points const lin = 0 := by
      rw [div_eq_zero_iff, or_iff_left h]
    rw [← residualSum_eq_zero_iff, ← hquotient]
    exact sub_eq_self

/-- The quality of a fit is defined wherever it is asked for, before the slope
    is judged and after a refit, so that it is never the cause of an error, and
    flat costs of several sizes are an error for their slope.  A fitted line
    with a slope has a quality of at most one, and of one exactly if every
    sample lies on it. -/
theorem fit_quality_defined (s : SampleSet) (operation : Option Text) :
    (∀ residual : ℚ, (s.fit operation).outcome ≠ .error (.fitQualityUndefined residual)) ∧
    (∃ quality : ℚ, fitQuality s.points s.pinnedLine.2 s.pinnedLine.1 = .ok quality) ∧
    (0 < (s.pinnedLine (α := ℚ)).1 →
      ∃ quality : ℚ, fitQuality s.points 0 (Numerics.slopeThroughOrigin s.points) = .ok quality) ∧
    (¬ s.OneSize → (∀ t ∈ s.toList, t.cost = s.first.cost) →
      (s.fit (α := ℚ) operation).outcome = .error (.slopeNotPositive 0 operation)) ∧
    ∀ m : CostModel ℚ, (s.fit operation).outcome = .ok m → m.linParam ≠ 0 →
      m.rSquared ≤ 1 ∧
      (m.rSquared = 1 ↔ ∀ t ∈ s.toList, (t.cost : ℚ) = m.constParam + m.linParam * t.size) := by
  rw [pinnedLine_eq]
  refine ⟨outcome_fit_ne_fitQualityUndefined operation,
    ⟨_, fitQuality_eq_ok residualSum_pinned_eq_zero⟩, fun hslope => ?_,
    fun hsize hflat => outcome_fit_of_flat hsize hflat operation, fun m hm hlin => ?_⟩
  -- With a positive slope the costs are not all equal, so the refit divides by
  -- no zero.
  · exact ⟨_, fitQuality_eq_ok fun htotal =>
      absurd htotal (totalSum_ne_zero_of_slope hslope.ne')⟩
  -- Of the three ways to fit, the first has slope 0 and is excluded.
  · rcases fit_eq_ok_cases hm with
      ⟨-, rfl⟩ | ⟨hsize, hproducts, ⟨-, rfl⟩ | ⟨-, rfl⟩⟩
    · exact absurd rfl hlin
    · exact rSquared_modelOf (totalSum_ne_zero_of_slope hlin)
    · exact rSquared_modelOf
        (totalSum_ne_zero_of_slope ((pinnedSlope_pos_iff hsize).2 hproducts).ne')

end SampleSet
end CalibratedCosts
