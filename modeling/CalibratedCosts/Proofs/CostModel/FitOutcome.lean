import Mathlib
import CalibratedCosts.CostModel.Quantize
import CalibratedCosts.Proofs.CostModel.LeastSquares
import CalibratedCosts.Proofs.Outcome

/-! # What a fit comes to

    Over fractions a fit has four outcomes, which two sums over the samples
    decide: the mean cost if all samples have one size, an error if the costs
    do not grow from the first sample on, the line through the first sample,
    or the line through the origin.

    The line through the origin is not judged again.  It rises all the same, as
    a line through the first sample that rises has a sample off the axes.
-/

namespace CalibratedCosts

namespace SampleSet

/-! ## Section 1: outcomes -/

/-- The model of a line, with the share of the variance that it explains. -/
def modelOf (s : SampleSet) (const lin : ℚ) : CostModel ℚ :=
  ⟨const, lin, 1 - residualSum s.points const lin / totalSum s.points⟩

theorem mean_eq (s : SampleSet) : (s.mean : ℚ) = (s.costs.sum : ℚ) / s.costs.length := by
  unfold mean
  rw [← List.sum_eq_foldl, costs, List.length_map]
  rfl

theorem outcome_fitLine {s : SampleSet} (h : ¬ s.OneSize) (operation : Option Text) :
    (s.fitLine (α := ℚ) operation).outcome =
      if s.pinnedProducts ≤ 0 then .error (.slopeNotPositive s.pinnedSlope operation)
      else if s.first.size * s.pinnedProducts ≤ s.first.cost * s.pinnedSquares then
        .ok (s.modelOf s.pinnedIntercept s.pinnedSlope)
      else .ok (s.modelOf 0 s.originSlope) := by
  have hpinned := fitQuality_eq_ok (@residualSum_pinned_eq_zero s)
  unfold fitLine
  simp only [pinnedLine_eq, slopeThroughOrigin_points, Traced.outcome_bind,
    Traced.outcome_ofExcept, hpinned, Except.bind]
  by_cases hslope : s.pinnedProducts ≤ 0
  · have hflat : Quantity.less 0 s.pinnedSlope = false := by
      rw [← Bool.not_eq_true, Quantity.less_iff, pinnedSlope_pos_iff h]
      exact hslope.not_gt
    rw [hflat, if_pos hslope]
    rfl
  · have hrises : Quantity.less 0 s.pinnedSlope = true :=
      Quantity.less_iff.2 ((pinnedSlope_pos_iff h).2 (not_le.1 hslope))
    rw [hrises, if_neg hslope]
    by_cases hintercept : s.first.size * s.pinnedProducts ≤ s.first.cost * s.pinnedSquares
    · have habove : Quantity.less s.pinnedIntercept 0 = false := by
        rw [← Bool.not_eq_true, Quantity.less_iff, pinnedIntercept_neg_iff h]
        exact hintercept.not_gt
      rw [habove, if_pos hintercept]
      rfl
    · have hbelow : Quantity.less s.pinnedIntercept 0 = true :=
        Quantity.less_iff.2 ((pinnedIntercept_neg_iff h).2 (not_le.1 hintercept))
      -- Costs that grow have a variance, so that the new line has a quality.
      have hrefitted : fitQuality s.points 0 s.originSlope =
          .ok (1 - residualSum s.points 0 s.originSlope / totalSum s.points) :=
        fitQuality_eq_ok fun htotal =>
          absurd (pinnedProducts_eq_zero_of_totalSum htotal).le hslope
      rw [hbelow, if_neg hintercept, hrefitted]
      rfl

theorem outcome_fit (s : SampleSet) (operation : Option Text) :
    (s.fit (α := ℚ) operation).outcome =
      if s.hasOneSize then .ok ⟨s.mean, 0, 0⟩ else (s.fitLine operation).outcome := by
  unfold fit
  cases s.hasOneSize with
  | true => rfl
  | false => cases s.isSorted <;> rfl

theorem outcome_fit_of_oneSize {s : SampleSet} (h : s.OneSize) (operation : Option Text) :
    (s.fit (α := ℚ) operation).outcome = .ok ⟨s.mean, 0, 0⟩ := by
  rw [outcome_fit, if_pos (hasOneSize_iff.2 h)]

/-- With several sizes, two sums decide between the error and the two lines. -/
theorem outcome_fit_of_severalSizes {s : SampleSet} (h : ¬ s.OneSize)
    (operation : Option Text) :
    (s.fit (α := ℚ) operation).outcome =
      if s.pinnedProducts ≤ 0 then .error (.slopeNotPositive s.pinnedSlope operation)
      else if s.first.size * s.pinnedProducts ≤ s.first.cost * s.pinnedSquares then
        .ok (s.modelOf s.pinnedIntercept s.pinnedSlope)
      else .ok (s.modelOf 0 s.originSlope) := by
  rw [outcome_fit, if_neg (mt hasOneSize_iff.1 h), outcome_fitLine h]

/-- A model that is returned is that of the mean, of the line through the first
    sample, or of the line through the origin. -/
theorem fit_eq_ok_cases {s : SampleSet} {operation : Option Text} {m : CostModel ℚ}
    (h : (s.fit operation).outcome = .ok m) :
    s.OneSize ∧ m = ⟨s.mean, 0, 0⟩ ∨
    ¬ s.OneSize ∧ 0 < s.pinnedProducts ∧
      (0 ≤ s.pinnedIntercept ∧ m = s.modelOf s.pinnedIntercept s.pinnedSlope ∨
        s.pinnedIntercept < 0 ∧ m = s.modelOf 0 s.originSlope) := by
  -- The model of the error is not fixed by the outcome, so the three branches
  -- are read off the closed form.
  by_cases hsize : s.OneSize
  · rw [outcome_fit_of_oneSize hsize] at h
    exact .inl ⟨hsize, (Except.ok.inj h).symm⟩
  · rw [outcome_fit_of_severalSizes hsize] at h
    split_ifs at h with hslope hintercept
    · refine .inr ⟨hsize, not_le.1 hslope, .inl ⟨not_lt.1 fun hneg => ?_, (Except.ok.inj h).symm⟩⟩
      exact ((pinnedIntercept_neg_iff hsize).1 hneg).not_ge hintercept
    · exact .inr ⟨hsize, not_le.1 hslope, .inr
        ⟨(pinnedIntercept_neg_iff hsize).2 (not_le.1 hintercept), (Except.ok.inj h).symm⟩⟩

theorem originSlope_pos {s : SampleSet} (h : ¬ s.OneSize) (hproducts : 0 < s.pinnedProducts) :
    0 < s.originSlope :=
  div_pos (originProducts_pos_of_pinned hproducts) (originSquares_pos h)

theorem mean_nonneg (s : SampleSet) : 0 ≤ (s.mean : ℚ) := by
  rw [mean_eq]
  positivity

/-- No parameter is negative, and a slope of zero is that of one size. -/
theorem parameters_of_fit {s : SampleSet} {operation : Option Text} {m : CostModel ℚ}
    (h : (s.fit operation).outcome = .ok m) :
    0 ≤ m.constParam ∧ 0 ≤ m.linParam ∧ (m.linParam = 0 ↔ s.OneSize) := by
  rcases fit_eq_ok_cases h with
    ⟨hsize, rfl⟩ | ⟨hsize, hproducts, ⟨hintercept, rfl⟩ | ⟨-, rfl⟩⟩
  · exact ⟨s.mean_nonneg, le_rfl, iff_of_true rfl hsize⟩
  · have hslope := (pinnedSlope_pos_iff hsize).2 hproducts
    exact ⟨hintercept, hslope.le, iff_of_false hslope.ne' hsize⟩
  · have hslope := originSlope_pos hsize hproducts
    exact ⟨le_rfl, hslope.le, iff_of_false hslope.ne' hsize⟩

end SampleSet

/-! ## Section 2: quantizing -/

/-- A parameter that is not negative is refused for its size alone. -/
theorem quantizeParameter_of_nonneg {x : ℚ} (hx : 0 ≤ x) (parameter : String) :
    quantizeParameter parameter x =
      if h : (nearestTenth x).ceil.toNat ≤ u64Max then .ok ⟨_, h⟩
      else .error (.parameterTooLarge parameter x) := by
  have hless : Quantity.less x 0 = false := by
    rw [← Bool.not_eq_true, Quantity.less_iff]
    exact hx.not_gt
  unfold quantizeParameter
  rw [hless]
  rfl

theorem CostModel.outcome_quantize (m : CostModel ℚ) :
    m.quantize.outcome =
      (quantizeParameter "const_param" m.constParam).bind fun const =>
        (quantizeParameter "lin_param" m.linParam).map (.ofParameters const) := by
  unfold CostModel.quantize
  rw [Traced.outcome_bind, Traced.outcome_ofExcept]
  cases quantizeParameter "const_param" m.constParam with
  | error e => rfl
  | ok const =>
    cases quantizeParameter "lin_param" m.linParam with
    | error e => simp [Except.bind, Except.map]
    | ok lin => simp [Except.bind, Except.map]

/-- Quantizing fails with the fault of a parameter. -/
theorem CostModel.error_of_quantize {m : CostModel ℚ} {e : CostModelError ℚ}
    (h : m.quantize.outcome = .error e) :
    quantizeParameter "const_param" m.constParam = .error e ∨
      quantizeParameter "lin_param" m.linParam = .error e := by
  rw [outcome_quantize] at h
  -- `const_param` is quantized first: its error hides what `lin_param` would
  -- have given.
  cases hconst : quantizeParameter "const_param" m.constParam with
  | error e' =>
    rw [hconst] at h
    exact .inl (congrArg Except.error (Except.error.inj h))
  | ok const =>
    cases hlin : quantizeParameter "lin_param" m.linParam with
    | error e' =>
      rw [hconst, hlin] at h
      exact .inr (congrArg Except.error (Except.error.inj h))
    | ok lin =>
      rw [hconst, hlin] at h
      cases h

theorem CostModel.quantize_ne_negativeParameter {m : CostModel ℚ} (hconst : 0 ≤ m.constParam)
    (hlin : 0 ≤ m.linParam) (parameter : String) (value : ℚ) :
    m.quantize.outcome ≠ .error (.negativeParameter parameter value) := by
  intro hfailed
  rcases error_of_quantize hfailed with hparameter | hparameter
  · rw [quantizeParameter_of_nonneg hconst] at hparameter
    split_ifs at hparameter with hle
    cases hparameter
  · rw [quantizeParameter_of_nonneg hlin] at hparameter
    split_ifs at hparameter with hle
    cases hparameter

/-! ## Section 3: the outcome in sums -/

namespace SampleSet

/-- The outcome of a fit, by the sums over the samples.  With one size it is
    the mean cost.  With several sizes it is an error exactly if the products
    from the first sample sum up to nothing positive.  Else it is the line
    through the first sample, unless that line starts below zero, and then it
    is the line through the origin, which rises.  No parameter of a model is
    negative, and quantizing never finds one that is. -/
theorem fit_outcomes (s : SampleSet) (operation : Option Text) :
    (s.OneSize → (s.fit operation).outcome = .ok ⟨(s.costs.sum : ℚ) / s.costs.length, 0, 0⟩) ∧
    (¬ s.OneSize → 0 < s.pinnedSquares ∧
      (∀ e : CostModelError ℚ, (s.fit operation).outcome = .error e ↔
        s.pinnedProducts ≤ 0 ∧
          e = .slopeNotPositive (s.pinnedProducts / s.pinnedSquares) operation) ∧
      (0 < s.pinnedProducts →
        s.first.size * s.pinnedProducts ≤ s.first.cost * s.pinnedSquares →
        ∃ quality, (s.fit operation).outcome = .ok
          ⟨s.first.cost - s.first.size * s.pinnedProducts / s.pinnedSquares,
            s.pinnedProducts / s.pinnedSquares, quality⟩) ∧
      (0 < s.pinnedProducts →
        s.first.cost * s.pinnedSquares < s.first.size * s.pinnedProducts →
        0 < s.originSquares ∧ 0 < s.originProducts / s.originSquares ∧
        ∃ quality, (s.fit operation).outcome = .ok
          ⟨0, s.originProducts / s.originSquares, quality⟩)) ∧
    ∀ m : CostModel ℚ, (s.fit operation).outcome = .ok m →
      0 ≤ m.constParam ∧ 0 ≤ m.linParam ∧ (m.linParam = 0 ↔ s.OneSize) ∧
      ∀ parameter value, m.quantize.outcome ≠ .error (.negativeParameter parameter value) := by
  refine ⟨fun hsize => ?_, fun hsize => ?_, fun m hm => ?_⟩
  -- One size: the mean of the costs.
  · rw [outcome_fit, if_pos (hasOneSize_iff.2 hsize), mean_eq]
  -- Several sizes: the sign of the products decides on an error, then the sign
  -- of the intercept on the refit.
  · rw [outcome_fit, if_neg (mt hasOneSize_iff.1 hsize), outcome_fitLine hsize]
    refine ⟨pinnedSquares_pos hsize, fun e => ?_, fun hproducts hintercept => ?_,
      fun hproducts hintercept => ?_⟩
    · by_cases hproducts : s.pinnedProducts ≤ 0
      · simp [hproducts, pinnedSlope, eq_comm]
      · rw [if_neg hproducts]
        split_ifs <;> simp [hproducts]
    · rw [if_neg hproducts.not_ge, if_pos hintercept, ← pinnedIntercept_eq]
      exact ⟨_, rfl⟩
    · rw [if_neg hproducts.not_ge, if_neg hintercept.not_ge]
      exact ⟨originSquares_pos hsize, originSlope_pos hsize hproducts, _, rfl⟩
  -- The parameters of a fit are not negative, so only the upper bound can stop
  -- the quantization.
  · obtain ⟨hconst, hlin, hzero⟩ := parameters_of_fit hm
    exact ⟨hconst, hlin, hzero, m.quantize_ne_negativeParameter hconst hlin⟩

end SampleSet
end CalibratedCosts
