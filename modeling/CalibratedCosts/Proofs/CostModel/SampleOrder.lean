import Mathlib
import CalibratedCosts.Proofs.CostModel.FitOutcome

/-! # Only the place of the first sample matters

    A fit sees the samples through the first one and through sums over all of
    them.

    * **Reordering**: a sum does not depend on the order of its terms, so the
      samples after the first one may come in any order.
    * **Repeating the first sample**: as seen from the first sample, a copy of
      it adds nothing to the products and the squares.  The line through the
      first sample stays, though its quality does not, for the mean cost moves.
-/

namespace CalibratedCosts

/-! ## Section 1: copies in a list -/

/-- The second list is the first one with copies of `a` put in anywhere. -/
inductive WithCopies {α : Type} (a : α) : List α → List α → Prop where
  | nil : WithCopies a [] []
  | keep (b : α) {l l' : List α} (h : WithCopies a l l') : WithCopies a (b :: l) (b :: l')
  | copy {l l' : List α} (h : WithCopies a l l') : WithCopies a l (a :: l')

namespace WithCopies

variable {α : Type} {a b : α} {l l' : List α}

theorem sublist (h : WithCopies a l l') : l.Sublist l' := by
  induction h with
  | nil => exact List.Sublist.slnil
  | keep b _ ih => exact ih.cons_cons b
  | copy _ ih => exact ih.cons a

/-- Nothing but the copied element is added. -/
theorem eq_or_mem (h : WithCopies a l l') (hb : b ∈ l') : b = a ∨ b ∈ l := by
  induction h with
  | nil => exact .inr hb
  | keep c _ ih =>
    rcases List.mem_cons.1 hb with rfl | hb
    · exact .inr List.mem_cons_self
    · exact (ih hb).imp_right (List.mem_cons_of_mem c)
  | copy _ ih =>
    rcases List.mem_cons.1 hb with rfl | hb
    · exact .inl rfl
    · exact ih hb

theorem mem_iff (h : WithCopies a l l') (ha : a ∈ l) : b ∈ l' ↔ b ∈ l := by
  constructor
  · intro hb
    rcases h.eq_or_mem hb with rfl | hb
    · exact ha
    · exact hb
  · intro hb
    exact h.sublist.subset hb

/-- A copy in front of the first element is the first element. -/
theorem head_eq (h : WithCopies a (a :: l) (b :: l')) : b = a := by
  cases h with
  | keep => rfl
  | copy => rfl

/-- Copies whose term is zero leave a sum as it is. -/
theorem sum_map_eq (h : WithCopies a l l') {f : α → ℚ} (ha : f a = 0) :
    (l'.map f).sum = (l.map f).sum := by
  induction h with
  | nil => rfl
  | keep b _ ih => rw [List.map_cons, List.map_cons, List.sum_cons, List.sum_cons, ih]
  | copy _ ih => rw [List.map_cons, List.sum_cons, ha, zero_add, ih]

end WithCopies

/-- Intercept and slope of a model. -/
def CostModel.line {α : Type} (m : CostModel α) : α × α := (m.constParam, m.linParam)

namespace SampleSet

variable {s s' : SampleSet}

/-! ## Section 2: what the first sample and two sums fix -/

theorem oneSize_congr (h : ∀ t, t ∈ s'.toList ↔ t ∈ s.toList) : s'.OneSize ↔ s.OneSize := by
  unfold OneSize
  simp only [h]

section Pinned

variable (hfirst : s'.first = s.first) (hproducts : s'.pinnedProducts = s.pinnedProducts)
  (hsquares : s'.pinnedSquares = s.pinnedSquares)

include hproducts hsquares

theorem pinnedSlope_congr : s'.pinnedSlope = s.pinnedSlope := by
  unfold pinnedSlope
  rw [hproducts, hsquares]

include hfirst

theorem pinnedIntercept_congr : s'.pinnedIntercept = s.pinnedIntercept := by
  unfold pinnedIntercept
  rw [pinnedSlope_congr hproducts hsquares, hfirst]

end Pinned

/-! ## Section 3: another order -/

theorem productsFrom_perm (h : s'.toList.Perm s.toList) (x y : ℚ) :
    s'.productsFrom x y = s.productsFrom x y := (h.map _).sum_eq

theorem squaresFrom_perm (h : s'.toList.Perm s.toList) (x : ℚ) :
    s'.squaresFrom x = s.squaresFrom x := (h.map _).sum_eq

theorem mean_perm (h : s'.toList.Perm s.toList) : (s'.mean : ℚ) = s.mean := by
  have hcosts : s'.costs.Perm s.costs := h.map _
  rw [mean_eq, mean_eq, hcosts.sum_eq, hcosts.length_eq]

/-- The quality of a line is a matter of sums as well. -/
theorem modelOf_perm (h : s'.toList.Perm s.toList) (const lin : ℚ) :
    s'.modelOf const lin = s.modelOf const lin := by
  have hpoints : (s'.points : List (Point ℚ)).Perm s.points := h.map _
  have hmean : meanCost (α := ℚ) s'.points = meanCost s.points := by
    unfold meanCost
    rw [Numerics.sum_eq_sum, Numerics.sum_eq_sum, (hpoints.map _).sum_eq, hpoints.length_eq]
  unfold modelOf
  rw [residualSum_eq, residualSum_eq, totalSum_eq, totalSum_eq, hmean, (hpoints.map _).sum_eq,
    (hpoints.map fun p => (p.y - meanCost s.points) ^ 2).sum_eq]

/-- A fit does not depend on the order of the samples after the first one. -/
theorem outcome_fit_perm (hfirst : s'.first = s.first) (h : s'.toList.Perm s.toList)
    (operation : Option Text) :
    (s'.fit (α := ℚ) operation).outcome = (s.fit operation).outcome := by
  have hone : s'.OneSize ↔ s.OneSize := oneSize_congr fun t => h.mem_iff
  have hproducts : s'.pinnedProducts = s.pinnedProducts := by
    unfold pinnedProducts
    rw [hfirst, productsFrom_perm h]
  have hsquares : s'.pinnedSquares = s.pinnedSquares := by
    unfold pinnedSquares
    rw [hfirst, squaresFrom_perm h]
  have horigin : s'.originSlope = s.originSlope := by
    unfold originSlope originProducts originSquares
    rw [productsFrom_perm h, squaresFrom_perm h]
  by_cases hsize : s.OneSize
  · rw [outcome_fit_of_oneSize (hone.2 hsize), outcome_fit_of_oneSize hsize, mean_perm h]
  -- Every test is on the first sample and on sums, and so is every model.
  · rw [outcome_fit_of_severalSizes (mt hone.1 hsize), outcome_fit_of_severalSizes hsize,
      modelOf_perm h, modelOf_perm h, pinnedIntercept_congr hfirst hproducts hsquares,
      pinnedSlope_congr hproducts hsquares, hproducts, hsquares, hfirst, horigin]

/-! ## Section 4: copies of the first sample -/

/-- If the line through the first sample does not start below zero, then it is
    the one that is fitted, unless it does not rise. -/
theorem line_fit (hsize : ¬ s.OneSize) (hstart : 0 ≤ s.pinnedIntercept)
    (operation : Option Text) :
    (s.fit operation).outcome.map CostModel.line =
      if s.pinnedProducts ≤ 0 then .error (.slopeNotPositive s.pinnedSlope operation)
      else .ok (s.pinnedIntercept, s.pinnedSlope) := by
  -- The constant term is never below zero here, so the refit through the origin
  -- is out of play.
  have hintercept : s.first.size * s.pinnedProducts ≤ s.first.cost * s.pinnedSquares :=
    not_lt.1 (mt (pinnedIntercept_neg_iff hsize).2 hstart.not_gt)
  rw [outcome_fit_of_severalSizes hsize]
  by_cases hslope : s.pinnedProducts ≤ 0
  · rw [if_pos hslope, if_pos hslope]
    rfl
  · rw [if_neg hslope, if_neg hslope, if_pos hintercept]
    rfl

/-- Copies of the first sample leave the fitted line as it is. -/
theorem line_fit_withCopies (hsize : ¬ s.OneSize) (hstart : 0 ≤ s.pinnedIntercept)
    (h : WithCopies s.first s.toList s'.toList) (operation : Option Text) :
    (s'.fit (α := ℚ) operation).outcome.map CostModel.line =
      (s.fit operation).outcome.map CostModel.line := by
  have hfirst : s'.first = s.first := h.head_eq
  have hone : s'.OneSize ↔ s.OneSize :=
    oneSize_congr fun t => h.mem_iff List.mem_cons_self
  -- As seen from the first sample its copies are at the origin.
  have hproducts : s'.pinnedProducts = s.pinnedProducts := by
    unfold pinnedProducts
    rw [hfirst]
    exact h.sum_map_eq (by ring)
  have hsquares : s'.pinnedSquares = s.pinnedSquares := by
    unfold pinnedSquares
    rw [hfirst]
    exact h.sum_map_eq (by ring)
  have hintercept := pinnedIntercept_congr hfirst hproducts hsquares
  rw [line_fit hsize hstart, line_fit (mt hone.1 hsize) (by rw [hintercept]; exact hstart),
    hproducts, hintercept, pinnedSlope_congr hproducts hsquares]

/-- Only the first sample has a place.  The samples after it may come in any
    order, with the same model or the same error, quality and slope included.
    If the line through the first sample does not start below zero, then its
    copies may come in anywhere, with the same line or the same error. -/
theorem fit_fixed_by_first (s : SampleSet) (operation : Option Text) :
    (∀ rest : List Sample, rest.Perm s.rest →
      ((SampleSet.mk s.first rest).fit (α := ℚ) operation).outcome =
        (s.fit operation).outcome) ∧
    (¬ s.OneSize → 0 ≤ (s.pinnedLine (α := ℚ)).2 →
      ∀ s' : SampleSet, WithCopies s.first s.toList s'.toList →
        (s'.fit (α := ℚ) operation).outcome.map CostModel.line =
          (s.fit operation).outcome.map CostModel.line) := by
  rw [pinnedLine_eq]
  constructor
  -- The first sample stays, so a permutation of the rest permutes all samples.
  · intro rest hrest
    have hall : (SampleSet.mk s.first rest).toList.Perm s.toList := hrest.cons s.first
    refine outcome_fit_perm ?_ hall operation
    rfl
  · intro hsize hstart s' hcopies
    exact line_fit_withCopies hsize hstart hcopies operation

/-- A second copy of the first of three samples: the line has the slope `7 / 5`
    with it and without it, and the quality is another one. -/
example :
    let a : Sample := ⟨0, 0, by decide, by decide⟩
    let rest : List Sample := [⟨1, 1, by decide, by decide⟩, ⟨2, 3, by decide, by decide⟩]
    ((SampleSet.mk a rest).fit none).outcome = .ok (CostModel.mk (0 : ℚ) (7 / 5) (67 / 70)) ∧
      ((SampleSet.mk a (a :: rest)).fit none).outcome =
        .ok (CostModel.mk (0 : ℚ) (7 / 5) (29 / 30)) := by
  constructor <;> cbv

end SampleSet
end CalibratedCosts
