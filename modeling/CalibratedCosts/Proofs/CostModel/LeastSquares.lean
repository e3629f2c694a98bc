import Mathlib
import CalibratedCosts.CostModel.Fit

/-! # Least squares in exact fractions

    Over fractions the slope of a fit is a quotient of two sums over the
    samples: the products and the squares of their distances from the first
    sample, or from the origin.

    * **Several sizes**: then the squares do not sum up to zero, and the signs of
      slope and intercept are those of sums without a division.
    * **Variance**: without any, the line through the first sample is flat and
      leaves nothing over, so that a fit always has a quality.
-/

namespace CalibratedCosts

open Numerics (slopeThroughOrigin)

/-! ## Section 1: exact quantities -/

namespace Quantity

theorem sum_eq_sum (xs : List ℚ) : Quantity.sum xs = xs.sum := by
  rw [List.sum_eq_foldl]
  rfl

theorem less_iff {x y : ℚ} : Quantity.less x y = true ↔ x < y := decide_eq_true_iff

theorem same_iff {x y : ℚ} : Quantity.same x y = true ↔ x = y := decide_eq_true_iff

end Quantity

theorem Numerics.sum_eq_sum (xs : List ℚ) : Numerics.sum xs = xs.sum := Quantity.sum_eq_sum xs

/-- A quotient of sums without squares is zero in either reading of it. -/
theorem slopeThroughOrigin_eq (points : List (Point ℚ)) :
    slopeThroughOrigin points =
      (points.map fun p => p.x * p.y).sum / (points.map fun p => p.x ^ 2).sum := by
  -- The definition guards the division by zero; in `ℚ` a division by zero is
  -- zero as well.
  have hslope : slopeThroughOrigin points =
      if Quantity.same (Quantity.sum (points.map fun p => p.x ^ 2)) 0 then 0
      else Quantity.sum (points.map fun p => p.x * p.y) /
        Quantity.sum (points.map fun p => p.x ^ 2) := by
    simp only [sq]
    rfl
  rw [hslope, Quantity.sum_eq_sum, Quantity.sum_eq_sum]
  split_ifs with hzero
  · rw [Quantity.same_iff.1 hzero, div_zero]
  · rfl

theorem residualSum_eq (points : List (Point ℚ)) (const lin : ℚ) :
    residualSum points const lin = (points.map fun p => (p.y - (const + lin * p.x)) ^ 2).sum := by
  rw [← Quantity.sum_eq_sum]
  simp only [sq]
  rfl

theorem totalSum_eq (points : List (Point ℚ)) :
    totalSum points = (points.map fun p => (p.y - meanCost points) ^ 2).sum := by
  rw [← Quantity.sum_eq_sum]
  simp only [sq]
  rfl

/-- Squares that sum up to nothing are zero each. -/
theorem sum_map_sq_eq_zero_iff {β : Type} {f : β → ℚ} {items : List β} :
    (items.map fun b => f b ^ 2).sum = 0 ↔ ∀ b ∈ items, f b = 0 := by
  constructor
  · intro hsum b hb
    -- A sum of squares vanishes only with every term.
    have hnonneg : ∀ q ∈ items.map fun b => f b ^ 2, 0 ≤ q := by
      intro q hq
      obtain ⟨b', -, rfl⟩ := List.mem_map.1 hq
      exact sq_nonneg _
    have hzero := List.all_zero_of_le_zero_le_of_sum_eq_zero hnonneg hsum (List.mem_map_of_mem hb)
    exact pow_eq_zero_iff two_ne_zero |>.1 hzero
  · intro hall
    apply List.sum_eq_zero
    intro q hq
    obtain ⟨b, hb, rfl⟩ := List.mem_map.1 hq
    simp [hall b hb]

theorem sum_map_sq_nonneg {β : Type} (f : β → ℚ) (items : List β) :
    0 ≤ (items.map fun b => f b ^ 2).sum := by
  apply List.sum_nonneg
  intro q hq
  obtain ⟨b, -, rfl⟩ := List.mem_map.1 hq
  exact sq_nonneg _

/-- A fit has a quality if there is variance, or nothing is left over. -/
theorem fitQuality_eq_ok {points : List (Point ℚ)} {const lin : ℚ}
    (h : totalSum points = 0 → residualSum points const lin = 0) :
    fitQuality points const lin = .ok (1 - residualSum points const lin / totalSum points) := by
  unfold fitQuality
  dsimp only
  -- All costs equal: the quotient `0 / 0` counts as 0 here, and the code asks
  -- whether the fit is exact.
  by_cases htotal : totalSum points = 0
  · have hexact : isExactFit (residualSum points const lin) = true := by
      rw [h htotal]
      decide +kernel
    rw [if_pos (Quantity.same_iff.2 htotal), if_pos hexact, htotal, div_zero, sub_zero]
    rfl
  · rw [if_neg (mt Quantity.same_iff.1 htotal)]
    rfl

namespace SampleSet

/-! ## Section 2: sums over samples -/

/-- The sum of the products of the distances from a point. -/
def productsFrom (s : SampleSet) (x y : ℚ) : ℚ :=
  (s.toList.map fun t => ((t.size : ℚ) - x) * (t.cost - y)).sum

/-- The sum of the squared distances of the sizes from a size. -/
def squaresFrom (s : SampleSet) (x : ℚ) : ℚ := (s.toList.map fun t => ((t.size : ℚ) - x) ^ 2).sum

/-- All samples have one size. -/
def OneSize (s : SampleSet) : Prop := ∀ t ∈ s.toList, ∀ u ∈ s.toList, t.size = u.size

theorem hasOneSize_iff {s : SampleSet} : s.hasOneSize = true ↔ s.OneSize := by
  unfold hasOneSize OneSize toList
  rw [List.all_eq_true]
  simp only [decide_eq_true_eq]
  constructor
  · intro hrest
    have hfirst : ∀ t ∈ s.first :: s.rest, t.size = s.first.size :=
      List.forall_mem_cons.2 ⟨rfl, hrest⟩
    intro t ht u hu
    rw [hfirst t ht, hfirst u hu]
  · intro hone t ht
    exact hone t (List.mem_cons_of_mem _ ht) s.first List.mem_cons_self

theorem squaresFrom_eq_zero_iff {s : SampleSet} {x : ℚ} :
    s.squaresFrom x = 0 ↔ ∀ t ∈ s.toList, (t.size : ℚ) = x := by
  unfold squaresFrom
  rw [sum_map_sq_eq_zero_iff]
  simp only [sub_eq_zero]

/-- Samples of several sizes do not all have one given size. -/
theorem squaresFrom_pos {s : SampleSet} (h : ¬ s.OneSize) (x : ℚ) : 0 < s.squaresFrom x := by
  refine lt_of_le_of_ne (sum_map_sq_nonneg _ _) fun hzero => h fun t ht u hu => ?_
  have hall := squaresFrom_eq_zero_iff.1 hzero.symm
  exact_mod_cast (hall t ht).trans (hall u hu).symm

/-- Without variance all samples have the cost of the first one. -/
theorem cost_eq_of_totalSum {s : SampleSet} (h : totalSum (α := ℚ) s.points = 0) :
    ∀ t ∈ s.toList, t.cost = s.first.cost := by
  rw [totalSum_eq, sum_map_sq_eq_zero_iff] at h
  have hmean : ∀ t ∈ s.toList, (t.cost : ℚ) = meanCost s.points := fun t ht =>
    sub_eq_zero.1 (h _ (List.mem_map_of_mem ht))
  intro t ht
  exact_mod_cast (hmean t ht).trans (hmean s.first List.mem_cons_self).symm

/-! ## Section 3: the two lines -/

/-- The products as seen from the first sample. -/
def pinnedProducts (s : SampleSet) : ℚ := s.productsFrom s.first.size s.first.cost

/-- The squares as seen from the first sample. -/
def pinnedSquares (s : SampleSet) : ℚ := s.squaresFrom s.first.size

/-- The slope of the line through the first sample. -/
def pinnedSlope (s : SampleSet) : ℚ := s.pinnedProducts / s.pinnedSquares

/-- Where the line through the first sample meets the axis. -/
def pinnedIntercept (s : SampleSet) : ℚ := s.first.cost - s.pinnedSlope * s.first.size

/-- The products as seen from the origin. -/
def originProducts (s : SampleSet) : ℚ := s.productsFrom 0 0

/-- The squares as seen from the origin. -/
def originSquares (s : SampleSet) : ℚ := s.squaresFrom 0

/-- The slope of the line through the origin. -/
def originSlope (s : SampleSet) : ℚ := s.originProducts / s.originSquares

theorem pinnedLine_eq (s : SampleSet) :
    s.pinnedLine (α := ℚ) = (s.pinnedSlope, s.pinnedIntercept) := by
  have hslope : slopeThroughOrigin (s.points.map (Point.ofSample s.first).relativeTo) =
      s.pinnedSlope := by
    rw [slopeThroughOrigin_eq]
    unfold points
    simp only [List.map_map]
    rfl
  exact congrArg (fun slope : ℚ => (slope, (s.first.cost : ℚ) - slope * s.first.size)) hslope

theorem slopeThroughOrigin_points (s : SampleSet) :
    slopeThroughOrigin s.points = s.originSlope := by
  rw [slopeThroughOrigin_eq]
  unfold points originSlope originProducts originSquares productsFrom squaresFrom
  simp only [List.map_map, sub_zero]
  rfl

theorem pinnedSquares_pos {s : SampleSet} (h : ¬ s.OneSize) : 0 < s.pinnedSquares :=
  squaresFrom_pos h _

theorem originSquares_pos {s : SampleSet} (h : ¬ s.OneSize) : 0 < s.originSquares :=
  squaresFrom_pos h _

theorem pinnedSlope_pos_iff {s : SampleSet} (h : ¬ s.OneSize) :
    0 < s.pinnedSlope ↔ 0 < s.pinnedProducts :=
  div_pos_iff_of_pos_right (pinnedSquares_pos h)

theorem pinnedIntercept_eq (s : SampleSet) :
    s.pinnedIntercept = s.first.cost - s.first.size * s.pinnedProducts / s.pinnedSquares := by
  unfold pinnedIntercept pinnedSlope
  ring

/-- The line through the first sample meets the axis below the origin if it
    rises faster than the line from the origin to that sample. -/
theorem pinnedIntercept_neg_iff {s : SampleSet} (h : ¬ s.OneSize) :
    s.pinnedIntercept < 0 ↔
      s.first.cost * s.pinnedSquares < s.first.size * s.pinnedProducts := by
  rw [pinnedIntercept_eq, sub_neg, lt_div_iff₀ (pinnedSquares_pos h)]

/-- The line through the first sample is flat if no cost differs from its
    cost. -/
theorem pinnedProducts_eq_zero_of_flat {s : SampleSet}
    (h : ∀ t ∈ s.toList, t.cost = s.first.cost) : s.pinnedProducts = 0 := by
  apply List.sum_eq_zero
  intro q hq
  obtain ⟨t, ht, rfl⟩ := List.mem_map.1 hq
  rw [h t ht, sub_self, mul_zero]

/-- Without variance the line through the first sample is flat. -/
theorem pinnedProducts_eq_zero_of_totalSum {s : SampleSet}
    (h : totalSum (α := ℚ) s.points = 0) : s.pinnedProducts = 0 :=
  pinnedProducts_eq_zero_of_flat (cost_eq_of_totalSum h)

theorem residualSum_points (s : SampleSet) (const lin : ℚ) :
    residualSum s.points const lin =
      (s.toList.map fun t => ((t.cost : ℚ) - (const + lin * t.size)) ^ 2).sum := by
  rw [residualSum_eq]
  unfold points
  rw [List.map_map]
  rfl

/-- A line leaves nothing over if every sample lies on it. -/
theorem residualSum_eq_zero_iff {s : SampleSet} {const lin : ℚ} :
    residualSum s.points const lin = 0 ↔
      ∀ t ∈ s.toList, (t.cost : ℚ) = const + lin * t.size := by
  rw [residualSum_points, sum_map_sq_eq_zero_iff]
  simp only [sub_eq_zero]

/-- The line through the first sample leaves nothing over where there is no
    variance. -/
theorem residualSum_pinned_eq_zero {s : SampleSet} (h : totalSum (α := ℚ) s.points = 0) :
    residualSum s.points s.pinnedIntercept s.pinnedSlope = 0 := by
  have hslope : s.pinnedSlope = 0 := by
    unfold pinnedSlope
    rw [pinnedProducts_eq_zero_of_totalSum h, zero_div]
  rw [residualSum_eq_zero_iff]
  intro t ht
  unfold pinnedIntercept
  rw [hslope, cost_eq_of_totalSum h t ht]
  ring

theorem exists_pos_of_productsFrom_pos {s : SampleSet} {x y : ℚ} (h : 0 < s.productsFrom x y) :
    ∃ t ∈ s.toList, 0 < ((t.size : ℚ) - x) * (t.cost - y) := by
  apply List.exists_lt_of_sum_lt (fun _ => (0 : ℚ))
  rwa [List.map_const', List.sum_replicate, smul_zero]

/-- A sample off the axes is enough for the line through the origin. -/
theorem originProducts_pos {s : SampleSet} {t : Sample} (ht : t ∈ s.toList)
    (hsize : t.size ≠ 0) (hcost : t.cost ≠ 0) : 0 < s.originProducts := by
  have hnonneg : ∀ q ∈ s.toList.map fun t => ((t.size : ℚ) - 0) * (t.cost - 0), 0 ≤ q := by
    intro q hq
    obtain ⟨t, -, rfl⟩ := List.mem_map.1 hq
    simp only [sub_zero]
    positivity
  have hterm : (0 : ℚ) < (t.size - 0) * (t.cost - 0) := by
    simp only [sub_zero]
    positivity
  exact hterm.trans_le (List.single_le_sum hnonneg _ (List.mem_map_of_mem ht))

/-- If the costs grow with the sizes as seen from the first sample, they do so
    from the origin. -/
theorem originProducts_pos_of_pinned {s : SampleSet} (h : 0 < s.pinnedProducts) :
    0 < s.originProducts := by
  obtain ⟨t, ht, hterm⟩ := exists_pos_of_productsFrom_pos h
  -- The larger one of the two samples is off the axes.
  rcases pos_and_pos_or_neg_and_neg_of_mul_pos hterm with ⟨hsize, hcost⟩ | ⟨hsize, hcost⟩
  · have hsize' : s.first.size < t.size := by exact_mod_cast sub_pos.1 hsize
    have hcost' : s.first.cost < t.cost := by exact_mod_cast sub_pos.1 hcost
    exact originProducts_pos ht (by omega) (by omega)
  · have hsize' : t.size < s.first.size := by exact_mod_cast sub_neg.1 hsize
    have hcost' : t.cost < s.first.cost := by exact_mod_cast sub_neg.1 hcost
    exact originProducts_pos List.mem_cons_self (by omega) (by omega)

end SampleSet
end CalibratedCosts
