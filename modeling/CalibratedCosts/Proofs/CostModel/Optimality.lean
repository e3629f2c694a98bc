import Mathlib
import CalibratedCosts.Proofs.CostModel.FitBounds

/-! # No other line is as near

    Among the lines through a point the sum of the squared residuals is a
    square polynomial in the slope.  Its leading coefficient is the sum of the
    squared distances of the sizes from the point, which is positive if there
    are several sizes.  Every slope but that of the vertex is worse than it, by
    this coefficient times the square of the distance between the slopes.

    * **Competitors**: lines over any ordered field, so that no real line is
      better either.
    * **Fitted lines**: the slopes of both fits are vertices, the one among the
      lines through the first sample, the other among those through the origin.
-/

namespace CalibratedCosts
namespace SampleSet

variable {K : Type} [Field K]

/-! ## Section 1: sums over a field -/

/-- The sum of the squared distances of the costs from a line over any
    field. -/
def squaredErrors (s : SampleSet) (const lin : K) : K :=
  (s.toList.map fun t => ((t.cost : K) - (const + lin * t.size)) ^ 2).sum

/-- A sum of squares of linear functions is a square polynomial. -/
theorem sum_map_sub_mul_sq {β : Type} (items : List β) (e d : β → K) (b : K) :
    (items.map fun t => (e t - b * d t) ^ 2).sum =
      (items.map fun t => e t ^ 2).sum - 2 * b * (items.map fun t => d t * e t).sum +
        b ^ 2 * (items.map fun t => d t ^ 2).sum := by
  induction items with
  | nil => simp
  | cons t rest ih =>
    simp only [List.map_cons, List.sum_cons, ih]
    ring

variable [CharZero K]

theorem cast_sum_map {β : Type} (items : List β) (f : β → ℚ) :
    (((items.map f).sum : ℚ) : K) = (items.map fun t => (f t : K)).sum := by
  rw [Rat.cast_list_sum, List.map_map]
  rfl

/-- On lines with fractions the sum is the one that a fit is judged by. -/
theorem cast_residualSum (s : SampleSet) (const lin : ℚ) :
    ((residualSum s.points const lin : ℚ) : K) = s.squaredErrors (const : K) (lin : K) := by
  rw [residualSum_points, cast_sum_map]
  push_cast
  rfl

/-! ## Section 2: lines through a point -/

theorem squaredErrors_through (s : SampleSet) (x y : ℚ) (b : K) :
    s.squaredErrors (y - b * x) b =
      (s.toList.map fun t => ((t.cost : K) - y) ^ 2).sum - 2 * b * (s.productsFrom x y : K) +
        b ^ 2 * (s.squaresFrom x : K) := by
  -- Measured from the point `(x, y)`, the line has one free coefficient, and
  -- the errors are a quadratic in it.
  have hline : s.squaredErrors (y - b * x) b =
      (s.toList.map fun t => (((t.cost : K) - y) - b * ((t.size : K) - x)) ^ 2).sum := by
    unfold squaredErrors
    congr 2
    funext t
    ring
  unfold productsFrom squaresFrom
  rw [hline, sum_map_sub_mul_sq, cast_sum_map, cast_sum_map]
  push_cast
  rfl

/-- What another line through a point has more than the one of the vertex. -/
theorem squaredErrors_eq_add {s : SampleSet} {x y a : ℚ}
    (hvertex : a * s.squaresFrom x = s.productsFrom x y) (b : K) :
    s.squaredErrors (y - b * x) b =
      s.squaredErrors ((y - a * x : ℚ) : K) (a : K) + (b - a) ^ 2 * (s.squaresFrom x : K) := by
  have hcast : (s.productsFrom x y : K) = a * (s.squaresFrom x : K) := by
    rw [← hvertex, Rat.cast_mul]
  rw [Rat.cast_sub, Rat.cast_mul, squaredErrors_through, squaredErrors_through, hcast]
  ring

variable [LinearOrder K] [IsStrictOrderedRing K] {s : SampleSet}

/-- Any other line through the point is worse. -/
theorem squaredErrors_lt (h : ¬ s.OneSize) {x y a : ℚ} {const lin : K}
    (hvertex : a * s.squaresFrom x = s.productsFrom x y) (hpoint : const + lin * x = y)
    (hother : (const, lin) ≠ (((y - a * x : ℚ) : K), (a : K))) :
    s.squaredErrors ((y - a * x : ℚ) : K) (a : K) < s.squaredErrors const lin := by
  -- Through `(x, y)`, two lines differ only if their slopes do.
  have hconst : const = y - lin * x := eq_sub_of_add_eq hpoint
  have hslope : lin ≠ a := by
    intro heq
    apply hother
    rw [hconst, heq]
    push_cast
    rfl
  -- The quadratic exceeds its vertex by the squared distance of the slopes
  -- times the squares, which are positive for several sizes.
  have hsquares : (0 : K) < (s.squaresFrom x : K) := Rat.cast_pos.2 (squaresFrom_pos h x)
  have hexcess : 0 < (lin - a) ^ 2 * (s.squaresFrom x : K) :=
    mul_pos (sq_pos_of_ne_zero (sub_ne_zero.2 hslope)) hsquares
  rw [hconst, squaredErrors_eq_add hvertex]
  exact lt_add_of_pos_right _ hexcess

/-! ## Section 3: fitted lines -/

theorem pinnedSlope_mul_squares (h : ¬ s.OneSize) :
    s.pinnedSlope * s.squaresFrom s.first.size = s.productsFrom s.first.size s.first.cost :=
  div_mul_cancel₀ _ (pinnedSquares_pos h).ne'

theorem originSlope_mul_squares (h : ¬ s.OneSize) :
    s.originSlope * s.squaresFrom 0 = s.productsFrom 0 0 :=
  div_mul_cancel₀ _ (originSquares_pos h).ne'

/-- A fit to several sizes is the best line of its kind.  If the line through
    the first sample meets the axis at zero or above, then the fit passes
    through that sample, and no other line that does so has as small a sum of
    squared residuals.  Else the fit passes through the origin, and no other
    line through the origin has as small a sum. -/
theorem fit_least_squares {operation : Option Text} {m : CostModel ℚ} (hsize : ¬ s.OneSize)
    (h : (s.fit operation).outcome = .ok m) :
    (0 ≤ (s.pinnedLine (α := ℚ)).2 →
      m.constParam + m.linParam * s.first.size = s.first.cost ∧
      ∀ const lin : K, const + lin * s.first.size = s.first.cost →
        (const, lin) ≠ ((m.constParam : K), (m.linParam : K)) →
        ((residualSum s.points m.constParam m.linParam : ℚ) : K) < s.squaredErrors const lin) ∧
    ((s.pinnedLine (α := ℚ)).2 < 0 →
      m.constParam = 0 ∧
      ∀ lin : K, lin ≠ m.linParam →
        ((residualSum s.points m.constParam m.linParam : ℚ) : K) < s.squaredErrors 0 lin) := by
  rw [pinnedLine_eq]
  simp only [cast_residualSum]
  rcases fit_eq_ok_cases h with
    ⟨hone, -⟩ | ⟨-, -, ⟨hintercept, rfl⟩ | ⟨hintercept, rfl⟩⟩
  · exact absurd hone hsize
  -- The line is pinned to the first sample.
  · refine ⟨fun _ => ⟨sub_add_cancel _ _, fun const lin hpoint hother => ?_⟩,
      fun hneg => absurd hneg hintercept.not_gt⟩
    exact squaredErrors_lt hsize (pinnedSlope_mul_squares hsize) (by exact_mod_cast hpoint) hother
  -- The line is pinned to the origin.
  · refine ⟨fun hnonneg => absurd hintercept hnonneg.not_gt, fun _ => ⟨rfl, fun lin hother => ?_⟩⟩
    have horigin : (0 : ℚ) - s.originSlope * 0 = 0 := by ring
    have hpoint : (0 : K) + lin * ((0 : ℚ) : K) = ((0 : ℚ) : K) := by simp
    have hlt := squaredErrors_lt hsize (originSlope_mul_squares hsize) hpoint
    rw [horigin] at hlt
    exact hlt fun heq => hother (Prod.mk.inj heq).2

def noisyCosts : SampleSet :=
  ⟨⟨12, 90, by decide, by decide⟩,
    [⟨24, 118, by decide, by decide⟩, ⟨36, 145, by decide, by decide⟩,
     ⟨48, 163, by decide, by decide⟩]⟩

/-- Against all real lines, the line through the sample of cost 90 at size 12
    with the slope `17 / 8`, and the line through the origin with the slope
    `19 / 5`. -/
theorem noisyAndSteep_least_squares :
    (¬ noisyCosts.OneSize ∧
      (noisyCosts.fit none).outcome = .ok ⟨(129 / 2 : ℚ), 17 / 8, 2013 / 2036⟩ ∧
      0 ≤ (noisyCosts.pinnedLine (α := ℚ)).2 ∧
      (129 / 2 : ℚ) + 17 / 8 * 12 = 90 ∧
      ∀ const lin : ℝ, const + lin * 12 = 90 → (const, lin) ≠ (129 / 2, 17 / 8) →
        ((residualSum noisyCosts.points (129 / 2) (17 / 8) : ℚ) : ℝ) <
          noisyCosts.squaredErrors const lin) ∧
    ¬ steepCosts.OneSize ∧
      (steepCosts.fit none).outcome = .ok ⟨(0 : ℚ), 19 / 5, 97 / 225⟩ ∧
      (steepCosts.pinnedLine (α := ℚ)).2 < 0 ∧
      ∀ lin : ℝ, lin ≠ 19 / 5 →
        ((residualSum steepCosts.points 0 (19 / 5) : ℚ) : ℝ) < steepCosts.squaredErrors 0 lin := by
  have hnoisy : ¬ noisyCosts.OneSize := mt hasOneSize_iff.2 (by decide)
  have hfit : (noisyCosts.fit none).outcome = .ok ⟨(129 / 2 : ℚ), 17 / 8, 2013 / 2036⟩ := by
    cbv
  have hstart : 0 ≤ (noisyCosts.pinnedLine (α := ℚ)).2 := by decide +kernel
  have hsteep : ¬ steepCosts.OneSize := mt hasOneSize_iff.2 (by decide)
  have hrefit : (steepCosts.fit none).outcome = .ok ⟨(0 : ℚ), 19 / 5, 97 / 225⟩ := by cbv
  have hbelow : (steepCosts.pinnedLine (α := ℚ)).2 < 0 := by decide +kernel
  obtain ⟨hthrough, hbest⟩ := (fit_least_squares (K := ℝ) hnoisy hfit).1 hstart
  have horigin := ((fit_least_squares (K := ℝ) hsteep hrefit).2 hbelow).2
  refine ⟨⟨hnoisy, hfit, hstart, hthrough, fun const lin hpoint hother => ?_⟩,
    hsteep, hrefit, hbelow, fun lin hother => ?_⟩
  · exact hbest const lin (by exact_mod_cast hpoint) (by push_cast; exact hother)
  · exact horigin lin (by push_cast; exact hother)

end SampleSet
end CalibratedCosts
