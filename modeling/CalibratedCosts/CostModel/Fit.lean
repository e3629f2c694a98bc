import CalibratedCosts.CostModel.SampleSet

/-! # Fitting

    Reduces the samples of one operation to an affine cost model.

    1. **Constant**: if all sizes are equal the model predicts the mean cost.
    2. **Pinned fit**: otherwise the line is least squares among the lines
       through the first sample.  A free intercept would be wild when the
       sizes start far from zero.
    3. **Slope gate**: a slope that is not positive is bad data and an error.
    4. **Intercept**: a negative intercept is replaced by the least-squares
       line through the origin.

    The sums over arrays and the least-squares slope are taken from `Numerics`.
    Exact fractions have one such instance, given by the formulas; in double
    precision the last bits are those of the library in use.
-/

namespace CalibratedCosts

open Quantity (ofNat ofRat value less same)

variable {α : Type} [Quantity α]

/-! ## Section 1: least squares -/

/-- A point of the plane. -/
structure Point (α : Type) where
  x : α
  y : α

/-- The point of a sample. -/
def Point.ofSample (s : Sample) : Point α := ⟨ofNat s.size, ofNat s.cost⟩

/-- The point as seen from `origin`. -/
def Point.relativeTo (origin p : Point α) : Point α := ⟨p.x - origin.x, p.y - origin.y⟩

/-- The computations on whole arrays that a numerical library provides.  In
    double precision their last bits depend on how it orders and scales the
    terms. -/
class Numerics (α : Type) where
  /-- The sum of an array. -/
  sum : List α → α
  /-- The slope of the least-squares line through the origin. -/
  slopeThroughOrigin : List (Point α) → α

/-- The quotient of the normal equation.  It is zero if all points lie above
    the origin. -/
def normalSlope (points : List (Point α)) : α :=
  let products := Quantity.sum (points.map fun p => p.x * p.y)
  let squares := Quantity.sum (points.map fun p => p.x * p.x)
  if same squares 0 then 0 else products / squares

namespace Numerics

/-- The library that adds from left to right and solves the normal
    equation. -/
scoped instance ofFormulas : Numerics α := ⟨Quantity.sum, normalSlope⟩

end Numerics

/-- Exact results do not depend on the order of the terms. -/
instance : Numerics Rat := .ofFormulas

variable [Numerics α]
open Numerics (sum slopeThroughOrigin)

/-! ## Section 2: quality of a fit -/

/-- Residual sums up to this one count as an exact fit. -/
def exactFitTolerance : α := ofRat (1 / 1000000000)

/-- The sum of the squared distances of the costs from a line. -/
def residualSum (points : List (Point α)) (const lin : α) : α :=
  sum (points.map fun p =>
    let residual := p.y - (const + lin * p.x)
    residual * residual)

/-- The mean cost of some points. -/
def meanCost (points : List (Point α)) : α :=
  sum (points.map (·.y)) / ofNat points.length

/-- The sum of the squared distances of the costs from their mean. -/
def totalSum (points : List (Point α)) : α :=
  let mean := meanCost points
  sum (points.map fun p =>
    let deviation := p.y - mean
    deviation * deviation)

/-- A residual sum that counts as none. -/
def isExactFit (residual : α) : Bool :=
  (value residual).isFinite && !less (exactFitTolerance : α) residual

/-- The share of the variance that a line explains.  Where there is no
    variance only an exact fit has a quality. -/
def fitQuality (points : List (Point α)) (const lin : α) : Except (CostModelError α) α :=
  let residual := residualSum points const lin
  let total := totalSum points
  if same total 0 then
    if isExactFit residual then .ok (ofRat 1) else .error (.fitQualityUndefined residual)
  else .ok (ofRat 1 - residual / total)

/-- The share of the variance that a line explains, given sizes and costs
    apart. -/
def rSquared (xs ys : List α) (const lin : α) : Except (CostModelError α) α :=
  if xs.length ≠ ys.length then
    .error (.invalidSampleSet (.lengthMismatch xs.length ys.length))
  else fitQuality (List.zipWith Point.mk xs ys) const lin

/-! ## Section 3: the fit -/

namespace SampleSet

/-- Every sample has the size of the first one. -/
def hasOneSize (s : SampleSet) : Bool := s.rest.all fun t => t.size = s.first.size

/-- No size is below the one before it. -/
def isSorted (s : SampleSet) : Bool :=
  (List.zipWith (fun a b : Sample => decide (a.size ≤ b.size)) s.toList s.rest).all id

/-- The mean cost, rounded once. -/
def mean (s : SampleSet) : α := ofRat ((s.costs.foldl (· + ·) 0 : Nat) / (s.toList.length : Rat))

def points (s : SampleSet) : List (Point α) := s.toList.map Point.ofSample

/-- The model that predicts the mean cost. -/
def constantModel (s : SampleSet) : CostModel α := ⟨s.mean, 0, 0⟩

/-- Slope and intercept of the least-squares line through the first
    sample. -/
def pinnedLine (s : SampleSet) : α × α :=
  let pin : Point α := Point.ofSample s.first
  let slope := slopeThroughOrigin (s.points.map pin.relativeTo)
  (slope, pin.y - slope * pin.x)

/-- Fits a line to samples of several sizes. -/
def fitLine (s : SampleSet) (operation : Option Text) :
    Traced (CostModelError α) (CostModel α) := do
  let points := s.points
  let (slope, intercept) := s.pinnedLine
  -- The quality is settled before the slope is judged.
  let quality ← Traced.ofExcept (fitQuality points intercept slope)
  if !less (0 : α) slope then
    Traced.report .slopeNotPositive
    Traced.fail (.slopeNotPositive slope operation)
  else if less intercept 0 then
    Traced.report .interceptRefitted
    -- The new line passes through the origin, so no sample is pinned.
    let slope := slopeThroughOrigin points
    let quality ← Traced.ofExcept (fitQuality points 0 slope)
    Traced.report .modelFitted
    pure ⟨0, slope, quality⟩
  else
    Traced.report .modelFitted
    pure ⟨intercept, slope, quality⟩

/-- Fits a cost model.  The operation is only named in errors. -/
def fit (s : SampleSet) (operation : Option Text) :
    Traced (CostModelError α) (CostModel α) := do
  if s.hasOneSize then
    Traced.report .constantModelFitted
    pure s.constantModel
  else
    if !s.isSorted then Traced.report .sizesNotSorted
    s.fitLine operation

end SampleSet
end CalibratedCosts
