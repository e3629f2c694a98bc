import Mathlib
import CalibratedCosts.Proofs.Calibration.Partition
import CalibratedCosts.Proofs.CostModel.FitOutcome
import CalibratedCosts.Proofs.CostModel.Quantize
import CalibratedCosts.Proofs.Table.Lookup

/-! # Exact costs are recovered

    Costs that are an affine function of the size come back exactly, from the
    samples to the charges of the table.

    * **Fit**: on a line the products are the slope times the squares, so that
      the fitted line is that line, whichever sample comes first, and nothing
      is left over.
    * **Quantizing**: integers are their own tenths and their own ceilings.
    * **Run**: whatever else is calibrated, the operation is in the table and
      not up for review, and it is charged its measured costs.
-/

namespace CalibratedCosts

variable {a b : ℕ}

namespace SampleSet

variable {s : SampleSet}

/-! ## Section 1: samples on a line -/

/-- The costs are `a + b * size`. -/
def OnLine (s : SampleSet) (a b : ℕ) : Prop := ∀ t ∈ s.toList, t.cost = a + b * t.size

namespace OnLine

theorem pinnedProducts_eq (h : s.OnLine a b) : s.pinnedProducts = b * s.pinnedSquares := by
  unfold pinnedProducts pinnedSquares productsFrom squaresFrom
  rw [← List.sum_map_mul_left]
  congr 1
  apply List.map_congr_left
  intro t ht
  rw [h t ht, h s.first List.mem_cons_self]
  push_cast
  ring

theorem pinnedSlope_eq (h : s.OnLine a b) (hsizes : ¬ s.OneSize) : s.pinnedSlope = b := by
  unfold pinnedSlope
  rw [h.pinnedProducts_eq, mul_div_cancel_right₀ _ (pinnedSquares_pos hsizes).ne']

theorem pinnedIntercept_eq (h : s.OnLine a b) (hsizes : ¬ s.OneSize) : s.pinnedIntercept = a := by
  unfold pinnedIntercept
  rw [h.pinnedSlope_eq hsizes, h s.first List.mem_cons_self]
  push_cast
  ring

theorem residualSum_eq_zero (h : s.OnLine a b) : residualSum s.points (a : ℚ) b = 0 := by
  rw [residualSum_eq_zero_iff]
  intro t ht
  exact_mod_cast h t ht

/-- A rising line is fitted by itself. -/
theorem outcome_fit_eq (h : s.OnLine a b) (hb : 1 ≤ b) (hsizes : ¬ s.OneSize)
    (operation : Option Text) : (s.fit operation).outcome = .ok (CostModel.mk (a : ℚ) b 1) := by
  -- The slope `b` is positive, so the fit is not the constant one, and the
  -- intercept `a` is not negative, so it is not the fit through the origin
  -- either.
  have hrises : ¬ s.pinnedProducts ≤ 0 := by
    rw [not_le, ← pinnedSlope_pos_iff hsizes, h.pinnedSlope_eq hsizes]
    exact_mod_cast hb
  have habove : ¬ s.pinnedIntercept < 0 := by
    rw [h.pinnedIntercept_eq hsizes]
    exact (Nat.cast_nonneg a).not_gt
  rw [pinnedIntercept_neg_iff hsizes, not_lt] at habove
  rw [outcome_fit_of_severalSizes hsizes, if_neg hrises, if_pos habove, h.pinnedSlope_eq hsizes,
    h.pinnedIntercept_eq hsizes]
  unfold modelOf
  rw [h.residualSum_eq_zero, zero_div, sub_zero]

end OnLine

/-! ## Section 2: samples as data -/

section Data

variable {α : Type} [Datum.CallRoom]

theorem checkColumn_whole (column : Column) (index : ℕ) (ns : List { n : ℕ // n ≤ u64Max }) :
    checkColumn (α := α) column index (ns.map fun n => .whole n.1) = .ok ns := by
  induction ns generalizing index with
  | nil => rfl
  | cons n rest ih =>
    rw [List.map_cons, checkColumn, ih]
    simp [checkEntry, bind, Except.bind]

theorem ofColumns_whole (s : SampleSet) :
    ofColumns (α := α) (s.toList.map fun t => .whole t.size) (s.toList.map fun t => .whole t.cost) =
      .ok s := by
  -- Both columns pass the check unchanged, and paired again they are the
  -- samples.
  have hsizes := checkColumn_whole (α := α) .sizes 0
    (s.toList.map fun t => ⟨t.size, t.size_le⟩)
  have hcosts := checkColumn_whole (α := α) .costs 0
    (s.toList.map fun t => ⟨t.cost, t.cost_le⟩)
  have hpairs : List.zipWith pair (s.rest.map fun t => ⟨t.size, t.size_le⟩)
      (s.rest.map fun t => ⟨t.cost, t.cost_le⟩) = s.rest := by
    rw [List.zipWith_map, List.zipWith_self]
    exact List.map_id s.rest
  rw [List.map_map] at hsizes hcosts
  unfold ofColumns
  rw [List.length_map, List.length_map, if_neg (not_not.2 rfl)]
  refine bind_eq_ok_iff.2 ⟨_, hsizes, bind_eq_ok_iff.2 ⟨_, hcosts, ?_⟩⟩
  exact congrArg (fun rest => Except.ok (SampleSet.mk s.first rest)) hpairs

/-- Pairs of 64-bit integers are samples. -/
theorem ofPairs_eq_ok {data : Datum}
    (h : splitPairs data = .ok (s.toList.map fun t => (.whole t.size, .whole t.cost))) :
    ofPairs (α := α) data = .ok s := by
  unfold ofPairs
  rw [h]
  dsimp only
  rw [List.map_map, List.map_map]
  exact ofColumns_whole s

end Data

/-- A size on a rising line is at most its cost. -/
theorem size_le_cost (hb : 1 ≤ b) (x : ℕ) : x ≤ a + b * x :=
  (Nat.le_mul_of_pos_left x hb).trans (Nat.le_add_left _ _)

/-- Sizes with costs of 64 bits are those of a sample set. -/
theorem exists_points_eq {sizes : List ℕ} (hne : sizes ≠ []) (hb : 1 ≤ b)
    (hcosts : ∀ x ∈ sizes, a + b * x ≤ u64Max) :
    ∃ s : SampleSet,
      s.toList.map (fun t => (t.size, t.cost)) = sizes.map fun x => (x, a + b * x) := by
  -- Every pair has a size and a cost in range, so the list of pairs is the
  -- image of a list of samples.
  have hsamples : sizes.map (fun x => (x, a + b * x)) ∈
      Set.range (List.map fun t : Sample => (t.size, t.cost)) := by
    rw [Set.range_list_map]
    intro p hp
    obtain ⟨x, hx, rfl⟩ := List.mem_map.1 hp
    exact ⟨⟨x, a + b * x, (size_le_cost hb x).trans (hcosts x hx), hcosts x hx⟩, rfl⟩
  obtain ⟨samples, hsamples⟩ := hsamples
  cases samples with
  | nil => exact absurd (List.map_eq_nil_iff.1 hsamples.symm) hne
  | cons first rest => exact ⟨⟨first, rest⟩, hsamples⟩

section Points

variable {sizes : List ℕ}
  (hpoints : s.toList.map (fun t => (t.size, t.cost)) = sizes.map fun x => (x, a + b * x))
include hpoints

theorem onLine_of_points : s.OnLine a b := by
  intro t ht
  have hmem := List.mem_map_of_mem (f := fun t : Sample => (t.size, t.cost)) ht
  rw [hpoints] at hmem
  obtain ⟨x, -, hx⟩ := List.mem_map.1 hmem
  obtain ⟨hsize, hcost⟩ := Prod.mk.inj hx
  rw [← hcost, hsize]

theorem exists_mem_of_points {x : ℕ} (hx : x ∈ sizes) : ∃ t ∈ s.toList, t.size = x := by
  have hmem := List.mem_map_of_mem (f := fun x => (x, a + b * x)) hx
  rw [← hpoints] at hmem
  obtain ⟨t, ht, heq⟩ := List.mem_map.1 hmem
  exact ⟨t, ht, congrArg Prod.fst heq⟩

theorem not_oneSize_of_points (h : ∃ x ∈ sizes, ∃ y ∈ sizes, x ≠ y) : ¬ s.OneSize := by
  obtain ⟨x, hx, y, hy, hne⟩ := h
  obtain ⟨t, ht, rfl⟩ := exists_mem_of_points hpoints hx
  obtain ⟨u, hu, rfl⟩ := exists_mem_of_points hpoints hy
  exact fun hone => hne (hone t ht u hu)

theorem ofPairs_of_points {α : Type} [Datum.CallRoom] {data : Datum} (h : splitPairs data =
      .ok (sizes.map fun x => (.whole (x : ℕ), .whole (a + b * x : ℕ)))) :
    ofPairs (α := α) data = .ok s := by
  apply ofPairs_eq_ok
  have hwhole := congrArg
    (List.map fun p : ℕ × ℕ => (Datum.whole (p.1 : ℕ), Datum.whole (p.2 : ℕ))) hpoints
  rw [List.map_map, List.map_map] at hwhole
  rw [h]
  exact congrArg Except.ok hwhole.symm

end Points

end SampleSet

/-! ## Section 3: integer parameters -/

theorem quantizeParameter_natCast {n : ℕ} (h : n ≤ u64Max) (parameter : String) :
    quantizeParameter parameter (n : ℚ) = .ok ⟨n, h⟩ := by
  have hnat : (nearestTenth (n : ℚ)).ceil.toNat = n := by
    rw [ceil_nearestTenth_natCast, Int.toNat_natCast]
  rw [quantizeParameter_of_nonneg (Nat.cast_nonneg n)]
  simp only [hnat, h, dif_pos]

theorem CostModel.quantize_natCast (ha : a ≤ u64Max) (hb : b ≤ u64Max) (quality : ℚ) :
    (CostModel.mk (a : ℚ) b quality).quantize.outcome = .ok ⟨a, b, ha, hb⟩ := by
  rw [outcome_quantize, quantizeParameter_natCast ha, quantizeParameter_natCast hb]
  rfl

/-! ## Section 4: runs -/

namespace Calibration

theorem ownOutcome_line [Datum.CallRoom] {s : SampleSet} {data : Datum} {name : Text}
    (hdata : SampleSet.ofPairs (α := ℚ) data = .ok s) (hname : name ≠ "") (h : s.OnLine a b)
    (hsizes : ¬ s.OneSize) (hb : 1 ≤ b) (ha : a ≤ u64Max) (hble : b ≤ u64Max) :
    ownOutcome name data = .ok (CostModel.mk (a : ℚ) b 1, ⟨a, b, ha, hble⟩) := by
  unfold ownOutcome calibrateSamples
  rw [if_neg hname]
  simp [hdata, h.outcome_fit_eq hb hsizes, CostModel.quantize_natCast ha hble, Except.bind]

/-- A line of the best quality is not up for review below that quality. -/
theorem fitsBelow_line {bound : Extended} (h : Extended.less (.finite 1) bound = false)
    (const lin : ℚ) : fitsBelow bound (CostModel.mk const lin 1) = false := by
  unfold fitsBelow
  rw [show Quantity.value (1 : ℚ) = .finite 1 from rfl, h, Bool.and_false]

/-- Both parameters of a line are below some cost on it. -/
theorem parameters_le_u64Max {sizes : List ℕ} (hsizes : ∃ x ∈ sizes, ∃ y ∈ sizes, x ≠ y)
    (hcosts : ∀ x ∈ sizes, a + b * x ≤ u64Max) : a ≤ u64Max ∧ b ≤ u64Max := by
  obtain ⟨x, hx, y, hy, hne⟩ := hsizes
  have hcost : ∀ z ∈ sizes, 0 < z → b ≤ u64Max := fun z hz hpos =>
    calc b ≤ b * z := Nat.le_mul_of_pos_right b hpos
      _ ≤ a + b * z := Nat.le_add_left _ _
      _ ≤ u64Max := hcosts z hz
  refine ⟨(Nat.le_add_right _ _).trans (hcosts x hx), ?_⟩
  rcases Nat.eq_zero_or_pos x with rfl | hpos
  · exact hcost y hy (Nat.pos_of_ne_zero hne.symm)
  · exact hcost x hx hpos

/-- Exact costs are recovered exactly.  Samples on a rising line that have at
    least two sizes, in any order and with any repetitions, are fitted and
    quantized by that line.  A run that they are part of puts it in its
    table, does not list it for review up to a threshold of 1, and charges
    every size that was sampled its measured cost. -/
theorem calibrate_recovers_line [Datum.CallRoom] {sizes : List ℕ} (hb : 1 ≤ b)
    (hsizes : ∃ x ∈ sizes, ∃ y ∈ sizes, x ≠ y) (hcosts : ∀ x ∈ sizes, a + b * x ≤ u64Max)
    {data : Datum} (hdata : SampleSet.splitPairs data =
      .ok (sizes.map fun x => (.whole (x : ℕ), .whole (a + b * x : ℕ))))
    {jobs : Jobs} {name : Text} {threshold : Datum} {bound : Extended} {now : Timestamp}
    (hnamed : jobs.Named) (hname : name ≠ "") (hjob : jobs.get? (.text name) = some data)
    (hothers : ∀ other samples, jobs.get? (.text other) = some samples → other ≠ name →
      hidesUnshowable samples = false)
    (hthreshold : thresholdValue? threshold = some bound)
    (hbound : Extended.less (.finite 1) bound = false) :
    ∃ (set : SampleSet) (quantized : QuantizedModel) (report : Report ℚ),
      SampleSet.ofPairs (α := ℚ) data = .ok set ∧
      (∀ operation, (set.fit operation).outcome = .ok (CostModel.mk (a : ℚ) b 1)) ∧
      (CostModel.mk (a : ℚ) b 1).quantize.outcome = .ok quantized ∧
      quantized.constParam = a ∧ quantized.linParam = b ∧
      (calibrate jobs threshold now).outcome = .ok report ∧
      report.models.get? name = some (CostModel.mk (a : ℚ) b 1) ∧
      report.table.entries.get? name = some quantized ∧
      name ∉ report.needsReview ∧
      ∀ operation : Datum, operation.identifier? = some name → ∀ x ∈ sizes,
        (report.table.evaluate operation x).outcome = .ok (a + b * x) := by
  -- The samples lie on the line and have two sizes.
  obtain ⟨ha, hble⟩ := parameters_le_u64Max hsizes hcosts
  have hne : sizes ≠ [] := by
    obtain ⟨x, hx, -⟩ := hsizes
    exact List.ne_nil_of_mem hx
  obtain ⟨set, hpoints⟩ := SampleSet.exists_points_eq hne hb hcosts
  have hset := SampleSet.ofPairs_of_points (α := ℚ) hpoints hdata
  have hline := SampleSet.onLine_of_points hpoints
  have hseveral := SampleSet.not_oneSize_of_points hpoints hsizes
  -- So the job's own outcome is the line, and it stays that in the report of
  -- all jobs.
  have hown := ownOutcome_line hset hname hline hseveral hb ha hble
  have hshort : hidesUnshowable data = false := by
    rw [← Bool.not_eq_true, ← ofPairs_eq_unshown_iff (β := ℚ), hset]
    exact nofun
  -- There is a report, since no job holds a value that cannot be shown.
  have hshorts : ∀ other samples, jobs.get? (.text other) = some samples → other ≠ "" →
      hidesUnshowable samples = false := by
    intro other samples hsamples _
    by_cases hother : other = name
    · subst hother
      cases hjob.symm.trans hsamples
      exact hshort
    · exact hothers other samples hsamples hother
  have hreports : ∃ report : Report ℚ, (calibrate jobs threshold now).outcome = .ok report :=
    (exists_calibrate_iff hnamed hthreshold).2 hshorts
  obtain ⟨report, hreport⟩ := hreports
  have hdivides := divides_of_calibrate hnamed hthreshold hreport
  have hmodel := (hdivides.models name _).2 ⟨data, _, hjob, hown⟩
  have htable := (hdivides.table name _).2 ⟨data, _, hjob, hown⟩
  refine ⟨set, ⟨a, b, ha, hble⟩, report, hset, hline.outcome_fit_eq hb hseveral,
    CostModel.quantize_natCast ha hble 1, rfl, rfl, hreport, hmodel, htable, ?_, ?_⟩
  -- A quality of 1 is below no threshold up to 1.
  · intro hlisted
    obtain ⟨model, hmodel', hfits⟩ := (hdivides.review name).1 hlisted
    cases hmodel.symm.trans hmodel'
    rw [fitsBelow_line hbound] at hfits
    cases hfits
  -- The bound on the costs keeps the evaluation from saturating.
  · intro operation hoperation x hx
    rw [report.table.outcome_evaluate hoperation, htable]
    dsimp only
    have hsize := (SampleSet.size_le_cost hb x).trans (hcosts x hx)
    rw [QuantizedModel.evaluate_line hsize (hcosts x hx)]
    rfl

/-- Costs `7 + 3 * size` that do not start with the smallest size, one of
    them measured twice. -/
def lineData : Datum :=
  .list [.sample (.whole 4) (.whole 19), .list [.whole 0, .whole 7],
    .list [.whole 4, .whole 19], .list [.whole 9, .whole 34]]

def lineJobs : Jobs :=
  ⟨[(.operation .hostMemCpy, lineData),
    (.text "HostMemAlloc", .list [.list [.bool true, .whole 1]])], by decide⟩

section Examples

open scoped Datum.CallRoom

theorem lineJobs_recovered :
    ∃ (set : SampleSet) (quantized : QuantizedModel) (report : Report ℚ),
      SampleSet.ofPairs (α := ℚ) lineData = .ok set ∧
      (∀ operation, (set.fit operation).outcome =
        .ok (CostModel.mk ((7 : ℕ) : ℚ) (3 : ℕ) 1)) ∧
      (CostModel.mk ((7 : ℕ) : ℚ) (3 : ℕ) 1).quantize.outcome = .ok quantized ∧
      quantized.constParam = 7 ∧ quantized.linParam = 3 ∧
      (calibrate lineJobs (.whole 1) ⟨0, 0⟩).outcome = .ok report ∧
      report.models.get? ("HostMemCpy" : Text) = some (CostModel.mk ((7 : ℕ) : ℚ) (3 : ℕ) 1) ∧
      report.table.entries.get? ("HostMemCpy" : Text) = some quantized ∧
      ("HostMemCpy" : Text) ∉ report.needsReview ∧
      ∀ operation : Datum, operation.identifier? = some ("HostMemCpy" : Text) →
        ∀ x ∈ [4, 0, 4, 9],
          (report.table.evaluate operation (x : ℕ)).outcome =
            .ok ((7 : ℕ) + (3 : ℕ) * (x : ℕ)) := by
  have hdata : SampleSet.splitPairs lineData =
      .ok ([4, 0, 4, 9].map fun x => (.whole (x : ℕ), .whole (7 + 3 * x : ℕ))) := rfl
  have hnamed : lineJobs.Named := by decide
  have hname : ("HostMemCpy" : Text) ≠ "" := by decide
  have hjob : lineJobs.get? (.text "HostMemCpy") = some lineData := rfl
  have hthreshold : thresholdValue? (.whole 1) = some (.finite 1) := rfl
  have hbound : Extended.less (.finite 1) (.finite 1) = false := by decide
  have hshort : ∀ job ∈ lineJobs.entries, hidesUnshowable job.2 = false := by decide
  -- The other jobs must be free of values that cannot be shown.
  refine calibrate_recovers_line (by decide) (by decide) (by decide) hdata hnamed hname hjob ?_
    hthreshold hbound
  intro other samples hsamples _
  obtain ⟨key, hmem, -⟩ := OrderedMap.exists_mem_of_get?_eq_some hsamples
  exact hshort _ hmem

end Examples

end Calibration
end CalibratedCosts
