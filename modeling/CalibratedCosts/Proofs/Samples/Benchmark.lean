import Mathlib
import CalibratedCosts.Proofs.Calibration.Recovery
import CalibratedCosts.Proofs.OrderedMap
import CalibratedCosts.Samples.Benchmark

/-! # What a benchmark measures

    A machine is watched while an operation is measured on it: the readings of
    its clock are noted, and the reasons of attempts that fail.  Watching
    changes nothing.

    * **Timing**: each sample takes two readings of the clock, one after the
      other, so that the k-th sample is timed by the readings `2 * k` and
      `2 * k + 1`, and sizes come in order.
    * **Failure**: the first attempt that fails is the last one, and the
      operation has no samples then.  The failure is an error of the source
      unless the size cannot be written.
    * **Contract**: a fit does not refuse samples of 64 bits.
-/

namespace CalibratedCosts.Samples

variable {σ ι α ε : Type}

/-! ## Section 1: watched machines -/

/-- A machine, what was read off its clock and why attempts on it failed, in
    order. -/
structure Watched (σ : Type) where
  machine : σ
  readings : List Int
  failures : List String

namespace Watched

/-- A machine of which nothing has been seen. -/
def start (s : σ) : Watched σ := ⟨s, [], []⟩

/-- An attempt on a watched machine.  What it gives is noted as some
    readings. -/
def attempt (readings : α → List Int) (f : Attempt σ α) : Attempt (Watched σ) α := fun w =>
  match f w.machine with
  | (.ok a, s) => (.ok a, ⟨s, w.readings ++ readings a, w.failures⟩)
  | (.error reason, s) => (.error reason, ⟨s, w.readings, w.failures ++ [reason]⟩)

end Watched

/-- The benchmark on a watched machine. -/
def Benchmark.watched (benchmark : Benchmark σ ι) : Benchmark (Watched σ) ι where
  setup size := Watched.attempt (fun _ => []) (benchmark.setup size)
  run input := Watched.attempt (fun _ => []) (benchmark.run input)
  fixedSize := benchmark.fixedSize

/-- The source on a watched machine, where each reading of the clock is
    noted. -/
def BenchmarkSource.watched (source : BenchmarkSource σ ι) : BenchmarkSource (Watched σ) ι where
  sizes := source.sizes
  iterations := source.iterations
  clock := Watched.attempt (fun t => [t]) source.clock
  benchmarks := source.benchmarks.mapValues Benchmark.watched
  positive := source.positive
  sized := source.sized

/-- What became of a watched machine, next to what became of the machine
    alone: the same, with the readings that belong to the result or with one
    more failure. -/
inductive Follows (w : Watched σ) (result : α → List Int → Prop) (failure : String → ε → Prop) :
    Except ε α × σ → Except ε α × Watched σ → Prop where
  | ok (a : α) (s : σ) (readings : List Int) (h : result a readings) :
    Follows w result failure (.ok a, s) (.ok a, ⟨s, w.readings ++ readings, w.failures⟩)
  | error (e : ε) (s : σ) (readings : List Int) (reason : String) (h : failure reason e) :
    Follows w result failure (.error e, s) (.error e, ⟨s, readings, w.failures ++ [reason]⟩)

theorem Watched.attempt_follows (readings : α → List Int) (f : Attempt σ α) (w : Watched σ) :
    Follows w (fun a r => r = readings a) (fun reason e => e = reason ∧ (f w.machine).1 = .error e)
      (f w.machine) (Watched.attempt readings f w) := by
  unfold Watched.attempt
  rcases f w.machine with ⟨reason | a, s⟩
  · exact .error reason s _ reason ⟨rfl, rfl⟩
  · exact .ok a s _ rfl

/-- A result that takes no further attempt. -/
theorem Follows.pure {w : Watched σ} {result : α → List Int → Prop} {failure : String → ε → Prop}
    {a : α} (h : result a []) : Follows w result failure (.ok a, w.machine) (.ok a, w) := by
  have hok : Follows w result failure (.ok a, w.machine)
      (.ok a, ⟨w.machine, w.readings ++ [], w.failures⟩) := .ok a w.machine [] h
  rwa [List.append_nil] at hok

/-- Goes on from a result, or turns an error into another one. -/
def andThen {ε' β : Type} (fault : ε → ε') (x : Except ε α × σ) (next : α → σ → Except ε' β × σ) :
    Except ε' β × σ :=
  match x with
  | (.error e, s) => (.error (fault e), s)
  | (.ok a, s) => next a s

/-- One after the other is followed if each of the two is. -/
theorem Follows.andThen {ε' β : Type} {w : Watched σ} {result : α → List Int → Prop}
    {failure : String → ε → Prop} {result' : β → List Int → Prop} {failure' : String → ε' → Prop}
    {fault : ε → ε'} {x : Except ε α × σ} {x' : Except ε α × Watched σ}
    {next : α → σ → Except ε' β × σ} {next' : α → Watched σ → Except ε' β × Watched σ}
    (hx : Follows w result failure x x')
    (hfault : ∀ reason e, failure reason e → failure' reason (fault e))
    (hnext : ∀ a s r, result a r → Follows ⟨s, w.readings ++ r, w.failures⟩
      (fun b r' => result' b (r ++ r')) failure' (next a s)
      (next' a ⟨s, w.readings ++ r, w.failures⟩)) :
    Follows w result' failure' (Samples.andThen fault x next)
      (Samples.andThen fault x' next') := by
  cases hx with
  | error e s readings reason h => exact .error (fault e) s readings reason (hfault reason e h)
  | ok a s r h =>
    -- What comes next starts on a machine whose readings so far are noted.
    have hstep := hnext a s r h
    show Follows w result' failure' (next a s) (next' a ⟨s, w.readings ++ r, w.failures⟩)
    generalize next a s = y at hstep ⊢
    generalize next' a ⟨s, w.readings ++ r, w.failures⟩ = y' at hstep ⊢
    cases hstep with
    | error e s readings reason h => exact .error e s readings reason h
    | ok b s r' h =>
      rw [List.append_assoc]
      exact .ok b s _ h

/-! ## Section 2: timing -/

/-- Samples at some sizes, each timed by two readings of the clock. -/
inductive Timed : (sizes : List Int) → List Measurement → (readings : List Int) → Prop where
  | nil : Timed [] [] []
  | cons {sizes : List Int} {samples : List Measurement} {readings : List Int}
    (size start stop : Int) (h : Timed sizes samples readings) :
    Timed (size :: sizes) (⟨size, max (stop - start) 0⟩ :: samples) (start :: stop :: readings)

namespace Timed

variable {sizes more : List Int} {samples samples' : List Measurement} {readings readings' : List Int}

theorem append (h : Timed sizes samples readings) (h' : Timed more samples' readings') :
    Timed (sizes ++ more) (samples ++ samples') (readings ++ readings') := by
  induction h with
  | nil => exact h'
  | cons size start stop _ ih => exact ih.cons size start stop

theorem map_size (h : Timed sizes samples readings) : samples.map (·.size) = sizes := by
  induction h with
  | nil => rfl
  | cons size start stop _ ih => rw [List.map_cons, ih]

theorem length_samples (h : Timed sizes samples readings) : samples.length = sizes.length := by
  rw [← h.map_size, List.length_map]

theorem length_readings (h : Timed sizes samples readings) :
    readings.length = 2 * sizes.length := by
  induction h with
  | nil => rfl
  | cons size start stop _ ih =>
    rw [List.length_cons, List.length_cons, List.length_cons, ih]
    omega

theorem cost_nonneg (h : Timed sizes samples readings) : ∀ m ∈ samples, 0 ≤ m.cost := by
  induction h with
  | nil => simp
  | cons size start stop _ ih => exact List.forall_mem_cons.2 ⟨le_max_right _ _, ih⟩

/-- The k-th sample is at the k-th size, and is timed by the readings `2 * k`
    and `2 * k + 1`. -/
theorem exists_getElem? (h : Timed sizes samples readings) {k : ℕ} (hk : k < sizes.length) :
    ∃ size start stop, sizes[k]? = some size ∧ readings[2 * k]? = some start ∧
      readings[2 * k + 1]? = some stop ∧ samples[k]? = some ⟨size, max (stop - start) 0⟩ := by
  induction h generalizing k with
  | nil => exact absurd hk (Nat.not_lt_zero k)
  | cons size start stop _ ih =>
    cases k with
    | zero => exact ⟨size, start, stop, rfl, rfl, rfl, rfl⟩
    | succ k =>
      rw [List.length_cons] at hk
      exact ih (by omega)

end Timed

namespace BenchmarkSource

variable {source : BenchmarkSource σ ι} {benchmark : Benchmark σ ι}

/-- An attempt that is made for a benchmark fails in some state. -/
inductive CanFail (source : BenchmarkSource σ ι) (benchmark : Benchmark σ ι) (reason : String) :
    Prop where
  | clock (s : σ) (h : (source.clock s).1 = .error reason)
  | setup (size : Int) (s : σ) (h : (benchmark.setup size s).1 = .error reason)
  | run (input : ι) (s : σ) (h : (benchmark.run input s).1 = .error reason)

theorem timeRun_eq (source : BenchmarkSource σ ι) (benchmark : Benchmark σ ι) (input : ι) (s : σ) :
    source.timeRun benchmark input s =
      andThen id (source.clock s) fun start s => andThen id (benchmark.run input s) fun _ s =>
        andThen id (source.clock s) fun stop s => (.ok (max (stop - start) 0), s) := by
  -- The clock, the run and the clock again may each raise.
  unfold timeRun andThen
  rcases source.clock s with ⟨reason | start, s⟩
  · rfl
  · dsimp only
    rcases benchmark.run input s with ⟨reason | done, s⟩
    · rfl
    · dsimp only
      rcases source.clock s with ⟨reason | stop, s⟩
      · rfl
      · rfl

theorem timeRuns_succ (source : BenchmarkSource σ ι) (benchmark : Benchmark σ ι) (input : ι)
    (size : Int) (count : ℕ) (s : σ) :
    source.timeRuns benchmark input size (count + 1) s =
      andThen id (source.timeRun benchmark input s) fun cost s =>
        andThen id (source.timeRuns benchmark input size count s) fun rest s =>
          (.ok (⟨size, cost⟩ :: rest), s) := by
  rw [timeRuns]
  unfold andThen
  rcases source.timeRun benchmark input s with ⟨reason | cost, s⟩
  · rfl
  · dsimp only
    rcases source.timeRuns benchmark input size count s with ⟨reason | rest, s⟩
    · rfl
    · rfl

theorem measureSize_eq (source : BenchmarkSource σ ι) (benchmark : Benchmark σ ι) (size : Int)
    (s : σ) : source.measureSize benchmark size s =
      andThen id (benchmark.setup size s) fun input s =>
        source.timeRuns benchmark input size source.iterations s := by
  unfold measureSize andThen
  rcases benchmark.setup size s with ⟨reason | input, s⟩
  · rfl
  · rfl

theorem measureSizes_cons (source : BenchmarkSource σ ι) (benchmark : Benchmark σ ι) (name : Text)
    (size : Int) (rest : List Int) (s : σ) :
    source.measureSizes benchmark name (size :: rest) s =
      andThen (failedAt name size) (source.measureSize benchmark size s) fun measurements s =>
        andThen id (source.measureSizes benchmark name rest s) fun more s =>
          (.ok (measurements ++ more), s) := by
  rw [measureSizes]
  unfold andThen
  -- A raised reason is the only thing that stops the sizes.
  rcases source.measureSize benchmark size s with ⟨reason | measurements, s⟩
  · rfl
  · dsimp only
    rcases source.measureSizes benchmark name rest s with ⟨e | more, s⟩
    · rfl
    · rfl

/-- A run takes two readings, and costs what lies between them. -/
theorem timeRun_follows (input : ι) (w : Watched σ) :
    Follows w (fun cost r => ∃ start stop, r = [start, stop] ∧ cost = max (stop - start) 0)
      (fun reason e => e = reason ∧ source.CanFail benchmark reason)
      (source.timeRun benchmark input w.machine)
      (source.watched.timeRun benchmark.watched input w) := by
  rw [timeRun_eq, timeRun_eq]
  apply (Watched.attempt_follows _ source.clock w).andThen
  · rintro reason e ⟨rfl, hfails⟩
    exact ⟨rfl, .clock _ hfails⟩
  · rintro start s r rfl
    apply (Watched.attempt_follows _ (benchmark.run input) _).andThen
    · rintro reason e ⟨rfl, hfails⟩
      exact ⟨rfl, .run _ _ hfails⟩
    · rintro done s r rfl
      apply (Watched.attempt_follows _ source.clock _).andThen
      · rintro reason e ⟨rfl, hfails⟩
        exact ⟨rfl, .clock _ hfails⟩
      · rintro stop s r rfl
        exact .pure ⟨start, stop, rfl, rfl⟩

/-- Runs on one input take two readings each. -/
theorem timeRuns_follows (input : ι) (size : Int) (count : ℕ) (w : Watched σ) :
    Follows w (Timed (List.replicate count size))
      (fun reason e => e = reason ∧ source.CanFail benchmark reason)
      (source.timeRuns benchmark input size count w.machine)
      (source.watched.timeRuns benchmark.watched input size count w) := by
  induction count generalizing w with
  | zero => exact .pure .nil
  | succ count ih =>
    rw [timeRuns_succ, timeRuns_succ]
    apply (timeRun_follows input w).andThen
    · exact fun reason e h => h
    · rintro cost s r ⟨start, stop, rfl, rfl⟩
      apply (ih _).andThen
      · exact fun reason e h => h
      · intro rest s r hrest
        apply Follows.pure
        rw [List.append_nil]
        exact hrest.cons size start stop

theorem measureSize_follows (size : Int) (w : Watched σ) :
    Follows w (Timed (List.replicate source.iterations size))
      (fun reason e => e = reason ∧ source.CanFail benchmark reason)
      (source.measureSize benchmark size w.machine)
      (source.watched.measureSize benchmark.watched size w) := by
  rw [measureSize_eq, measureSize_eq]
  apply (Watched.attempt_follows _ (benchmark.setup size) w).andThen
  · rintro reason e ⟨rfl, hfails⟩
    exact ⟨rfl, .setup _ _ hfails⟩
  · rintro input s r rfl
    exact timeRuns_follows input size source.iterations _

/-- Sizes are measured in order, each a number of times.  A failure is told
    with the size at which it came up. -/
theorem measureSizes_follows (name : Text) (sizes : List Int) (w : Watched σ) :
    Follows w (Timed (sizes.flatMap (List.replicate source.iterations)))
      (fun reason e => source.CanFail benchmark reason ∧
        ∃ size ∈ sizes, e = failedAt name size reason)
      (source.measureSizes benchmark name sizes w.machine)
      (source.watched.measureSizes benchmark.watched name sizes w) := by
  induction sizes generalizing w with
  | nil => exact .pure .nil
  | cons size rest ih =>
    rw [measureSizes_cons, measureSizes_cons]
    apply (measureSize_follows size w).andThen
    · rintro reason e ⟨rfl, hfails⟩
      exact ⟨hfails, size, List.mem_cons_self, rfl⟩
    · intro samples s r hsamples
      apply (ih _).andThen
      · rintro reason e ⟨hfails, size', hmem, he⟩
        exact ⟨hfails, size', List.mem_cons_of_mem _ hmem, he⟩
      · intro more s r' hmore
        apply Follows.pure
        rw [List.append_nil]
        exact hsamples.append hmore

end BenchmarkSource

/-! ## Section 3: positions -/

theorem getElem?_flatMap_replicate {n : ℕ} (hn : 0 < n) (sizes : List Int) (k : ℕ) :
    (sizes.flatMap (List.replicate n))[k]? = sizes[k / n]? := by
  induction sizes generalizing k with
  | nil => simp
  | cons size rest ih =>
    rw [List.flatMap_cons]
    -- The first `n` places are of the first size, the others of the rest.
    by_cases hk : k < n
    · rw [List.getElem?_append_left (by simpa using hk), List.getElem?_replicate_of_lt hk,
        Nat.div_eq_of_lt hk]
      rfl
    · rw [List.getElem?_append_right (by simpa using hk), List.length_replicate, ih,
        Nat.div_eq_sub_div hn (not_lt.1 hk)]
      rfl

theorem pairwise_flatMap_replicate {sizes : List Int} (h : sizes.Pairwise (· ≤ ·)) (n : ℕ) :
    (sizes.flatMap (List.replicate n)).Pairwise (· ≤ ·) := by
  rw [List.pairwise_flatMap]
  constructor
  · intro size _
    exact List.pairwise_replicate.2 (.inr le_rfl)
  · refine h.imp ?_
    intro a b hab x hx y hy
    rw [List.eq_of_mem_replicate hx, List.eq_of_mem_replicate hy]
    exact hab

/-- Samples at some sizes in order, a number of times at each, as the readings
    of a clock give them. -/
structure SampledBy (sizes : List Int) (iterations : ℕ) (readings : List Int)
    (samples : List Measurement) : Prop where
  length_readings : readings.length = 2 * (sizes.length * iterations)
  length_samples : samples.length = sizes.length * iterations
  sample : ∀ k < sizes.length * iterations, ∃ size start stop,
    sizes[k / iterations]? = some size ∧ readings[2 * k]? = some start ∧
    readings[2 * k + 1]? = some stop ∧ samples[k]? = some ⟨size, max (stop - start) 0⟩

theorem Timed.sampledBy {sizes : List Int} {iterations : ℕ} {readings : List Int}
    {samples : List Measurement} (h : Timed (sizes.flatMap (List.replicate iterations)) samples readings)
    (hpos : 0 < iterations) : SampledBy sizes iterations readings samples := by
  have hlength : (sizes.flatMap (List.replicate iterations)).length = sizes.length * iterations := by
    simp [List.length_flatMap]
  refine ⟨by rw [h.length_readings, hlength], by rw [h.length_samples, hlength], ?_⟩
  intro k hk
  obtain ⟨size, start, stop, hsize, hsample⟩ := h.exists_getElem? (hlength ▸ hk)
  rw [getElem?_flatMap_replicate hpos] at hsize
  exact ⟨size, start, stop, hsize, hsample⟩

/-! ## Section 4: fits -/

/-- The fit of samples as a source gives them. -/
def fitSamples [Quantity α] [Numerics α] [Datum.CallRoom] (samples : List Measurement)
    (operation : Option Text) : Except (CostModelError α) (CostModel α) := do
  let set ← SampleSet.ofColumns (samples.map fun m => .whole m.size)
    (samples.map fun m => .whole m.cost)
  (set.fit operation).outcome

/-- Samples of 64 bits are a sample set, if there is one. -/
theorem exists_sampleSet {samples : List Measurement} (hne : samples ≠ [])
    (hsizes : ∀ m ∈ samples, 0 ≤ m.size ∧ m.size ≤ u64Max)
    (hcosts : ∀ m ∈ samples, 0 ≤ m.cost ∧ m.cost ≤ u64Max) :
    ∃ set : SampleSet, set.toList.map (fun t => Measurement.mk t.size t.cost) = samples := by
  -- Every measurement is in range, so the list of them is the image of a list
  -- of samples.
  have hrange : samples ∈ Set.range (List.map fun t : Sample => Measurement.mk t.size t.cost) := by
    rw [Set.range_list_map]
    intro m hm
    have hsize := hsizes m hm
    have hcost := hcosts m hm
    refine ⟨⟨m.size.toNat, m.cost.toNat, by omega, by omega⟩, ?_⟩
    simp only [Int.toNat_of_nonneg hsize.1, Int.toNat_of_nonneg hcost.1]
  obtain ⟨list, rfl⟩ := hrange
  cases list with
  | nil => exact absurd rfl hne
  | cons first rest => exact ⟨⟨first, rest⟩, rfl⟩

theorem fitSamples_ne_invalid [Quantity α] [Numerics α] [Datum.CallRoom]
    {samples : List Measurement} (hne : samples ≠ [])
    (hsizes : ∀ m ∈ samples, 0 ≤ m.size ∧ m.size ≤ u64Max)
    (hcosts : ∀ m ∈ samples, 0 ≤ m.cost ∧ m.cost ≤ u64Max) (operation : Option Text)
    (fault : SampleFault) :
    fitSamples samples operation ≠ .error (.invalidSampleSet fault : CostModelError α) := by
  obtain ⟨set, rfl⟩ := exists_sampleSet hne hsizes hcosts
  have hset := SampleSet.ofColumns_whole (α := α) set
  unfold fitSamples
  rw [List.map_map, List.map_map]
  refine bind_ne_error ?_ fun set' => ?_
  · intro h
    cases hset.symm.trans h
  · exact Calibration.outcome_fit_ne_error (e := .invalidSampleSet fault) trivial set' operation

/-- What a fit relies on: sizes do not fall, nothing is negative, and samples
    of 64 bits are not refused. -/
structure Fittable (samples : List Measurement) : Prop where
  sorted : samples.Pairwise fun a b => a.size ≤ b.size
  size_nonneg : ∀ m ∈ samples, 0 ≤ m.size
  cost_nonneg : ∀ m ∈ samples, 0 ≤ m.cost
  accepted : (∀ m ∈ samples, m.size ≤ u64Max ∧ m.cost ≤ u64Max) →
    ∀ {α : Type} [Quantity α] [Numerics α] [Datum.CallRoom] (operation : Option Text)
      (fault : SampleFault),
      fitSamples samples operation ≠ .error (.invalidSampleSet fault : CostModelError α)

theorem Timed.fittable {sizes : List Int} {iterations : ℕ} {readings : List Int}
    {samples : List Measurement} (h : Timed (sizes.flatMap (List.replicate iterations)) samples readings)
    (hpos : 0 < iterations) (hne : sizes ≠ []) (hnonneg : ∀ size ∈ sizes, 0 ≤ size)
    (hsorted : sizes.Pairwise (· ≤ ·)) : Fittable samples := by
  -- A measurement of some size comes from the ladder, which holds no negative
  -- one.
  have hsize : ∀ m ∈ samples, 0 ≤ m.size := by
    intro m hm
    have hmem := List.mem_map_of_mem (f := fun m : Measurement => m.size) hm
    rw [h.map_size] at hmem
    obtain ⟨size, hsize, hreplicated⟩ := List.mem_flatMap.1 hmem
    rw [List.eq_of_mem_replicate hreplicated]
    exact hnonneg size hsize
  have hsamples : samples ≠ [] := by
    rw [← List.length_pos_iff, (h.sampledBy hpos).length_samples]
    exact Nat.mul_pos (List.length_pos_iff.2 hne) hpos
  refine ⟨?_, hsize, h.cost_nonneg, ?_⟩
  · have hpairs := pairwise_flatMap_replicate hsorted iterations
    rw [← h.map_size] at hpairs
    exact List.pairwise_map.1 hpairs
  · intro hlimits α _ _ _
    exact fitSamples_ne_invalid hsamples (fun m hm => ⟨hsize m hm, (hlimits m hm).1⟩)
      fun m hm => ⟨h.cost_nonneg m hm, (hlimits m hm).2⟩

/-! ## Section 5: collecting -/

theorem integersOf_whole (ladder : List Int) : integersOf (ladder.map .whole) = .ok ladder := by
  cases ladder with
  | nil => rfl
  | cons size rest =>
    have hfind : (rest.map Datum.whole).find? (fun d => d.kind != "int") = none := by
      rw [List.find?_eq_none]
      intro d hd
      obtain ⟨n, -, rfl⟩ := List.mem_map.1 hd
      simp [Datum.kind]
    rw [List.map_cons, integersOf, hfind, List.filterMap_map]
    exact congrArg (fun rest => Except.ok (size :: rest)) List.filterMap_some

namespace BenchmarkSource

variable {ladder : List Int} {iterations : Int} {clock : Attempt σ Int}
  {benchmarks : OrderedMap Text (Benchmark σ ι)}

/-- A ladder of sizes is put in order. -/
theorem exists_create_eq_ok (hladder : ladder ≠ []) (hnonneg : ∀ size ∈ ladder, 0 ≤ size)
    (hiterations : 1 ≤ iterations) :
    ∃ source, create (ladder.map .whole) iterations clock benchmarks = .ok source ∧
      source.sizes = sortIntegers ladder ∧ source.iterations = iterations.toNat ∧
      source.benchmarks = benchmarks := by
  unfold create
  rw [dif_neg (not_lt.2 hiterations), integersOf_whole]
  dsimp only
  -- Sorting permutes the ladder, so it stays free of negative sizes and not
  -- empty.
  have hperm : (sortIntegers ladder).Perm ladder := List.mergeSort_perm _ _
  cases hsorted : sortIntegers ladder with
  | nil =>
    rw [hsorted] at hperm
    exact absurd hperm.symm.eq_nil hladder
  | cons size rest =>
    have hsize : ¬ size < 0 := by
      rw [hsorted] at hperm
      exact not_lt.2 (hnonneg size (hperm.subset List.mem_cons_self))
    dsimp only
    rw [if_neg hsize]
    exact ⟨_, rfl, rfl, rfl, rfl⟩

/-- Collects the samples of an operation while the machine is watched. -/
def watch (source : BenchmarkSource σ ι) (operation : Datum) (s : σ) :
    Traced CollectError (List Measurement) × Watched σ :=
  source.watched.source.collectOne operation (.start s)

/-- What collecting the samples of an operation comes to, and what is seen of
    the machine meanwhile. -/
structure Measures (source : BenchmarkSource σ ι) (operation : Datum) (name : Text)
    (benchmark : Benchmark σ ι) (sizes : List Int) (s : σ) : Prop where
  outcome : (source.watch operation s).1 = (source.source.collectOne operation s).1
  machine : (source.watch operation s).2.machine = (source.source.collectOne operation s).2
  measured : (source.watch operation s).2.failures = [] →
    ∃ samples, (source.source.collectOne operation s).1.outcome = .ok samples ∧
      SampledBy sizes source.iterations (source.watch operation s).2.readings samples ∧
      Fittable samples
  failed : (source.watch operation s).2.failures ≠ [] →
    ∃ reason, (source.watch operation s).2.failures = [reason] ∧
      source.CanFail benchmark reason ∧
      ∃ size ∈ sizes, (source.source.collectOne operation s).1.outcome =
        .error (if Numeral.isWritable size then .source (.benchmarkFailed name size reason)
          else .unwritable)

section Collect

variable {source : BenchmarkSource σ ι} {benchmark : Benchmark σ ι} {operation : Datum}
  {name : Text} {s s' : σ}

theorem collectOne_eq (hname : operation.Names name) :
    source.source.collectOne operation s = source.collect name s := by
  unfold SampleSource.collectOne
  rw [Datum.identifier_eq_ok (Datum.names_iff.1 hname)]
  rfl

theorem collectOne_of_ok (hname : operation.Names name)
    (hbenchmark : source.benchmarks.get? name = some benchmark) {samples : List Measurement}
    (h : source.measureSizes benchmark name (source.sizesOf benchmark) s = (.ok samples, s')) :
    source.source.collectOne operation s = (⟨.ok samples, [.operationBenchmarked]⟩, s') := by
  rw [collectOne_eq hname, collect, hbenchmark]
  dsimp only
  rw [h]

theorem collectOne_of_error (hname : operation.Names name)
    (hbenchmark : source.benchmarks.get? name = some benchmark) {e : CollectError}
    (h : source.measureSizes benchmark name (source.sizesOf benchmark) s = (.error e, s')) :
    source.source.collectOne operation s = (Traced.fail e, s') := by
  rw [collectOne_eq hname, collect, hbenchmark]
  dsimp only
  rw [h]

theorem get?_watched (hbenchmark : source.benchmarks.get? name = some benchmark) :
    source.watched.benchmarks.get? name = some benchmark.watched := by
  unfold watched
  rw [OrderedMap.get?_mapValues, hbenchmark]
  rfl

theorem measures (hname : operation.Names name)
    (hbenchmark : source.benchmarks.get? name = some benchmark)
    (hnonneg : ∀ size ∈ source.sizes, 0 ≤ size) (hsorted : source.sizes.Pairwise (· ≤ ·)) (s : σ) :
    source.Measures operation name benchmark (source.sizesOf benchmark) s := by
  have hsizes : source.sizesOf benchmark ≠ [] ∧ (∀ size ∈ source.sizesOf benchmark, 0 ≤ size) ∧
      (source.sizesOf benchmark).Pairwise (· ≤ ·) := by
    unfold sizesOf
    split_ifs
    · simp
    · exact ⟨source.sized, hnonneg, hsorted⟩
  have hfollows := @measureSizes_follows _ _ source benchmark name (source.sizesOf benchmark)
    (.start s)
  -- Both runs end in the same way, which is the only case distinction there is.
  generalize hrun : source.measureSizes _ _ _ _ = x at hfollows
  generalize hwatch : source.watched.measureSizes _ _ _ _ = x' at hfollows
  cases hfollows with
  | ok samples s' readings h =>
    have hrun : source.source.collectOne operation s = _ :=
      collectOne_of_ok hname hbenchmark hrun
    have hwatch : source.watch operation s = _ :=
      collectOne_of_ok hname (get?_watched hbenchmark) hwatch
    refine ⟨by rw [hwatch, hrun], by rw [hwatch, hrun], ?_, ?_⟩
    · intro _
      rw [hwatch, hrun]
      exact ⟨samples, rfl, h.sampledBy source.positive,
        h.fittable source.positive hsizes.1 hsizes.2.1 hsizes.2.2⟩
    · intro hfailures
      rw [hwatch] at hfailures
      exact absurd rfl hfailures
  | error e s' readings reason h =>
    have hrun : source.source.collectOne operation s = _ :=
      collectOne_of_error hname hbenchmark hrun
    have hwatch : source.watch operation s = _ :=
      collectOne_of_error hname (get?_watched hbenchmark) hwatch
    obtain ⟨hfails, size, hsize, he⟩ := h
    refine ⟨by rw [hwatch, hrun], by rw [hwatch, hrun], ?_, ?_⟩
    · intro hfailures
      rw [hwatch] at hfailures
      exact absurd hfailures (List.cons_ne_nil _ _)
    · intro _
      rw [hwatch, hrun]
      exact ⟨reason, rfl, hfails, size, hsize, congrArg Except.error he⟩

end Collect

/-- Whatever the clock shows and whatever the benchmark does to the machine,
    collecting an operation measures it at the sizes of the ladder in order,
    or at zero alone.  If nothing has failed, the clock was read twice for
    each sample, the k-th sample costs what lies between its two readings, and
    a fit can rely on the samples.  If anything has failed, it was the last
    thing to be tried and there are no samples, but an error of the source,
    unless the size cannot be written. -/
theorem collects_by_readings (ladder : List Int) (iterations : Int) (clock : Attempt σ Int)
    (benchmarks : OrderedMap Text (Benchmark σ ι)) (operation : Datum) (name : Text)
    (benchmark : Benchmark σ ι) (hladder : ladder ≠ []) (hnonneg : ∀ size ∈ ladder, 0 ≤ size)
    (hiterations : 1 ≤ iterations) (hname : operation.Names name)
    (hbenchmark : benchmarks.get? name = some benchmark) :
    ∃ (source : BenchmarkSource σ ι) (sorted : List Int),
      create (ladder.map .whole) iterations clock benchmarks = .ok source ∧
      source.iterations = iterations.toNat ∧
      sorted.Perm ladder ∧ sorted.Pairwise (· ≤ ·) ∧
      ∀ s : σ,
        source.Measures operation name benchmark (if benchmark.fixedSize then [0] else sorted) s ∧
        ((∀ reason, ¬ source.CanFail benchmark reason) →
          (source.watch operation s).2.failures = []) := by
  obtain ⟨source, hcreate, hsizes, hcount, hmap⟩ :=
    @exists_create_eq_ok _ _ ladder iterations clock benchmarks hladder hnonneg hiterations
  have hperm : (sortIntegers ladder).Perm ladder := List.mergeSort_perm _ _
  have hsorted : (sortIntegers ladder).Pairwise (· ≤ ·) := by
    have hpairs := @List.pairwise_mergeSort _ (fun a b : Int => decide (a ≤ b))
      (by simpa using fun a b c => le_trans) (by simpa using le_total) ladder
    exact hpairs.imp of_decide_eq_true
  refine ⟨source, sortIntegers ladder, hcreate, hcount, hperm, hsorted, ?_⟩
  intro s
  -- The sizes of a benchmark are the sorted ladder or the single size 0.
  have hmeasures : source.Measures operation name benchmark (source.sizesOf benchmark) s := by
    apply measures hname
    · rw [hmap, hbenchmark]
    · rw [hsizes]
      exact fun size hsize => hnonneg size (hperm.subset hsize)
    · rw [hsizes]
      exact hsorted
  unfold sizesOf at hmeasures
  rw [hsizes] at hmeasures
  refine ⟨hmeasures, ?_⟩
  -- A failure has a reason, and a steady benchmark gives none.
  intro hsteady
  by_contra hfailures
  obtain ⟨reason, -, hfails, -⟩ := hmeasures.failed hfailures
  exact hsteady reason hfails

/-- A benchmark on a machine that is its own clock.  A run takes some time and
    twice the size. -/
def tickingBenchmark : Benchmark Int Int where
  setup size now := (.ok size, now)
  run size now := (.ok (), now + 100 + 2 * size)
  fixedSize := false

/-- Three runs at each of three sizes that are out of order. -/
theorem tickingBenchmark_collects :
    ([64, 1, 16] : List Int) ≠ [] ∧ (∀ size ∈ ([64, 1, 16] : List Int), 0 ≤ size) ∧
    (Datum.operation .hostMemCpy).Names "HostMemCpy" ∧
    ∃ (source : BenchmarkSource Int Int) (sorted : List Int),
      create [.whole 64, .whole 1, .whole 16] 3 (fun now => (.ok now, now))
        (.ofList [("HostMemCpy", tickingBenchmark)]) = .ok source ∧
      source.iterations = 3 ∧ sorted.Perm [64, 1, 16] ∧ sorted.Pairwise (· ≤ ·) ∧
      ∀ now : Int, source.Measures (.operation .hostMemCpy) "HostMemCpy" tickingBenchmark sorted now ∧
        ((∀ reason, ¬ source.CanFail tickingBenchmark reason) →
          (source.watch (.operation .hostMemCpy) now).2.failures = []) := by
  have hladder : ([64, 1, 16] : List Int) ≠ [] := by decide
  have hnonneg : ∀ size ∈ ([64, 1, 16] : List Int), 0 ≤ size := by decide
  have hname : (Datum.operation .hostMemCpy).Names "HostMemCpy" := .operation .hostMemCpy
  exact ⟨hladder, hnonneg, hname,
    collects_by_readings [64, 1, 16] 3 (fun now => (.ok now, now))
      (.ofList [("HostMemCpy", tickingBenchmark)]) (.operation .hostMemCpy) "HostMemCpy"
      tickingBenchmark hladder hnonneg (by decide) hname rfl⟩

def brokenBenchmark : Benchmark Unit Unit where
  setup _ s := (.error "setup failed", s)
  run _ s := (.ok (), s)
  fixedSize := false

def unwritableSize : Int := (Nat.pow 10 Numeral.digitLimit : ℕ)

theorem isWritable_unwritableSize : Numeral.isWritable unwritableSize = false := by
  unfold Numeral.isWritable unwritableSize
  rw [Int.natAbs_natCast]
  exact decide_eq_false (Nat.lt_irrefl _)

/-- A failure at a size that cannot be written is no error of the source, and
    no operation is skipped for it. -/
theorem brokenBenchmark_unwritable :
    (brokenBenchmark.setup unwritableSize ()).1 = .error "setup failed" ∧
    ∃ source : BenchmarkSource Unit Unit,
      create [.whole unwritableSize] 1 (fun s => (.ok 0, s))
        (.ofList [("HostMemCpy", brokenBenchmark)]) = .ok source ∧
      (¬ ∃ e, (source.source.collectOne (.text "HostMemCpy") ()).1.outcome = .error (.source e)) ∧
      (source.source.collectAll [.text "HostMemCpy"] ()).1.outcome = .error .unwritable := by
  obtain ⟨source, hcreate, hsizes, -, hmap⟩ := @exists_create_eq_ok _ _ [unwritableSize] 1
    (fun s => (.ok 0, s)) (.ofList [("HostMemCpy", brokenBenchmark)]) (List.cons_ne_nil _ _)
    (List.forall_mem_singleton.2 (Int.natCast_nonneg _)) le_rfl
  have hbenchmark : source.benchmarks.get? "HostMemCpy" = some brokenBenchmark := by
    rw [hmap]
    rfl
  -- Sorting more than one size does not reduce here, and one is enough.
  have hsize : source.sizesOf brokenBenchmark = [unwritableSize] := by
    show source.sizes = _
    rw [hsizes]
    exact List.mergeSort_singleton _
  have hmeasure : source.measureSizes brokenBenchmark "HostMemCpy"
      (source.sizesOf brokenBenchmark) () = (.error .unwritable, ()) := by
    rw [hsize, measureSizes_cons, measureSize_eq]
    show (Except.error (failedAt "HostMemCpy" unwritableSize "setup failed"), ()) = _
    unfold failedAt
    rw [isWritable_unwritableSize]
    rfl
  have hname : (Datum.text "HostMemCpy").Names "HostMemCpy" := .text (by decide)
  have hone := collectOne_of_error hname hbenchmark hmeasure
  refine ⟨rfl, source, hcreate, ?_, ?_⟩
  · rw [hone]
    simp
  · have hall : source.source.collect "HostMemCpy" () = (Traced.fail .unwritable, ()) := by
      show source.collect "HostMemCpy" () = _
      rw [← collectOne_eq hname, hone]
    show (source.source.gather ["HostMemCpy"] ⟨.empty, []⟩ ()).1.outcome = _
    simp only [SampleSource.gather, hall, Traced.outcome_fail]

end BenchmarkSource
end CalibratedCosts.Samples
