import CalibratedCosts.Samples.Source
import CalibratedCosts.Settings

/-! # Benchmarked samples

    Times operations over a ladder of input sizes.  Each run at a size gives
    one sample, in the order of the sizes; an operation whose cost does not
    depend on its input is timed at size zero only.

    The machine is a state that setups, runs and readings of the clock
    change; each of them may fail.
-/

namespace CalibratedCosts.Samples

/-- A step of a machine with states `σ` that may fail.  A failure is an error
    and is given by its text, the reason, which is empty if the error has none.
    Outside are errors whose text cannot be had, and an interrupt or an exit:
    they are caught nowhere here, and the run ends with them. -/
abbrev Attempt (σ α : Type) := σ → Except String α × σ

/-- How to measure one operation: `setup` builds the input of a size outside
    the timed region, `run` is what is timed. -/
structure Benchmark (σ ι : Type) where
  setup : Int → Attempt σ ι
  run : ι → Attempt σ Unit
  fixedSize : Bool

/-- A source that measures operations: sizes in order, at least one and none
    negative, and at least one run at each. -/
structure BenchmarkSource (σ ι : Type) where
  sizes : List Int
  iterations : Nat
  clock : Attempt σ Int
  benchmarks : OrderedMap Text (Benchmark σ ι)
  positive : 0 < iterations
  sized : sizes ≠ []

/-! ## Section 1: settings -/

/-- Why there is no source. -/
inductive LadderFault where
  | noIterations
  | incomparable (kind kind' : String)
  | badSizes
  deriving DecidableEq

def LadderFault.message : LadderFault → String
  | .noIterations => "iterations must be at least 1"
  | .incomparable kind kind' =>
    s!"'<' not supported between instances of '" ++ kind ++ "' and '" ++ kind' ++ "'"
  | .badSizes => "sizes must be a non-empty list of non-negative integers"

/-- The integers of a list of data.  Others are found when the list is put in
    order, or when its only element is compared with zero. -/
def integersOf : List Datum → Except LadderFault (List Int)
  | [] => .ok []
  | .whole n :: rest => do
    match rest.find? (fun d => d.kind != "int") with
    | some d => .error (.incomparable d.kind "int")
    | none => .ok (n :: rest.filterMap fun | .whole m => some m | _ => none)
  | d :: rest =>
    match rest.find? (fun e => d.asText?.isNone || e.asText?.isNone) with
    | some e => .error (.incomparable e.kind d.kind)
    | none => .error (.incomparable d.kind "int")

namespace BenchmarkSource

variable {σ ι : Type}

/-- A source with the given settings. -/
def create (sizes : List Datum) (iterations : Int) (clock : Attempt σ Int)
    (benchmarks : OrderedMap Text (Benchmark σ ι)) :
    Except LadderFault (BenchmarkSource σ ι) :=
  if hn : iterations < 1 then .error .noIterations
  else
    match integersOf sizes with
    | .error fault => .error fault
    | .ok integers =>
      match sortIntegers integers with
      | [] => .error .badSizes
      | size :: rest =>
        if size < 0 then .error .badSizes
        else .ok ⟨size :: rest, iterations.toNat, clock, benchmarks, by omega, by simp⟩

/-! ## Section 2: measuring -/

/-- Times one run: the later reading less the earlier one, but not less than
    zero. -/
def timeRun (source : BenchmarkSource σ ι) (benchmark : Benchmark σ ι) (input : ι) :
    Attempt σ Int := fun s =>
  match source.clock s with
  | (.error reason, s) => (.error reason, s)
  | (.ok start, s) =>
    match benchmark.run input s with
    | (.error reason, s) => (.error reason, s)
    | (.ok _, s) =>
      match source.clock s with
      | (.error reason, s) => (.error reason, s)
      | (.ok stop, s) => (.ok (max (stop - start) 0), s)

/-- Times a number of runs on one input. -/
def timeRuns (source : BenchmarkSource σ ι) (benchmark : Benchmark σ ι) (input : ι) (size : Int) :
    Nat → Attempt σ (List Measurement)
  | 0, s => (.ok [], s)
  | count + 1, s =>
    match source.timeRun benchmark input s with
    | (.error reason, s) => (.error reason, s)
    | (.ok cost, s) =>
      match source.timeRuns benchmark input size count s with
      | (.error reason, s) => (.error reason, s)
      | (.ok rest, s) => (.ok (⟨size, cost⟩ :: rest), s)

/-- Sets up an input of a size and times the runs on it. -/
def measureSize (source : BenchmarkSource σ ι) (benchmark : Benchmark σ ι) (size : Int) :
    Attempt σ (List Measurement) := fun s =>
  match benchmark.setup size s with
  | (.error reason, s) => (.error reason, s)
  | (.ok input, s) => source.timeRuns benchmark input size source.iterations s

/-- The error for a benchmark that fails at a size. -/
def failedAt (name : Text) (size : Int) (reason : String) : CollectError :=
  if Numeral.isWritable size then .source (.benchmarkFailed name size reason) else .unwritable

/-- Measures at some sizes in order.  The first failure ends it. -/
def measureSizes (source : BenchmarkSource σ ι) (benchmark : Benchmark σ ι) (name : Text) :
    List Int → σ → Except CollectError (List Measurement) × σ
  | [], s => (.ok [], s)
  | size :: rest, s =>
    match source.measureSize benchmark size s with
    | (.error reason, s) => (.error (failedAt name size reason), s)
    | (.ok measurements, s) =>
      match source.measureSizes benchmark name rest s with
      | (.error e, s) => (.error e, s)
      | (.ok more, s) => (.ok (measurements ++ more), s)

/-- The sizes at which a benchmark is run. -/
def sizesOf (source : BenchmarkSource σ ι) (benchmark : Benchmark σ ι) : List Int :=
  if benchmark.fixedSize then [0] else source.sizes

/-- Measures an operation. -/
def collect (source : BenchmarkSource σ ι) (name : Text) (s : σ) :
    Traced CollectError (List Measurement) × σ :=
  match source.benchmarks.get? name with
  | none => (Traced.fail (.source (.unsupported name)), s)
  | some benchmark =>
    match source.measureSizes benchmark name (source.sizesOf benchmark) s with
    | (.error e, s) => (Traced.fail e, s)
    | (.ok measurements, s) => (⟨.ok measurements, [.operationBenchmarked]⟩, s)

/-- The source of measured samples. -/
def source (source : BenchmarkSource σ ι) : SampleSource σ where
  operations := source.benchmarks.keys
  collect := source.collect

end BenchmarkSource

/-! ## Section 3: host primitives -/

/-- The host primitives that are measured.  Two of them do not depend on the
    size of their input. -/
def measuredOperations : List (HostOperation × Bool) :=
  [(.computeSha256Hash, false), (.verifyEd25519Sig, false), (.computeEd25519PubKey, true),
   (.computeEcdsaSecp256k1Sig, false), (.hostMemAlloc, false), (.hostMemCpy, false),
   (.hostMemCmp, false), (.valSer, false), (.valDeser, false), (.prngDraw, false),
   (.numOp, true)]

/-- The benchmarks of the host primitives, given what each does to the
    machine at a size. -/
def hostBenchmarks {σ : Type} (work : HostOperation → Int → Attempt σ Unit) :
    OrderedMap Text (Benchmark σ Int) :=
  .ofList (measuredOperations.map fun (o, fixedSize) =>
    (o.identifier, ⟨fun size s => (.ok size, s), work o, fixedSize⟩))

end CalibratedCosts.Samples
