import CalibratedCosts.CostModel.Fit
import CalibratedCosts.CostModel.Quantize
import CalibratedCosts.Table.Canonical

/-! # Calibration

    Fits and quantizes the samples of many operations and collects the
    results in a table.

    * **Isolation**: every operation is calibrated on its own; a failure is
      recorded under the operation and does not touch the others.
    * **Review**: a fitted line whose quality is below a threshold is listed
      for review.  The threshold decides nothing else.
-/

namespace CalibratedCosts.Calibration

open CostModelTable (stamped)

variable {α : Type} [Quantity α] [Numerics α] [Datum.CallRoom]

/-! ## Section 1: faults of the whole run -/

/-- Why there is no report. -/
inductive Fault where
  | unshown (fault : Datum.ShowFault)
  | thresholdNotANumber (kind : String)

def Fault.message : Fault → String
  | .unshown fault => fault.message
  | .thresholdNotANumber kind =>
    s!"'<' not supported between instances of 'float' and '{kind}'"

/-! ## Section 2: one operation -/

/-- A calibrated operation. -/
structure Calibrated (α : Type) where
  name : Text
  named : name ≠ ""
  model : CostModel α
  quantized : QuantizedModel

/-- What became of one operation. -/
inductive Outcome (α : Type) where
  | calibrated (result : Calibrated α)
  | failed (operation : Text) (error : CostModelError α)

/-- The model and the quantized model of an operation's samples. -/
def calibrateSamples (name : Text) (samples : Datum) :
    Traced (CostModelError α) (CostModel α × QuantizedModel) := do
  let set ← Traced.ofExcept (SampleSet.ofPairs samples)
  let model ← set.fit (some name)
  let quantized ← model.quantize
  pure (model, quantized)

/-- Calibrates one operation under the name that its key gives it. -/
def calibrateNamed (key samples : Datum) : Traced (CostModelError α) (Calibrated α) :=
  match h : key.identifier? with
  | none => Traced.fail (.invalidSampleSet (.invalidIdentifier key.shown))
  | some name => do
    let (model, quantized) ← calibrateSamples name samples
    pure ⟨name, Datum.identifier?_ne_empty h, model, quantized⟩

/-- Calibrates one operation.  A failure is an outcome; only data that no
    message can show is a fault of the run. -/
def calibrateOne (key samples : Datum) : Traced Fault (Outcome α) :=
  match key.plain? with
  | .error fault => Traced.fail (.unshown fault)
  | .ok name =>
    let run := calibrateNamed key samples
    match run.outcome with
    | .ok result => ⟨.ok (.calibrated result), run.events⟩
    | .error (.unshown fault) => ⟨.error (.unshown fault), run.events⟩
    | .error e => ⟨.ok (.failed name e), run.events ++ [.operationFailed]⟩

/-! ## Section 3: review -/

/-- The value of a threshold. -/
def thresholdValue? : Datum → Option Extended
  | .double x => some x.value
  | d => d.number?.map .finite

/-- The model is a line that fits too badly. -/
def needsReview (threshold : Datum) (m : CostModel α) : Except Fault Bool :=
  if m.isConstant then .ok false
  else
    match thresholdValue? threshold with
    | some bound => .ok ((Quantity.value m.rSquared).less bound)
    | none => .error (.thresholdNotANumber threshold.kind)

/-- The operations to review, in job order. -/
def reviewAll (threshold : Datum) : List (Calibrated α) → Traced Fault (List Text)
  | [] => pure []
  | c :: rest => do
    let flagged ← Traced.ofExcept (needsReview threshold c.model)
    if flagged then
      Traced.report .fitQualityLow
      let names ← reviewAll threshold rest
      pure (c.name :: names)
    else reviewAll threshold rest

/-! ## Section 4: the run -/

/-- What a calibration run produces. -/
structure Report (α : Type) where
  table : CostModelTable
  models : OrderedMap Text (CostModel α)
  failures : OrderedMap Text (CostModelError α)
  needsReview : List Text

/-- No operation failed. -/
def Report.succeeded (r : Report α) : Bool := r.failures.entries.isEmpty

/-- The samples of each operation. -/
abbrev Jobs := OrderedMap Datum Datum

/-- The calibrated operations among some outcomes. -/
def successes (outcomes : List (Outcome α)) : List (Calibrated α) :=
  outcomes.filterMap fun
    | .calibrated c => some c
    | .failed _ _ => none

/-- The failed operations among some outcomes. -/
def failuresOf (outcomes : List (Outcome α)) : List (Text × CostModelError α) :=
  outcomes.filterMap fun
    | .calibrated _ => none
    | .failed operation e => some (operation, e)

/-- The table entries of calibrated operations. -/
def entriesOf (results : List (Calibrated α)) : Entries :=
  results.foldl (fun entries c => entries.insert c.name c.quantized c.named) Entries.empty

/-- The report of a run. -/
def reportOf (outcomes : List (Outcome α)) (flagged : List Text) (now : Timestamp) : Report α :=
  let results := successes outcomes
  let table := stamped (entriesOf results) none now
  { table
    models := .ofList (results.map fun c => (c.name, c.model))
    failures := .ofList (failuresOf outcomes)
    needsReview := table.operations.filter flagged.contains }

/-- Calibrates the jobs one after the other. -/
def calibrateAll : List (Datum × Datum) → Traced Fault (List (Outcome α))
  | [] => pure []
  | (key, samples) :: rest => do
    let outcome ← calibrateOne key samples
    let outcomes ← calibrateAll rest
    pure (outcome :: outcomes)

/-- Calibrates all jobs and reports on them. -/
def calibrate (jobs : Jobs) (threshold : Datum) (now : Timestamp) : Traced Fault (Report α) := do
  let outcomes ← calibrateAll jobs.entries
  -- Failed operations have no quality to review.
  let flagged ← reviewAll threshold (successes outcomes)
  Traced.report .calibrationCompleted
  pure (reportOf outcomes flagged now)

end CalibratedCosts.Calibration
