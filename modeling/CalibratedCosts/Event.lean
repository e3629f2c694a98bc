/-! # Events

    What the library reports to an operator while it works, and computations
    that report events.

    * **Events**: a level and a name for each kind.
    * **Traced computations**: an outcome together with the events reported on
      the way, in order.  A computation that fails keeps the events it
      reported before.
-/

namespace CalibratedCosts

/-! ## Section 1: kinds of events -/

/-- How much an event matters. -/
inductive Level where
  | debug
  | info
  | warning
  | error
  deriving DecidableEq

def Level.name : Level → String
  | .debug => "debug"
  | .info => "info"
  | .warning => "warning"
  | .error => "error"

/-- A kind of event. -/
inductive Event where
  | constantModelFitted
  | sizesNotSorted
  | slopeNotPositive
  | interceptRefitted
  | modelFitted
  | modelQuantized
  | operationUncalibrated
  | operationFailed
  | fitQualityLow
  | calibrationCompleted
  | budgetExceeded
  | operationCharged
  | tableReplaced
  | operationNotSampled
  | samplingFailed
  | samplesLoaded
  | operationBenchmarked
  | artifactWritten
  | artifactLoaded
  | storeInitialized
  | tableStored
  | fingerprintMismatch
  | tableLoaded
  deriving DecidableEq

namespace Event

def level : Event → Level
  | .modelQuantized | .operationCharged => .debug
  | .constantModelFitted | .modelFitted | .calibrationCompleted | .tableReplaced
  | .samplesLoaded | .operationBenchmarked | .artifactWritten | .artifactLoaded
  | .storeInitialized | .tableStored | .tableLoaded => .info
  | .sizesNotSorted | .interceptRefitted | .fitQualityLow | .budgetExceeded
  | .operationNotSampled => .warning
  | .slopeNotPositive | .operationUncalibrated | .operationFailed | .samplingFailed
  | .fingerprintMismatch => .error

/-- The name under which an event is reported. -/
def name : Event → String
  | .constantModelFitted => "constant_cost_model"
  | .sizesNotSorted => "sample_sizes_not_sorted"
  | .slopeNotPositive => "non_monotone_cost_fit"
  | .interceptRefitted => "negative_intercept_refit"
  | .modelFitted => "cost_model_fitted"
  | .modelQuantized => "cost_model_quantized"
  | .operationUncalibrated => "uncalibrated_operation"
  | .operationFailed => "operation_calibration_failed"
  | .fitQualityLow => "cost_model_low_fit_quality"
  | .calibrationCompleted => "calibration_completed"
  | .budgetExceeded => "budget_exceeded"
  | .operationCharged => "operation_charged"
  | .tableReplaced => "cost_model_table_replaced"
  | .operationNotSampled => "operation_not_sampled"
  | .samplingFailed => "operation_sampling_failed"
  | .samplesLoaded => "samples_loaded"
  | .operationBenchmarked => "operation_benchmarked"
  | .artifactWritten => "cost_model_artifact_written"
  | .artifactLoaded => "cost_model_artifact_loaded"
  | .storeInitialized => "calibration_store_initialized"
  | .tableStored => "cost_model_table_stored"
  | .fingerprintMismatch => "cost_model_table_fingerprint_mismatch"
  | .tableLoaded => "cost_model_table_loaded"

end Event

/-! ## Section 2: traced computations -/

/-- An outcome and the events reported on the way to it. -/
structure Traced (ε α : Type) where
  outcome : Except ε α
  events : List Event

namespace Traced

variable {ε ε' α β : Type}

instance : Monad (Traced ε) where
  pure a := ⟨.ok a, []⟩
  bind x f :=
    match x.outcome with
    | .error e => ⟨.error e, x.events⟩
    | .ok a => ⟨(f a).outcome, x.events ++ (f a).events⟩

def report (event : Event) : Traced ε Unit := ⟨.ok (), [event]⟩

def fail (e : ε) : Traced ε α := ⟨.error e, []⟩

/-- An outcome without events. -/
def ofExcept (outcome : Except ε α) : Traced ε α := ⟨outcome, []⟩

/-- The same events with another cause of failure. -/
def mapError (f : ε → ε') (x : Traced ε α) : Traced ε' α := ⟨x.outcome.mapError f, x.events⟩

@[simp] theorem outcome_pure (a : α) : (pure a : Traced ε α).outcome = .ok a := rfl

@[simp] theorem outcome_bind (x : Traced ε α) (f : α → Traced ε β) :
    (x >>= f).outcome = x.outcome.bind fun a => (f a).outcome := by
  cases h : x.outcome <;> simp [bind, Except.bind, h]

@[simp] theorem outcome_report (event : Event) : (report event : Traced ε Unit).outcome = .ok () :=
  rfl

@[simp] theorem outcome_fail (e : ε) : (fail e : Traced ε α).outcome = .error e := rfl

@[simp] theorem outcome_ofExcept (outcome : Except ε α) : (ofExcept outcome).outcome = outcome :=
  rfl

@[simp] theorem outcome_mapError (f : ε → ε') (x : Traced ε α) :
    (x.mapError f).outcome = x.outcome.mapError f := rfl

end Traced
end CalibratedCosts
