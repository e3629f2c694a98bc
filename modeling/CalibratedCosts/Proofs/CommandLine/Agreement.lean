import Mathlib
import CalibratedCosts.Proofs.CommandLine.Calibrate
import CalibratedCosts.Proofs.CommandLine.Stores
import CalibratedCosts.Proofs.CostModel.Charge

/-! # Artifact and store agree

    A calibration of recorded samples that keeps its results leaves two copies
    of one table, in an artifact and in a store, and every command that uses a
    table comes to the same from either of them.

    * **Order**: the artifact is there before the run is stored, so that no
      run is stored without one.
    * **Own samples**: what is charged for an operation follows from the
      samples that were recorded for it and from nothing else.
-/

namespace CalibratedCosts.CommandLine

open Calibration (Report ownModel? ownOutcome)
open Samples (Measurement RecordedSamples)
open Store (History SaveRequest)
open Store.Session (AvoidsItself locationOf openAt storeAt)

variable {σ : Type}

/-! ## Section 1: using a table -/

section Tables

variable {host : Host σ} {w w' : World σ} {origin : TableOrigin} {t : Store.StoredTable}
  {settings : Settings}

end Tables

section Calibrated

variable [Datum.CallRoom] [Numerics Binary64]

/-- The model that the own samples of an operation come to, if there are any
    and they come to one. -/
def ownQuantized? (recorded : RecordedSamples) (requests : List Text) (name : Text) :
    Option QuantizedModel :=
  (recorded.answer requests name).bind fun samples =>
    (ownModel? (α := Binary64) name (samplesOf samples)).map Prod.snd

section Prepared

variable {host : Host σ} {order : CalibrationOrder} {files : FileSystem History} {file : String}
  {settings : Settings} {recorded : RecordedSamples} {collected : Samples.Collected}
  {report : Report Binary64}

namespace Prepared

theorem divides (h : Prepared host order files file settings recorded collected report) :
    report.Divides (jobsOf collected) settings.reviewThreshold.value :=
  Calibration.divides_of_calibrate (named_jobsOf collected) rfl h.calibrated

theorem get?_jobs (h : Prepared host order files file settings recorded collected report)
    (name : Text) : (jobsOf collected).get? (.text name) =
      (recorded.answer (order.operations.map Text.ofString) name).map samplesOf := by
  rw [get?_jobsOf, h.answered]

/-- The table holds what the own samples of each operation come to. -/
theorem get?_entries (h : Prepared host order files file settings recorded collected report)
    (name : Text) : report.table.entries.get? name =
      ownQuantized? recorded (order.operations.map Text.ofString) name := by
  refine Option.ext fun quantized => ?_
  -- An entry stands for a model of the own job, and that job has the samples
  -- that were recorded.
  rw [h.divides.table, h.get?_jobs]
  unfold ownQuantized?
  cases recorded.answer (order.operations.map Text.ofString) name with
  | none => simp
  | some samples =>
    simp only [Option.map_some, Option.some.injEq, Option.bind_some, Option.map_eq_some_iff,
      Calibration.ownModel?_eq_some_iff]
    constructor
    · rintro ⟨_, model, rfl, hown⟩
      exact ⟨(model, quantized), hown, rfl⟩
    · rintro ⟨⟨model, _⟩, hown, rfl⟩
      exact ⟨_, model, rfl, hown⟩

end Prepared
end Prepared

/-! ## Section 3: agreement -/

/-- The calibration is asked to take samples from a file, to write an artifact
    and to store its run. -/
structure CalibrationOrder.Keeps (order : CalibrationOrder) (file artifact database : String) :
    Prop where
  samples : order.samples = some file
  named : file ≠ ""
  output : order.output = some artifact
  database : order.database = some database
  stored : order.withoutStore = false

section Calibrations

variable {host : Host σ} {w : World σ} {args : List String} {order : CalibrationOrder}
  {file artifact database : String} {url : Store.DatabaseUrl}

end Calibrations

end Calibrated

/-! ## Section 4: a recorded file -/

section Examples

open scoped Datum.CallRoom Numerics

end Examples
end CalibratedCosts.CommandLine
