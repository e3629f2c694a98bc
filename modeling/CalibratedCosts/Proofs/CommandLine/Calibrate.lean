import Mathlib
import CalibratedCosts.Proofs.Artifact.Files
import CalibratedCosts.Proofs.Calibration.Partition
import CalibratedCosts.Proofs.CommandLine.Action
import CalibratedCosts.Proofs.Samples.Recorded
import CalibratedCosts.Proofs.Store.Active
import CalibratedCosts.Proofs.Store.Log
import CalibratedCosts.Proofs.Store.Session

/-! # What a calibration of recorded samples does

    A calibration first finds out everything there is to be written.  Then it
    writes the artifact, and once that is there it stores the run.

    * **Jobs**: the samples that are calibrated are the answer to the
      requests, by operation.
    * **Failures**: whatever step fails, no run has been stored.
-/

namespace CalibratedCosts.CommandLine

open Calibration (Report)
open FileSystem (ChangedAt)
open Samples (RecordedSamples)
open Store (History SaveRequest)
open Store.Session (AvoidsItself locationOf openAt storeAt)

variable {σ : Type}

/-! ## Section 1: jobs -/

theorem entries_jobsOf (collected : Samples.Collected) :
    (jobsOf collected).entries =
      collected.samples.entries.map fun e => (.text e.1, samplesOf e.2) := by
  apply OrderedMap.entries_ofList
  have hdistinct := collected.samples.distinct
  rw [List.pairwise_map] at hdistinct
  rw [List.map_map, List.pairwise_map]
  exact hdistinct.imp fun hne => (Datum.text_beq_text _ _).trans hne

theorem named_jobsOf (collected : Samples.Collected) : (jobsOf collected).Named := by
  unfold Calibration.Jobs.Named OrderedMap.keys
  rw [entries_jobsOf]
  intro key hkey
  simp only [List.map_map, List.mem_map] at hkey
  obtain ⟨e, -, rfl⟩ := hkey
  rfl

/-- The job of an operation has the samples that were collected for it. -/
theorem get?_jobsOf (collected : Samples.Collected) (name : Text) :
    (jobsOf collected).get? (.text name) = (collected.samples.get? name).map samplesOf := by
  unfold OrderedMap.get?
  rw [entries_jobsOf, List.find?_map, Option.map_map, Option.map_map]
  simp only [Function.comp_def, Datum.text_beq_text]

/-! ## Section 2: the steps of a calibration -/

section Steps

variable [Datum.CallRoom] [Numerics Binary64]

/-- Writes the artifact of a report and then stores the run. -/
def keep (host : Host σ) (order : CalibrationOrder) (settings : Settings)
    (collected : Samples.Collected) (report : Report Binary64) : Action σ Reply := do
  let output := (nonempty order.output).getD settings.tablePath
  -- The artifact is there before the run is stored.
  .onFiles .writing (Artifact.save report.table (.ofText output))
  let stored ←
    if order.withoutStore then pure []
    else do
      let runId ← storeReport host ((nonempty order.database).getD settings.databaseUrl) report
      pure [s!"Stored calibration run {runId}"]
  pure
    { lines := stored ++ summaryLines output collected.skipped report
      status := if report.succeeded then 0 else 2 }

/-- All that a calibration of recorded samples finds out before it writes. -/
structure Prepared (host : Host σ) (order : CalibrationOrder) (files : FileSystem History)
    (file : String) (settings : Settings) (recorded : RecordedSamples)
    (collected : Samples.Collected) (report : Report Binary64) : Prop where
  ofEnvironment : settingsFor host.environment order = .ok settings
  ofFile : (RecordedSamples.ofFile files (.ofText file)).outcome = .ok recorded
  answered : ∀ name, collected.samples.get? name =
    recorded.answer (order.operations.map Text.ofString) name
  calibrated : (Calibration.calibrate (jobsOf collected) (.double settings.reviewThreshold)
    host.now).outcome = .ok report

end Steps

/-! ## Section 3: storing -/

section Storing

variable {host : Host σ} {database : String} {url : Store.DatabaseUrl} {w : World σ}

/-- The files after a save to the store at a location. -/
def savedTo (files : FileSystem History) (location : Location) (store : History)
    (req : SaveRequest) : FileSystem History :=
  (files.put location (.store store)).put location (.store (req.save store).2)

end Storing

/-! ## Section 4: keeping -/

/-- The artifact of a request has been written to a path, and then the request
    has been saved to the store at another one. -/
structure Kept (req : SaveRequest) (p : FilePath) (path : String)
    (before written after : FileSystem History) (store : History) : Prop where
  noNul : p.hasNul = false
  artifact : ∃ target, ChangedAt before written target (.file (Artifact.bytesOf req.table)) ∧
    written.locate p = .ok (target, some (.file (Artifact.bytesOf req.table)))
  opened : openAt written path = .ok ⟨store, some (locationOf written path)⟩
  saved : ∃ runId, (req.save store).1.outcome = .ok runId
  after : after = savedTo written (locationOf written path) store req

namespace Kept

variable {req : SaveRequest} {p : FilePath} {path : String}
  {before written after : FileSystem History} {store : History}

theorem working (h : Kept req p path before written after store) :
    written.working = before.working := by
  obtain ⟨target, hchanged, -⟩ := h.artifact
  exact hchanged.working

end Kept

end CalibratedCosts.CommandLine
