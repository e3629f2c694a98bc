import Mathlib
import CalibratedCosts.Proofs.Store.Log

/-! # The records of a run

    A run that was stored is read back as what was asked to be stored: its
    header, one record for each model of its table and one for each failure.
    Both kinds of records come in the order of their operations, whatever
    order they were stored in, and no record of another run is among them.
-/

namespace CalibratedCosts.Store

/-! ## Section 1: failures -/

/-- The record of a failure. -/
def FailureNote.record (note : FailureNote) (runId : Int) : FailureRecord where
  runId := .whole runId
  operation := .text note.operation
  errorType := .text note.errorType
  message := .text note.message

theorem FailureNote.StoredAs.reads {note : FailureNote} {runId : Int} {row : FailureRow}
    (h : note.StoredAs runId row) : row.Reads (note.record runId) := by
  obtain ⟨runId, operation, errorType, message⟩ := row
  obtain ⟨rfl, hoperation, rfl, hmessage⟩ := h
  obtain ⟨s, rfl, hs⟩ := hoperation.exists_string
  obtain ⟨t, rfl, ht⟩ := hmessage.exists_string
  unfold FailureNote.record
  rw [← hs, ← ht]
  exact ⟨_, rfl, rfl⟩

/-- The string in a cell. -/
def TextCell.string : TextCell → String
  | .text s => s
  | .malformed _ _ | .blob _ => ""

theorem TextCell.Holds.string_eq {c : TextCell} {t : Text} (h : c.Holds t) : (c.string : Text) = t := by
  obtain ⟨s, rfl, hs⟩ := h.exists_string
  exact hs

/-- Rows are sorted by their strings, if that is what they hold. -/
theorem pairwise_mergeSort_operation (rows : List FailureRow)
    (h : ∀ row ∈ rows, ∃ t, row.operation.Holds t) :
    (rows.mergeSort fun a b => a.operation.upTo b.operation).Pairwise
      fun a b => a.operation.string ≤ b.operation.string := by
  -- The order on cells is the order on the texts they hold.
  have hstrings := @List.map_mergeSort _ _ (fun a b : FailureRow => a.operation.upTo b.operation)
    (fun s t : String => decide (s ≤ t)) (·.operation.string) rows fun a ha b hb => by
      obtain ⟨_, hleft⟩ := h a ha
      obtain ⟨_, hright⟩ := h b hb
      obtain ⟨s, hs, -⟩ := hleft.exists_string
      obtain ⟨t, ht, -⟩ := hright.exists_string
      rw [hs, ht]
      rfl
  rw [← List.pairwise_map (f := fun row : FailureRow => row.operation.string), hstrings]
  refine (List.pairwise_mergeSort ?_ ?_ _).imp of_decide_eq_true
  · intro s t u hst htu
    rw [decide_eq_true_eq] at hst htu ⊢
    exact hst.trans htu
  · intro s t
    rw [Bool.or_eq_true, decide_eq_true_eq, decide_eq_true_eq]
    exact le_total _ _

/-- The failures of a run come in the order of their operations, each of them
    once. -/
theorem SaveRequest.FailuresIn.exists_getFailures {req : SaveRequest} {s : History} {runId : Int}
    (h : req.FailuresIn s runId) (hfits : fitsCell runId = true)
    (hdistinct : (req.failures.map (·.operation)).Nodup) :
    ∃ notes : List FailureNote, notes.Perm req.failures ∧
      notes.Pairwise (fun a b => a.operation < b.operation) ∧
      getFailures s runId = .ok (notes.map (·.record runId)) := by
  -- Sorting the rows puts the failures that were asked for into an order as well.
  have hsort : (failureRows s runId).Perm (s.failures.filter (·.runId = runId)) :=
    List.mergeSort_perm _ _
  obtain ⟨notes, hnotes, hperm⟩ := List.perm_comp_forall₂ hsort h.flip
  have hrows := pairwise_mergeSort_operation (s.failures.filter (·.runId = runId))
    (forall_mem_of_forall₂ h fun _ _ hrow => ⟨_, hrow.operation⟩)
  have hle : notes.Pairwise fun a b => a.operation < b.operation ∨ a.operation = b.operation := by
    refine pairwise_of_forall₂ hnotes hrows fun hrow hrow' hle => ?_
    rw [← hrow.operation.string_eq, ← hrow'.operation.string_eq]
    exact (lt_or_eq_of_le hle).imp Text.ofString_lt (congrArg Text.ofString)
  have hne : notes.Pairwise fun a b => a.operation ≠ b.operation :=
    List.pairwise_map.1 ((hperm.map _).nodup_iff.2 hdistinct)
  refine ⟨notes, hperm, (hle.and hne).imp fun hab => hab.1.resolve_right hab.2, ?_⟩
  rw [getFailures_eq_ok_iff hfits, List.forall₂_map_right_iff]
  exact hnotes.imp fun _ _ hrow => hrow.reads

/-! ## Section 2: runs -/

/-- The records of a run are those of a request: its header, one record for
    each entry of its table in the order of the entries, and one for each
    failure in the order of the operations. -/
structure SaveRequest.RecordedAs (req : SaveRequest) (s : History) (runId : Int) : Prop where
  run : ∃ inUse, getRun s runId = .ok (some (req.record runId inUse))
  models : ∃ records, getModels s runId = .ok records ∧
    List.Forall₂ (req.ShowsModel runId) req.table.entries.toList records
  failures : ∃ notes : List FailureNote, notes.Perm req.failures ∧
    notes.Pairwise (fun a b => a.operation < b.operation) ∧
    getFailures s runId = .ok (notes.map (·.record runId))

theorem Represents.recordedAs {s : History} {log : List SaveRequest} (h : Represents s log)
    {runId : Int} {req : SaveRequest} (hreq : requestAt log runId = some req)
    (hdistinct : (req.failures.map (·.operation)).Nodup) : req.RecordedAs s runId := by
  have hfits := h.fitsCell_of_requestAt hreq
  have hrun := h.answers.run runId
  unfold answerWithin headerAt at hrun
  rw [if_pos hfits, hreq] at hrun
  obtain ⟨k, rfl, hk⟩ := exists_getElem?_of_requestAt hreq
  have hheld := h.held k req hk
  exact ⟨⟨_, hrun⟩, hheld.models.exists_getModels hfits,
    hheld.failures.exists_getFailures hfits hdistinct⟩

/-- The run that a save gives back stands in the log under its identifier. -/
theorem requestAt_of_apply_eq_ok {calls : List SaveCall} {call : SaveCall} {runId : Int}
    (h : (call.apply (History.empty.after calls)).1.outcome = .ok runId) (more : List SaveCall) :
    requestAt (History.empty.log (calls ++ call :: more)) runId = some call.request := by
  have hsave := h
  rw [SaveCall.apply_eq] at hsave
  obtain ⟨hnext, -⟩ := SaveRequest.save_eq_ok hsave
  rw [(represents_log calls).highestRun_eq, (represents_log calls).lastRun] at hnext
  -- The new run takes the next place in the log.
  have hindex : (runId - 1).toNat = (History.empty.log calls).length := by omega
  rw [History.log_append, History.log, h]
  unfold requestAt
  rw [if_pos (by omega), hindex, List.getElem?_append_right le_rfl, Nat.sub_self]
  rfl

/-- Whatever was saved before and whatever is saved after, a save that
    succeeds is read back as it was asked for: the header of the run carries
    the fingerprint, the time and the size of the table, there is a record for
    every entry of the table with its model and the quality of its fit, if
    there is one, and a record for every failure, both in the order of their
    operations and all of this run. -/
theorem saves_read_back (calls : List SaveCall) (call : SaveCall) (more : List SaveCall)
    (runId : Int) (h : (call.apply (History.empty.after calls)).1.outcome = .ok runId) :
    call.request.RecordedAs (History.empty.after (calls ++ call :: more)) runId := by
  have hlog := represents_log calls
  have hsave := h
  rw [SaveCall.apply_eq] at hsave
  obtain ⟨hstorable, -⟩ := (hlog.exists_apply_iff call).1 ⟨runId, h⟩
  exact (represents_log (calls ++ call :: more)).recordedAs (requestAt_of_apply_eq_ok h more)
    hstorable.distinct

/-- A save of the largest parameters, where one model was fitted, one fit is
    not in the table and two failures are out of order. -/
def mixedSave : SaveCall :=
  .table
    { plainSave.request with
      table :=
        { plainSave.request.table with
          entries :=
            ⟨[("HostMemAlloc", ⟨0, u64Max, Nat.zero_le _, Nat.le_refl _⟩),
              ("VmCachedSign", ⟨u64Max, 0, Nat.le_refl _, Nat.zero_le _⟩)], by decide, by decide⟩ }
      fits := .ofList [("VmCachedSign", .model (some (.double (.signedZero true)))),
        ("HostMemCmp", .model none)]
      failures := [⟨"HostMemCpy", "FitError", "first"⟩, ⟨"HostMemCmp", "FitError", "second"⟩] }

/-- The run is read back between two others of the same operations. -/
theorem mixedSave_read_back :
    (mixedSave.apply (History.empty.after [plainSave])).1.outcome = .ok 2 ∧
    mixedSave.request.RecordedAs
      (History.empty.after ([plainSave] ++ mixedSave :: [refusedSave, plainSave])) 2 := by
  have hsaved : (mixedSave.apply (History.empty.after [plainSave])).1.outcome = .ok 2 := rfl
  exact ⟨hsaved, saves_read_back [plainSave] mixedSave [refusedSave, plainSave] 2 hsaved⟩

end CalibratedCosts.Store
