import Mathlib
import CalibratedCosts.Proofs.Store.Load

/-! # The rows of a log

    The requests that were stored so far make up a log, and the store holds
    its rows: the header of the k-th request under the identifier `k`, retired
    unless it is the last one, and the models and failures of that request
    under the same identifier and nothing else.  Each save that succeeds
    appends its request to the log.
-/

namespace CalibratedCosts.Store

/-! ## Section 1: the invariant -/

/-- The run has the rows of the failures that a request asked to be stored. -/
def SaveRequest.FailuresIn (req : SaveRequest) (s : History) (runId : Int) : Prop :=
  List.Forall₂ (fun note row => FailureNote.StoredAs note runId row) req.failures
    (s.failures.filter (·.runId = runId))

/-- The store holds the rows of a request at a position among the runs. -/
structure SaveRequest.HeldAt (req : SaveRequest) (s : History) (k : ℕ) (inUse : Bool) : Prop where
  header : ∃ row, s.runs[k]? = some row ∧ req.StoresHeader (k + 1) inUse row
  models : req.ModelsIn s (k + 1)
  failures : req.FailuresIn s (k + 1)

/-- The store holds the rows of the requests in a log and no others. -/
structure Represents (s : History) (log : List SaveRequest) : Prop where
  lastRun : s.lastRun = log.length
  limit : (log.length : Int) ≤ integerLimit
  count : s.runs.length = log.length
  held : ∀ (k : ℕ) (req : SaveRequest), log[k]? = some req → req.HeldAt s k (k + 1 == log.length)
  models_le : ∀ row ∈ s.models, row.runId ≤ s.lastRun
  failures_le : ∀ row ∈ s.failures, row.runId ≤ s.lastRun

theorem represents_empty : Represents .empty [] where
  lastRun := rfl
  limit := by decide
  count := rfl
  held := by simp
  models_le := by simp [History.empty]
  failures_le := by simp [History.empty]

/-! ## Section 2: rows that are added -/

theorem getElem?_append_singleton {α : Type} {as : List α} {a b : α} {k : ℕ}
    (h : (as ++ [a])[k]? = some b) : as[k]? = some b ∨ k = as.length ∧ a = b := by
  rcases lt_trichotomy k as.length with hlt | heq | hgt
  · left
    rwa [List.getElem?_append_left hlt] at h
  · right
    rw [heq, List.getElem?_concat_length] at h
    exact ⟨heq, Option.some.inj h⟩
  · rw [List.getElem?_eq_none (by simpa using hgt)] at h
    cases h

section RunIds

variable {ρ : Type} {runIdOf : ρ → Int} {old new : List ρ} {last runId : Int}

/-- Rows that are added under the next identifier are no rows of an earlier
    run. -/
theorem filter_append_of_le (hnew : ∀ row ∈ new, runIdOf row = last + 1) (h : runId ≤ last) :
    (old ++ new).filter (runIdOf · = runId) = old.filter (runIdOf · = runId) := by
  have hnone : new.filter (runIdOf · = runId) = [] := by
    rw [List.filter_eq_nil_iff]
    intro row hrow
    have hid := hnew row hrow
    simp only [decide_eq_true_eq]
    omega
  rw [List.filter_append, hnone, List.append_nil]

/-- They are all rows of the new run. -/
theorem filter_append_of_eq (hold : ∀ row ∈ old, runIdOf row ≠ runId)
    (hnew : ∀ row ∈ new, runIdOf row = runId) :
    (old ++ new).filter (runIdOf · = runId) = new := by
  have hnone : old.filter (runIdOf · = runId) = [] := by
    rw [List.filter_eq_nil_iff]
    intro row hrow
    simpa using hold row hrow
  have hall : new.filter (runIdOf · = runId) = new := by
    rw [List.filter_eq_self]
    intro row hrow
    exact decide_eq_true (hnew row hrow)
  rw [List.filter_append, hnone, hall, List.nil_append]

theorem forall_mem_append_le (hold : ∀ row ∈ old, runIdOf row ≤ last)
    (hnew : ∀ row ∈ new, runIdOf row = last + 1) : ∀ row ∈ old ++ new, runIdOf row ≤ last + 1 := by
  intro row hrow
  rcases List.mem_append.1 hrow with h | h
  · have := hold row h
    omega
  · exact (hnew row h).le

end RunIds

/-- A header that was in use or retired before is retired now. -/
theorem SaveRequest.StoresHeader.retired {req : SaveRequest} {runId : Int} {inUse : Bool}
    {row : RunRow} (h : req.StoresHeader runId inUse row) :
    req.StoresHeader runId false
      (if row.isActive then { row with active := .integer 0 } else row) := by
  by_cases hactive : row.isActive
  · rw [if_pos hactive]
    exact ⟨h.runId, h.fingerprint, h.calibratedAt, h.storedAt, h.operationCount, rfl⟩
  · rw [if_neg hactive]
    cases inUse with
    | false => exact h
    | true => exact absurd (decide_eq_true h.active) hactive

/-! ## Section 3: steps and runs -/

section Step

variable {s : History} {req : SaveRequest} {rows : RunRows}

theorem SaveRequest.StoredAs.runId_models {runId : Int} (h : req.StoredAs runId rows) :
    ∀ row ∈ rows.models, row.runId = runId :=
  forall_mem_of_forall₂ h.models fun _ _ hstores => hstores.runId

theorem SaveRequest.StoredAs.runId_failures {runId : Int} (h : req.StoredAs runId rows) :
    ∀ row ∈ rows.failures, row.runId = runId :=
  forall_mem_of_forall₂ h.failures fun _ _ hstores => hstores.runId

/-- The new run has the rows of its own models, as there was no row under its
    identifier. -/
theorem SaveRequest.StoredAs.modelsIn_add {runId : Int} (hrows : req.StoredAs runId rows)
    (hmodels : ∀ row ∈ s.models, row.runId ≠ runId) : req.ModelsIn (s.add rows) runId := by
  show List.Forall₂ _ _ ((s.models ++ rows.models).filter (·.runId = runId))
  rw [filter_append_of_eq hmodels hrows.runId_models]
  exact hrows.models

/-- An earlier run keeps its rows and is retired. -/
theorem SaveRequest.HeldAt.add {earlier : SaveRequest} {k : ℕ} {inUse : Bool}
    (h : earlier.HeldAt s k inUse) (hk : (k : Int) + 1 ≤ s.lastRun)
    (hrows : req.StoredAs (s.lastRun + 1) rows) : earlier.HeldAt (s.add rows) k false := by
  obtain ⟨row, hrow, hheader⟩ := h.header
  refine ⟨⟨_, ?_, hheader.retired⟩, ?_, ?_⟩
  · obtain ⟨hlt, -⟩ := List.getElem?_eq_some_iff.1 hrow
    show ((retire s).runs ++ [rows.header])[k]? = _
    rw [List.getElem?_append_left (by simpa [retire] using hlt)]
    simp only [retire, List.getElem?_map, hrow, Option.map_some]
  -- The new rows stand under another identifier.
  · show List.Forall₂ _ _ ((s.models ++ rows.models).filter (·.runId = (k : Int) + 1))
    rw [filter_append_of_le hrows.runId_models hk]
    exact h.models
  · show List.Forall₂ _ _ ((s.failures ++ rows.failures).filter (·.runId = (k : Int) + 1))
    rw [filter_append_of_le hrows.runId_failures hk]
    exact h.failures

end Step

namespace Represents

variable {s : History} {log : List SaveRequest}

/-- The row at a position is the header of the request there. -/
theorem exists_request (h : Represents s log) {k : ℕ} {row : RunRow}
    (hrow : s.runs[k]? = some row) :
    ∃ req, log[k]? = some req ∧ req.StoresHeader (k + 1) (k + 1 == log.length) row ∧
      req.ModelsIn s (k + 1) := by
  obtain ⟨hlt, -⟩ := List.getElem?_eq_some_iff.1 hrow
  rw [h.count] at hlt
  have hreq : log[k]? = some log[k] := List.getElem?_eq_getElem hlt
  -- The request holds a row at the same place, and that is this one.
  have hheld := h.held k _ hreq
  obtain ⟨row', hrow', hheader⟩ := hheld.header
  rw [hrow] at hrow'
  cases hrow'
  exact ⟨_, hreq, hheader, hheld.models⟩

theorem runId_eq (h : Represents s log) {k : ℕ} {row : RunRow} (hrow : s.runs[k]? = some row) :
    row.runId = k + 1 := by
  obtain ⟨req, -, hheader, -⟩ := h.exists_request hrow
  exact hheader.runId

/-- No identifier above the last one that was given out is in use. -/
theorem highestRun_eq (h : Represents s log) : s.highestRun = s.lastRun := by
  apply le_antisymm
  · refine highestRun_le_iff.2 ⟨by rw [h.lastRun]; exact Int.natCast_nonneg _, le_rfl, ?_⟩
    intro row hrow
    obtain ⟨k, hk⟩ := List.mem_iff_getElem?.1 hrow
    have hlt := (List.getElem?_eq_some_iff.1 hk).1
    have hcount := h.count
    rw [h.runId_eq hk, h.lastRun]
    omega
  · exact (highestRun_le_iff.1 le_rfl).2.1

/-- No row stands under the identifier of the next run. -/
theorem models_ne (h : Represents s log) : ∀ row ∈ s.models, row.runId ≠ s.lastRun + 1 :=
  fun row hrow => (Int.lt_add_one_of_le (h.models_le row hrow)).ne

theorem failures_ne (h : Represents s log) : ∀ row ∈ s.failures, row.runId ≠ s.lastRun + 1 :=
  fun row hrow => (Int.lt_add_one_of_le (h.failures_le row hrow)).ne

/-- The new run has the rows that were added and is in use. -/
theorem heldAt_add (h : Represents s log) {req : SaveRequest} {rows : RunRows}
    (hrows : req.StoredAs (s.lastRun + 1) rows) : req.HeldAt (s.add rows) log.length true := by
  have hheader := hrows.header
  have hmodels := hrows.modelsIn_add h.models_ne
  have hfailures := hrows.failures
  rw [h.lastRun] at hheader hmodels
  refine ⟨⟨rows.header, ?_, hheader⟩, ?_, ?_⟩
  · show ((retire s).runs ++ [rows.header])[log.length]? = _
    have hlength : (retire s).runs.length = log.length := by simp [retire, h.count]
    rw [← hlength, List.getElem?_concat_length]
  · exact hmodels
  -- No failure that was there stands under the new identifier.
  · show List.Forall₂ _ _ ((s.failures ++ rows.failures).filter (·.runId = (log.length : Int) + 1))
    rw [← h.lastRun, filter_append_of_eq h.failures_ne hrows.runId_failures]
    exact hfailures

/-- A save that succeeds appends its request. -/
theorem add (h : Represents s log) {req : SaveRequest} {rows : RunRows}
    (hlimit : s.lastRun + 1 ≤ integerLimit) (hrows : req.StoredAs (s.lastRun + 1) rows) :
    Represents (s.add rows) (log ++ [req]) := by
  have hlast : (s.add rows).lastRun = s.lastRun + 1 := hrows.header.runId
  have hnext : ((log ++ [req]).length : Int) = s.lastRun + 1 := by
    rw [List.length_append, h.lastRun]
    rfl
  refine ⟨by rw [hlast, hnext], by rw [hnext]; exact hlimit, ?_, ?_, ?_, ?_⟩
  · simp [History.add, retire, h.count]
  · intro k earlier hk
    -- The request is an earlier one, or the one that was stored just now.
    rcases getElem?_append_singleton hk with hold | ⟨rfl, rfl⟩
    · obtain ⟨hlt, -⟩ := List.getElem?_eq_some_iff.1 hold
      have hfalse : (k + 1 == (log ++ [req]).length) = false := by
        rw [List.length_append, beq_eq_false_iff_ne]
        rw [List.length_singleton]
        omega
      rw [hfalse]
      exact (h.held k earlier hold).add (by rw [h.lastRun]; omega) hrows
    · have htrue : (log.length + 1 == (log ++ [req]).length) = true := by simp
      rw [htrue]
      exact h.heldAt_add hrows
  · rw [hlast]
    exact forall_mem_append_le h.models_le hrows.runId_models
  · rw [hlast]
    exact forall_mem_append_le h.failures_le hrows.runId_failures

end Represents
end CalibratedCosts.Store
