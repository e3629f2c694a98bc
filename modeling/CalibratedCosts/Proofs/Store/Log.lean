import Mathlib
import CalibratedCosts.Proofs.Store.Invariant
import CalibratedCosts.Proofs.Store.Storable

/-! # The store as a log

    Saving tables and loading them is the same as appending to a log and
    reading it.  Whatever sequence of saves a new store has seen, some of them
    refused, every question about runs and tables is answered from the log of
    the requests that were stored.
-/

namespace CalibratedCosts.Store

/-! ## Section 1: saves in sequence -/

/-- A save of a table by itself or as part of a calibration report. -/
inductive SaveCall where
  | table (req : SaveRequest)
  | report (r : Calibration.Report Binary64) (now : Timestamp)

namespace SaveCall

def request : SaveCall → SaveRequest
  | .table req => req
  | .report r now => ⟨r.table, fitsOf r, notesOf r, now⟩

/-- The answer to the call, and the store after it. -/
def apply (s : History) : SaveCall → Traced SaveError Int × History
  | .table req => saveTable req.table req.fits req.failures req.now s
  | .report r now => saveReport r now s

theorem apply_eq (s : History) (call : SaveCall) : call.apply s = call.request.save s := by
  cases call with
  | table req => rfl
  | report r now => rfl

end SaveCall

namespace History

def after (s : History) (calls : List SaveCall) : History :=
  calls.foldl (fun s call => (call.apply s).2) s

/-- The requests of the calls that succeeded, in order. -/
def log : History → List SaveCall → List SaveRequest
  | _, [] => []
  | s, call :: rest =>
    match (call.apply s).1.outcome with
    | .ok _ => call.request :: log (call.apply s).2 rest
    | .error _ => log (call.apply s).2 rest

theorem after_append (s : History) (calls more : List SaveCall) :
    s.after (calls ++ more) = (s.after calls).after more := List.foldl_append

theorem log_append (s : History) (calls more : List SaveCall) :
    s.log (calls ++ more) = s.log calls ++ (s.after calls).log more := by
  induction calls generalizing s with
  | nil => rfl
  | cons call rest ih =>
    rw [List.cons_append, log, log, ih]
    show _ = _ ++ ((call.apply s).2.after rest).log more
    cases (call.apply s).1.outcome with
    | error e => rfl
    | ok runId => rfl

theorem after_append_singleton (s : History) (calls : List SaveCall) (call : SaveCall) :
    s.after (calls ++ [call]) = (call.apply (s.after calls)).2 := after_append s calls [call]

theorem apply_of_error {s : History} {call : SaveCall} {e : SaveError}
    (h : (call.apply s).1.outcome = .error e) : (call.apply s).2 = s := by
  rw [SaveCall.apply_eq] at h ⊢
  exact SaveRequest.save_eq_error h

end History

/-- The store holds the rows of the calls that succeeded. -/
theorem Represents.after {s : History} {log : List SaveRequest} (h : Represents s log)
    (calls : List SaveCall) : Represents (s.after calls) (log ++ s.log calls) := by
  -- On the first call, with the log grown by the request if it succeeds.
  induction calls generalizing s log with
  | nil =>
    rw [History.log, List.append_nil]
    exact h
  | cons call rest ih =>
    show Represents ((call.apply s).2.after rest) _
    rw [History.log]
    cases hcall : (call.apply s).1.outcome with
    | error e =>
      rw [History.apply_of_error hcall]
      exact ih h
    | ok runId =>
      have hsave := hcall
      rw [SaveCall.apply_eq] at hsave
      obtain ⟨rfl, hlimit, rows, hrows, -, hstore⟩ := SaveRequest.save_eq_ok hsave
      rw [h.highestRun_eq] at hlimit hrows
      have hstep := ih (h.add hlimit hrows)
      rw [SaveCall.apply_eq, hstore]
      rwa [List.append_assoc] at hstep

/-! ## Section 2: reading a log -/

/-- The request at an identifier. -/
def requestAt (log : List SaveRequest) (runId : Int) : Option SaveRequest :=
  if 1 ≤ runId then log[(runId - 1).toNat]? else none

/-- The headers of all runs, of which the last one is in use. -/
def headers (log : List SaveRequest) : List RunRecord :=
  log.mapIdx fun k req => req.record (k + 1) (k + 1 == log.length)

/-- The header at an identifier. -/
def headerAt (log : List SaveRequest) (runId : Int) : Option RunRecord :=
  (requestAt log runId).map fun req => req.record runId (runId == log.length)

/-- The answer to a question about an integer, which has to fit into a cell. -/
def answerWithin {ε α : Type} (binding : BindFault → ε) (n : Int) (answer : α) : Except ε α :=
  if fitsCell n then .ok answer else .error (binding .integerTooLarge)

/-- Every question about runs and tables is answered from a log. -/
structure Answers (s : History) (log : List SaveRequest) : Prop where
  activeRun : getActiveRun s = .ok (headers log).getLast?
  run : ∀ runId, getRun s runId = answerWithin .binding runId (headerAt log runId)
  runs : ∀ limit, listRuns s limit = answerWithin .binding limit
    (if limit < 0 then (headers log).reverse else (headers log).reverse.take limit.toNat)
  activeTable : ∀ now, (loadTable s none now).outcome =
    .ok (log.getLast?.map fun req => .ofTable req.table)
  table : ∀ runId now, (loadTable s (some runId) now).outcome =
    answerWithin (fun fault => .query (.binding fault)) runId
      ((requestAt log runId).map fun req => .ofTable req.table)
  operationCount : ∀ row ∈ s.runs,
    row.operationCount = .integer (s.models.filter (·.runId = row.runId)).length

theorem getElem?_headers (log : List SaveRequest) (k : ℕ) :
    (headers log)[k]? = log[k]?.map fun req => req.record (k + 1) (k + 1 == log.length) := by
  unfold headers
  rw [List.getElem?_mapIdx]

theorem length_headers (log : List SaveRequest) : (headers log).length = log.length :=
  List.length_mapIdx

theorem headerAt_eq (log : List SaveRequest) (runId : Int) :
    headerAt log runId = if 1 ≤ runId then (headers log)[(runId - 1).toNat]? else none := by
  unfold headerAt requestAt
  by_cases hpos : 1 ≤ runId
  · have hid : ((runId - 1).toNat : Int) + 1 = runId := by omega
    have hinUse : ((runId - 1).toNat + 1 == log.length) = (runId == (log.length : Int)) := by
      rw [Bool.eq_iff_iff, beq_iff_eq, beq_iff_eq]
      omega
    rw [if_pos hpos, if_pos hpos, getElem?_headers, hid, hinUse]
  · rw [if_neg hpos, if_neg hpos]
    rfl

/-- What is asked for once a header is found, or is not. -/
def recorded (row : Option RunRow) : Except QueryFault (Option RunRecord) :=
  match row with
  | none => .ok none
  | some r => (recordOf r).map some

theorem getRun_of_fitsCell {s : History} {runId : Int} (h : fitsCell runId = true) :
    getRun s runId = recorded (runRow? s runId) := by
  unfold getRun
  rw [bind_of_fitsCell h]
  rfl

namespace Represents

variable {s : History} {log : List SaveRequest}

/-- A stored run has an identifier that fits into a cell. -/
theorem fitsCell_of_getElem? (h : Represents s log) {k : ℕ} {req : SaveRequest}
    (hreq : log[k]? = some req) : fitsCell (k + 1) = true := by
  obtain ⟨hlt, -⟩ := List.getElem?_eq_some_iff.1 hreq
  have hlimit := h.limit
  have hnonneg : (0 : Int) ≤ integerLimit := by decide
  unfold fitsCell
  rw [Bool.and_eq_true, decide_eq_true_eq, decide_eq_true_eq]
  omega

theorem getElem?_runs_eq_none (h : Represents s log) {k : ℕ} :
    s.runs[k]? = none ↔ log[k]? = none := by
  rw [List.getElem?_eq_none_iff, List.getElem?_eq_none_iff, h.count]

/-- The row at a position is read as the header there. -/
theorem recorded_getElem? (h : Represents s log) (k : ℕ) :
    recorded s.runs[k]? = .ok (headers log)[k]? := by
  rw [getElem?_headers]
  -- A place without a row is a place without a request.
  cases hrow : s.runs[k]? with
  | none =>
    rw [h.getElem?_runs_eq_none.1 hrow]
    rfl
  | some row =>
    obtain ⟨req, hreq, hheader, -⟩ := h.exists_request hrow
    unfold recorded
    simp only [recordOf_eq_ok_iff.2 hheader.reads, hreq]
    rfl

/-- All headers are read, each as what it is in the log. -/
theorem reads (h : Represents s log) : List.Forall₂ RunRow.Reads s.runs (headers log) := by
  refine List.forall₂_iff_get.2 ⟨h.count.trans (length_headers log).symm, fun k hk hk' => ?_⟩
  have hrecord := h.recorded_getElem? k
  rw [List.getElem?_eq_getElem hk, List.getElem?_eq_getElem hk'] at hrecord
  obtain ⟨r, hr, heq⟩ := map_eq_ok_iff.1 hrecord
  rw [List.get_eq_getElem, List.get_eq_getElem, ← Option.some.inj heq]
  exact recordOf_eq_ok_iff.1 hr

theorem runRow?_eq (h : Represents s log) (runId : Int) :
    runRow? s runId = if 1 ≤ runId then s.runs[(runId - 1).toNat]? else none := by
  unfold runRow?
  by_cases hpos : 1 ≤ runId
  · rw [if_pos hpos]
    cases hrow : s.runs[(runId - 1).toNat]? with
    | none =>
      -- A row with the identifier would stand at this position.
      rw [List.find?_eq_none]
      intro row hmem
      obtain ⟨k, hk⟩ := List.mem_iff_getElem?.1 hmem
      have hid := h.runId_eq hk
      have hlt := (List.getElem?_eq_some_iff.1 hk).1
      have hge := List.getElem?_eq_none_iff.1 hrow
      simp only [decide_eq_true_eq]
      omega
    | some row =>
      obtain ⟨hlt, hget⟩ := List.getElem?_eq_some_iff.1 hrow
      rw [List.find?_eq_some_iff_getElem]
      refine ⟨decide_eq_true ?_, _, hlt, hget, ?_⟩
      · rw [h.runId_eq hrow]
        omega
      · intro j hj
        have hid := h.runId_eq (List.getElem?_eq_getElem (hj.trans hlt))
        simp only [Bool.not_eq_true', decide_eq_false_iff_not]
        omega
  · rw [if_neg hpos, List.find?_eq_none]
    intro row hmem
    obtain ⟨k, hk⟩ := List.mem_iff_getElem?.1 hmem
    have hid := h.runId_eq hk
    simp only [decide_eq_true_eq]
    omega

/-- The runs are in the order of their identifiers. -/
theorem pairwise_runId (h : Represents s log) : s.runs.Pairwise fun a b => a.runId < b.runId := by
  rw [List.pairwise_iff_getElem]
  intro i j hi hj hij
  have hleft := h.runId_eq (List.getElem?_eq_getElem hi)
  have hright := h.runId_eq (List.getElem?_eq_getElem hj)
  omega

theorem eq_of_runId_eq (h : Represents s log) {a b : RunRow} (ha : a ∈ s.runs) (hb : b ∈ s.runs)
    (hid : a.runId = b.runId) : a = b := by
  obtain ⟨i, hi⟩ := List.mem_iff_getElem?.1 ha
  obtain ⟨j, hj⟩ := List.mem_iff_getElem?.1 hb
  have hleft := h.runId_eq hi
  have hright := h.runId_eq hj
  have hij : i = j := by omega
  rw [hij, hj] at hi
  exact (Option.some.inj hi).symm

/-- The newest run comes first, so that the order is turned around. -/
theorem newestFirst_eq (h : Represents s log) : newestFirst s = s.runs.reverse := by
  -- Both lists hold the same rows in the same order, which leaves no choice.
  refine @List.Perm.eq_of_pairwise _ (fun a b => decide (b.runId ≤ a.runId) = true) _ _ ?_ ?_ ?_ ?_
  · intro a b ha hb hab hba
    have ha' : a ∈ s.runs := List.mem_mergeSort.1 ha
    have hb' : b ∈ s.runs := List.mem_reverse.1 hb
    rw [decide_eq_true_eq] at hab hba
    exact h.eq_of_runId_eq ha' hb' (le_antisymm hba hab)
  · apply List.pairwise_mergeSort
    · intro a b c hab hbc
      rw [decide_eq_true_eq] at hab hbc ⊢
      exact hbc.trans hab
    · intro a b
      rw [Bool.or_eq_true, decide_eq_true_eq, decide_eq_true_eq]
      exact le_total _ _
  · rw [List.pairwise_reverse]
    exact h.pairwise_runId.imp fun hlt => decide_eq_true hlt.le
  · exact (List.mergeSort_perm _ _).trans (List.reverse_perm _).symm

/-- The newest run is the active one. -/
theorem activeRow?_eq (h : Represents s log) : activeRow? s = s.runs.getLast? := by
  unfold activeRow?
  rw [h.newestFirst_eq, List.getLast?_eq_head?_reverse]
  cases hrows : s.runs.reverse with
  | nil => rfl
  | cons row rest =>
    -- The last row is that of the last request, the only one in use.
    have hlast : s.runs[s.runs.length - 1]? = some row := by
      rw [← List.getLast?_eq_getElem?, List.getLast?_eq_head?_reverse, hrows]
      rfl
    have hpos : 0 < s.runs.length := by
      rw [← List.length_reverse, hrows]
      exact Nat.succ_pos _
    obtain ⟨req, -, hheader, -⟩ := h.exists_request hlast
    have hactive : row.isActive = true := by
      have hinUse : (s.runs.length - 1 + 1 == log.length) = true := by
        rw [beq_iff_eq, ← h.count]
        omega
      rw [hinUse] at hheader
      exact decide_eq_true hheader.active
    rw [List.find?_cons_of_pos hactive]
    rfl

/-- The table at a position is that of the request there. -/
theorem loadedFrom_getElem? (h : Represents s log) (k : ℕ) (now : Timestamp) :
    loadedFrom s s.runs[k]? now = .ok (log[k]?.map fun req => .ofTable req.table) := by
  cases hrow : s.runs[k]? with
  | none =>
    rw [h.getElem?_runs_eq_none.1 hrow]
    rfl
  | some row =>
    obtain ⟨req, hreq, hheader, hmodels⟩ := h.exists_request hrow
    unfold loadedFrom
    rw [hreq]
    simp only [hmodels.tableOf_eq_ok hheader (h.fitsCell_of_getElem? hreq) now]
    rfl

/-! ## Section 3: questions -/

theorem answers (h : Represents s log) : Answers s log where
  activeRun := by
    show recorded (activeRow? s) = _
    rw [h.activeRow?_eq, List.getLast?_eq_getElem?, h.recorded_getElem?, h.count, ← length_headers,
      ← List.getLast?_eq_getElem?]
  run := by
    intro runId
    unfold answerWithin
    -- A limit beyond a cell is refused, and the log answers so too.
    by_cases hfits : fitsCell runId = true
    · rw [getRun_of_fitsCell hfits, if_pos hfits, h.runRow?_eq, headerAt_eq]
      by_cases hpos : 1 ≤ runId
      · rw [if_pos hpos, if_pos hpos, h.recorded_getElem?]
      · rw [if_neg hpos, if_neg hpos]
        rfl
    · rw [if_neg hfits, getRun_of_not_fitsCell (Bool.eq_false_iff.2 hfits)]
  runs := by
    intro limit
    unfold answerWithin
    by_cases hfits : fitsCell limit = true
    · have hreverse := List.forall₂_reverse_iff.2 h.reads
      rw [if_pos hfits, listRuns_eq_ok_iff hfits, h.newestFirst_eq]
      split_ifs
      · exact hreverse
      · exact List.forall₂_take _ hreverse
    · rw [if_neg hfits, listRuns_of_not_fitsCell (Bool.eq_false_iff.2 hfits)]
  activeTable := by
    intro now
    rw [outcome_loadTable_none, h.activeRow?_eq, List.getLast?_eq_getElem?,
      h.loadedFrom_getElem?, h.count, ← List.getLast?_eq_getElem?]
  table := by
    intro runId now
    unfold answerWithin
    by_cases hfits : fitsCell runId = true
    · rw [outcome_loadTable_some hfits, if_pos hfits, h.runRow?_eq]
      unfold requestAt
      by_cases hpos : 1 ≤ runId
      · rw [if_pos hpos, if_pos hpos, h.loadedFrom_getElem?]
      · rw [if_neg hpos, if_neg hpos]
        rfl
    · rw [if_neg hfits, outcome_loadTable_of_not_fitsCell (Bool.eq_false_iff.2 hfits)]
  operationCount := by
    intro row hmem
    -- Rows stand at their runs' places.
    obtain ⟨k, hrow⟩ := List.mem_iff_getElem?.1 hmem
    obtain ⟨req, -, hheader, hmodels⟩ := h.exists_request hrow
    rw [hheader.operationCount, hheader.runId, ← hmodels.length_eq]
    rfl

end Represents

/-! ## Section 4: a new store -/

theorem represents_log (calls : List SaveCall) :
    Represents (History.empty.after calls) (History.empty.log calls) :=
  represents_empty.after calls

/-- A save succeeds if its request is storable and there is an identifier
    left. -/
theorem Represents.exists_apply_iff {s : History} {log : List SaveRequest} (h : Represents s log)
    (call : SaveCall) :
    (∃ runId, (call.apply s).1.outcome = .ok runId) ↔
      call.request.Storable ∧ log.length < integerLimit := by
  have hle {n : Int} (hn : n ≤ s.lastRun) : n ≤ s.highestRun := h.highestRun_eq ▸ hn
  rw [SaveCall.apply_eq, SaveRequest.exists_save_iff (fun row hrow => hle (h.models_le row hrow))
    fun row hrow => hle (h.failures_le row hrow), h.highestRun_eq, h.lastRun]

theorem requestAt_append {log : List SaveRequest} {runId : Int} {req : SaveRequest}
    (h : requestAt log runId = some req) (more : List SaveRequest) :
    requestAt (log ++ more) runId = some req := by
  unfold requestAt at h ⊢
  by_cases hpos : 1 ≤ runId
  · rw [if_pos hpos] at h ⊢
    obtain ⟨hlt, -⟩ := List.getElem?_eq_some_iff.1 h
    rw [List.getElem?_append_left hlt, h]
  · rw [if_neg hpos] at h
    cases h

theorem exists_getElem?_of_requestAt {log : List SaveRequest} {runId : Int} {req : SaveRequest}
    (h : requestAt log runId = some req) : ∃ k : ℕ, runId = k + 1 ∧ log[k]? = some req := by
  unfold requestAt at h
  by_cases hpos : 1 ≤ runId
  · rw [if_pos hpos] at h
    exact ⟨(runId - 1).toNat, by omega, h⟩
  · rw [if_neg hpos] at h
    cases h

theorem Represents.fitsCell_of_requestAt {s : History} {log : List SaveRequest} {runId : Int}
    {req : SaveRequest} (h : Represents s log) (hreq : requestAt log runId = some req) :
    fitsCell runId = true := by
  obtain ⟨k, rfl, hk⟩ := exists_getElem?_of_requestAt hreq
  exact h.fitsCell_of_getElem? hk

def plainSave : SaveCall :=
  .table
    { table :=
        ⟨⟨[("HostMemAlloc", ⟨1, 2, by decide, by decide⟩)], List.pairwise_singleton _ _,
          by decide⟩, "2024-06-01T00:00:00+00:00", by decide⟩
      fits := .empty
      failures := []
      now := ⟨0, 0⟩ }

/-- A save of the same table that is refused at its last row: an operation
    has failed twice. -/
def refusedSave : SaveCall :=
  .table
    { plainSave.request with
      failures := [⟨"HostMemCpy", "FitError", "first"⟩, ⟨"HostMemCpy", "FitError", "second"⟩] }

end CalibratedCosts.Store
