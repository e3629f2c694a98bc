import Mathlib
import CalibratedCosts.Proofs.Store.Log

/-! # Saves that are interrupted

    Anything may be raised between two statements of a save.  If it is an
    error the save has not taken place: the connection is as it was, and a
    sequence of saves comes to what it comes to without those that were
    interrupted.

    Raising what ends the program is not like this.  The statements so far
    stay in an open transaction, and the next question commits them.
-/

namespace CalibratedCosts.Store

/-! ## Section 1: attempts -/

/-- A save that may be stopped after some of its statements. -/
structure SaveAttempt where
  call : SaveCall
  stop : Option (ℕ × Interruption)

namespace SaveAttempt

/-- The statements of the save, up to where something is raised. -/
def statements (a : SaveAttempt) : List (Statement SaveError) :=
  match a.stop with
  | none => a.call.request.statements
  | some (n, cause) =>
    a.call.request.statements.take n ++ [fun _ => .error (.interrupted cause)]

/-- The answer to the attempt, and the connection after it. -/
def apply (c : Connection) (a : SaveAttempt) : Traced SaveError Int × Connection :=
  c.save a.statements

/-- Nothing but errors is raised from outside. -/
def RaisesErrors (a : SaveAttempt) : Prop := ∀ n, a.stop ≠ some (n, .exit)

end SaveAttempt

namespace Connection

def new : Connection := settled .empty

def after (c : Connection) (attempts : List SaveAttempt) : Connection :=
  attempts.foldl (fun c a => (a.apply c).2) c

/-- The requests of the attempts that succeeded, in order. -/
def log : Connection → List SaveAttempt → List SaveRequest
  | _, [] => []
  | c, a :: rest =>
    match (a.apply c).1.outcome with
    | .ok _ => a.call.request :: log (a.apply c).2 rest
    | .error _ => log (a.apply c).2 rest

end Connection

/-! ## Section 2: errors -/

theorem columnString_ne_interrupted (t : Text) (cause : Interruption) :
    columnString t ≠ .error (.interrupted cause) := by
  unfold columnString
  cases bindText t <;> simp [Except.mapError]

theorem columnQuality_ne_interrupted (quality : Option Number) (cause : Interruption) :
    columnQuality quality ≠ .error (.interrupted cause) := by
  unfold columnQuality
  dsimp only
  generalize Cell.ofDatum _ = cell
  cases cell <;> simp [Except.mapError, Except.map]

/-- No statement of a save interrupts it. -/
theorem SaveRequest.statement_ne_interrupted {req : SaveRequest} {statement : Statement SaveError}
    (h : statement ∈ req.statements) (s : History) (cause : Interruption) :
    statement s ≠ .error (.interrupted cause) := by
  -- Each statement refuses for its own reasons, and none of them is an
  -- interruption.
  simp only [statements, saveStatements, List.mem_append, List.mem_cons, List.mem_map,
    List.not_mem_nil, or_false] at h
  rcases h with ((rfl | rfl | rfl) | ⟨entry, -, rfl⟩) | ⟨note, -, rfl⟩
  · simp
  · refine bind_ne_error (columnString_ne_interrupted _ cause) fun calibratedAt => ?_
    split_ifs <;> exact nofun
  · unfold lookAtFits
    split_ifs <;> simp
  · refine bind_ne_error (columnString_ne_interrupted _ cause) fun operation => ?_
    refine bind_ne_error (columnQuality_ne_interrupted _ cause) fun rSquared => ?_
    split_ifs <;> exact nofun
  · refine bind_ne_error (columnString_ne_interrupted _ cause) fun operation => ?_
    refine bind_ne_error (columnString_ne_interrupted _ cause) fun message => ?_
    split_ifs <;> exact nofun

theorem SaveRequest.isError_of_take {req : SaveRequest} {n : ℕ} {s : History} {e : SaveError}
    (h : applyAll (req.statements.take n) s = .error e) : e.isError = true := by
  obtain ⟨statement, hmem, s', hs'⟩ := exists_of_foldlM_eq_error h
  refine decide_eq_true fun hexit => ?_
  rw [hexit] at hs'
  exact statement_ne_interrupted (List.mem_of_mem_take hmem) s' .exit hs'

/-! ## Section 3: one attempt -/

namespace SaveAttempt

variable {a : SaveAttempt} {s : History}

/-- An attempt that is not stopped is the save itself. -/
theorem apply_of_not_stopped (h : a.stop = none) :
    a.apply (.settled s) = ((a.call.apply s).1, .settled (a.call.apply s).2) := by
  rw [SaveCall.apply_eq]
  unfold apply statements Connection.save
  rw [h]
  dsimp only
  cases hall : applyAll a.call.request.statements s with
  | ok s' =>
    rw [Connection.block_settled_of_ok hall, SaveRequest.save_of_ok hall]
    rfl
  | error e =>
    have he : e.isError = true := by
      -- The whole list is a prefix of itself, so its error is an ordinary one.
      rw [← List.take_length (l := a.call.request.statements)] at hall
      exact SaveRequest.isError_of_take hall
    rw [Connection.block_settled_of_error hall he, SaveRequest.save_of_error hall]

/-- One that is stopped by an error fails and has changed nothing. -/
theorem exists_apply_of_stopped {n : ℕ} {message : String} (h : a.stop = some (n, .error message)) :
    ∃ e, a.apply (.settled s) = (Traced.fail e, .settled s) := by
  -- Either a statement before the stop refuses, or the stop raises its own
  -- error.
  have hfails : ∃ e, applyAll a.statements s = .error e ∧ e.isError = true := by
    unfold statements
    rw [h]
    dsimp only
    rw [applyAll_append]
    cases hall : applyAll (a.call.request.statements.take n) s with
    | error e => exact ⟨e, rfl, SaveRequest.isError_of_take hall⟩
    | ok s' => exact ⟨_, rfl, rfl⟩
  obtain ⟨e, hall, he⟩ := hfails
  refine ⟨e, ?_⟩
  unfold apply Connection.save
  rw [Connection.block_settled_of_error hall he]

/-- Either nothing stops an attempt or an error does. -/
theorem RaisesErrors.cases (h : a.RaisesErrors) :
    a.stop = none ∨ ∃ n message, a.stop = some (n, .error message) := by
  rcases hstop : a.stop with _ | ⟨n, message | _⟩
  · exact .inl rfl
  · exact .inr ⟨n, message, rfl⟩
  · exact absurd hstop (h n)

end SaveAttempt

/-! ## Section 4: attempts in sequence -/

/-- The saves that nothing stops. -/
def unbroken (attempts : List SaveAttempt) : List SaveCall :=
  attempts.filterMap fun a => if a.stop = none then some a.call else none

theorem unbroken_append (attempts more : List SaveAttempt) :
    unbroken (attempts ++ more) = unbroken attempts ++ unbroken more := List.filterMap_append

/-- Attempts come to what the unbroken ones among them come to. -/
theorem settled_after (s : History) {attempts : List SaveAttempt}
    (h : ∀ a ∈ attempts, a.RaisesErrors) :
    (Connection.settled s).after attempts = .settled (s.after (unbroken attempts)) ∧
    (Connection.settled s).log attempts = s.log (unbroken attempts) := by
  induction attempts generalizing s with
  | nil => exact ⟨rfl, rfl⟩
  | cons a rest ih =>
    obtain ⟨ha, hrest⟩ := List.forall_mem_cons.1 h
    rw [Connection.after, List.foldl_cons, Connection.log]
    -- A stopped attempt leaves neither a run nor a log entry, so it can be left
    -- out.
    rcases ha.cases with hstop | ⟨n, message, hstop⟩
    · have hunbroken : unbroken (a :: rest) = a.call :: unbroken rest := by simp [unbroken, hstop]
      obtain ⟨hafter, hlog⟩ := ih (a.call.apply s).2 hrest
      rw [hunbroken, SaveAttempt.apply_of_not_stopped hstop, History.log, ← hlog]
      exact ⟨hafter, rfl⟩
    · have hunbroken : unbroken (a :: rest) = unbroken rest := by simp [unbroken, hstop]
      obtain ⟨e, he⟩ := SaveAttempt.exists_apply_of_stopped (s := s) hstop
      rw [hunbroken, he]
      exact ih s hrest

/-- A new store is an append-only log of the saves that succeeded, whatever
    errors are raised between the statements of the others.  After any attempts
    no transaction is open and every question is answered from the log.  A save
    succeeds exactly if it is not interrupted, its request is storable and there
    is an identifier left; one that fails changes nothing, and the k-th one that
    succeeds gives back `k` and appends its request.  What was stored once is
    given back ever after. -/
theorem saves_refine_log (attempts : List SaveAttempt) (hattempts : ∀ a ∈ attempts, a.RaisesErrors) :
    ∃ s, Connection.new.after attempts = .settled s ∧ Answers s (Connection.new.log attempts) ∧
      (∀ a : SaveAttempt, a.RaisesErrors →
        ((∃ runId, (a.apply (.settled s)).1.outcome = .ok runId) ↔
          a.stop = none ∧ a.call.request.Storable ∧
            (Connection.new.log attempts).length < integerLimit) ∧
        match (a.apply (.settled s)).1.outcome with
        | .error _ =>
          Connection.new.after (attempts ++ [a]) = .settled s ∧
          Connection.new.log (attempts ++ [a]) = Connection.new.log attempts
        | .ok runId =>
          runId = (Connection.new.log attempts).length + 1 ∧
          Connection.new.log (attempts ++ [a]) =
            Connection.new.log attempts ++ [a.call.request]) ∧
      ∀ more : List SaveAttempt, (∀ a ∈ more, a.RaisesErrors) →
        ∃ later, Connection.new.after (attempts ++ more) = .settled later ∧
          ∀ (runId : Int) (req : SaveRequest),
            requestAt (Connection.new.log attempts) runId = some req →
            (∀ now, (loadTable later (some runId) now).outcome = .ok (some (.ofTable req.table))) ∧
            ∃ inUse, getRun later runId = .ok (some (req.record runId inUse)) := by
  have hnew (attempts : List SaveAttempt) (h : ∀ a ∈ attempts, a.RaisesErrors) :
      Connection.new.after attempts = .settled (History.empty.after (unbroken attempts)) ∧
      Connection.new.log attempts = History.empty.log (unbroken attempts) :=
    settled_after .empty h
  obtain ⟨hafter, hlog⟩ := hnew attempts hattempts
  have hrep := represents_log (unbroken attempts)
  rw [hlog]
  refine ⟨_, hafter, hrep.answers, fun a ha => ?_, fun more hmore => ?_⟩
  · obtain ⟨hafter', hlog'⟩ := hnew (attempts ++ [a])
      (List.forall_mem_append.2 ⟨hattempts, List.forall_mem_singleton.2 ha⟩)
    rw [hafter', hlog', unbroken_append]
    rcases ha.cases with hstop | ⟨n, message, hstop⟩
    -- The attempt is the save itself.
    · have hunbroken : unbroken [a] = [a.call] := by simp [unbroken, hstop]
      rw [SaveAttempt.apply_of_not_stopped hstop, hunbroken, History.after_append_singleton,
        History.log_append, History.log, History.log]
      refine ⟨by rw [hrep.exists_apply_iff]; exact (and_iff_right hstop).symm, ?_⟩
      dsimp only
      cases hcall : (a.call.apply (History.empty.after (unbroken attempts))).1.outcome with
      | error e => exact ⟨by rw [History.apply_of_error hcall], List.append_nil _⟩
      | ok runId =>
        rw [SaveCall.apply_eq] at hcall
        obtain ⟨hnext, -⟩ := SaveRequest.save_eq_ok hcall
        rw [hrep.highestRun_eq, hrep.lastRun] at hnext
        exact ⟨hnext, rfl⟩
    -- The attempt has failed, and nothing is left of it.
    · have hunbroken : unbroken [a] = [] := by simp [unbroken, hstop]
      obtain ⟨e, he⟩ := SaveAttempt.exists_apply_of_stopped
        (s := History.empty.after (unbroken attempts)) hstop
      rw [he, hunbroken, List.append_nil]
      refine ⟨iff_of_false (by rintro ⟨runId, ⟨⟩⟩) fun h => ?_, rfl, rfl⟩
      rw [h.1] at hstop
      cases hstop
  · obtain ⟨hafter', -⟩ := hnew _ (List.forall_mem_append.2 ⟨hattempts, hmore⟩)
    refine ⟨_, hafter', fun runId req hreq => ?_⟩
    -- The log of the longer run begins with the log of this one.
    have hlater := represents_log (unbroken (attempts ++ more))
    have hkept : requestAt (History.empty.log (unbroken (attempts ++ more))) runId = some req := by
      rw [unbroken_append, History.log_append]
      exact requestAt_append hreq _
    have hfits := hlater.fitsCell_of_requestAt hkept
    constructor
    · intro now
      rw [hlater.answers.table runId now, hkept]
      exact if_pos hfits
    · rw [hlater.answers.run runId]
      unfold answerWithin headerAt
      rw [if_pos hfits, hkept]
      exact ⟨_, rfl⟩

/-- The table of the first run is given back after a save that was refused,
    one that was interrupted behind its header, and one that succeeded. -/
theorem plainSave_kept :
    (∀ a ∈ [SaveAttempt.mk plainSave none], a.RaisesErrors) ∧
    ∃ later, Connection.new.after ([⟨plainSave, none⟩] ++
        [⟨refusedSave, none⟩, ⟨plainSave, some (2, .error "")⟩, ⟨plainSave, none⟩]) =
      .settled later ∧
    (loadTable later (some 1) ⟨0, 0⟩).outcome = .ok (some (.ofTable plainSave.request.table)) := by
  have hfirst : ∀ a ∈ [SaveAttempt.mk plainSave none], a.RaisesErrors :=
    List.forall_mem_singleton.2 fun _ => by simp
  obtain ⟨s, -, -, -, hkept⟩ := saves_refine_log [⟨plainSave, none⟩] hfirst
  have hmore : ∀ a ∈ [SaveAttempt.mk refusedSave none, ⟨plainSave, some (2, .error "")⟩,
      ⟨plainSave, none⟩], a.RaisesErrors := by simp [SaveAttempt.RaisesErrors]
  obtain ⟨later, hlater, hruns⟩ := hkept _ hmore
  exact ⟨hfirst, later, hlater, (hruns 1 plainSave.request rfl).1 ⟨0, 0⟩⟩

/-- An identifier that does not fit into a cell is that of no run, but asking
    for it is not answered with nothing.  And where the program ends behind the
    header of a second run, the first one is found retired. -/
theorem largeIdentifier_and_exit_observed :
    (requestAt (Connection.new.log [⟨plainSave, none⟩]) 0x8000000000000000 = none ∧
      (loadTable (Connection.new.after [⟨plainSave, none⟩]).current (some 0x8000000000000000)
        ⟨0, 0⟩).outcome ≠ .ok none) ∧
    ((Connection.new.after [⟨plainSave, none⟩]).query (getRun · 1)).1 =
      .ok (some (plainSave.request.record 1 true)) ∧
    (∃ e, ((SaveAttempt.mk plainSave (some (2, .exit))).apply
      (Connection.new.after [⟨plainSave, none⟩])).1.outcome = .error e) ∧
    ((Connection.new.after [⟨plainSave, none⟩, ⟨plainSave, some (2, .exit)⟩]).query
      (getRun · 1)).1 = .ok (some (plainSave.request.record 1 false)) := by
  refine ⟨⟨rfl, ?_⟩, rfl, ⟨_, rfl⟩, rfl⟩
  rw [outcome_loadTable_of_not_fitsCell rfl]
  exact fun h => nomatch h

end CalibratedCosts.Store
