import Mathlib
import CalibratedCosts.Proofs.Store.Connection
import CalibratedCosts.Proofs.Text.Order
import CalibratedCosts.Store.Repository

/-! # What a save stores

    A save that succeeds retires the active run and adds rows behind those
    that are there: one header, a row for each model of the table and a row
    for each failure, all under the next identifier.  A save that fails leaves
    the store as it was.
-/

namespace CalibratedCosts.Store

/-! ## Section 1: requests -/

/-- What a save is asked to store. -/
structure SaveRequest where
  table : CostModelTable
  fits : OrderedMap Text Fitted
  failures : List FailureNote
  now : Timestamp

namespace SaveRequest

/-- The statements that store what is asked for. -/
def statements (req : SaveRequest) : List (Statement SaveError) :=
  saveStatements req.table req.fits req.failures req.now

/-- Saves what is asked for. -/
def save (req : SaveRequest) (s : History) : Traced SaveError Int × History :=
  saveTable req.table req.fits req.failures req.now s

end SaveRequest

/-! ## Section 2: stored rows -/

/-- A column holds a text. -/
def TextCell.Holds (c : TextCell) (t : Text) : Prop := ∃ s, columnString t = .ok s ∧ .text s = c

theorem columnString_eq_ok {t : Text} {s : String} (h : columnString t = .ok s) :
    (s : Text) = t := by
  have hbind : bindText t = .ok s := mapError_eq_ok_iff.1 h
  have hstring : t.string? = some s := by
    unfold bindText Text.Utf8.encodable at hbind
    cases hs : t.string? with
    | none =>
      rw [hs] at hbind
      cases hbind
    | some s' =>
      rw [hs] at hbind
      -- The text is short enough, or the binding refuses it.
      by_cases hsize : s'.utf8ByteSize ≤ textLimit
      · simp only [if_pos hsize] at hbind
        rw [Except.ok.inj hbind]
      · simp only [if_neg hsize] at hbind
        cases hbind
  exact Text.ofString_of_string?_eq_some hstring

namespace TextCell.Holds

variable {c c' : TextCell} {t t' : Text}

theorem exists_string (h : c.Holds t) : ∃ s : String, c = .text s ∧ (s : Text) = t := by
  obtain ⟨s, hs, rfl⟩ := h
  exact ⟨s, rfl, columnString_eq_ok hs⟩

/-- A text is held in one way, and nothing else is held in it. -/
theorem eq_iff (h : c.Holds t) (h' : c'.Holds t') : c = c' ↔ t = t' := by
  constructor
  · rintro rfl
    obtain ⟨s, hs, rfl⟩ := h.exists_string
    obtain ⟨s', hs', rfl⟩ := h'.exists_string
    cases hs.symm.trans hs'
    rfl
  · rintro rfl
    obtain ⟨s, hs, rfl⟩ := h
    obtain ⟨s', hs', rfl⟩ := h'
    rw [hs] at hs'
    cases hs'
    rfl

end TextCell.Holds

/-- The header of a run whose table was asked to be stored, in use or
    retired. -/
structure SaveRequest.StoresHeader (req : SaveRequest) (runId : Int) (inUse : Bool) (row : RunRow) :
    Prop where
  runId : row.runId = runId
  fingerprint : row.fingerprint = .text req.table.fingerprint
  calibratedAt : row.calibratedAt.Holds req.table.calibratedAt
  storedAt : row.storedAt = .text req.now.text
  operationCount : row.operationCount = .integer req.table.size
  active : row.active = .integer (if inUse then 1 else 0)

/-- The row of an operation's model in a run. -/
structure SaveRequest.StoresModel (req : SaveRequest) (runId : Int) (entry : Text × QuantizedModel)
    (row : ModelRow) : Prop where
  runId : row.runId = runId
  operation : row.operation.Holds entry.1
  constParam : row.constParam = .text (toString entry.2.constParam)
  linParam : row.linParam = .text (toString entry.2.linParam)
  rSquared : columnQuality (qualityOf req.fits entry.1) = .ok row.rSquared

/-- The row of a failure in a run. -/
structure FailureNote.StoredAs (note : FailureNote) (runId : Int) (row : FailureRow) : Prop where
  runId : row.runId = runId
  operation : row.operation.Holds note.operation
  errorType : row.errorType = .text note.errorType
  message : row.message.Holds note.message

/-- The rows that a save adds. -/
structure RunRows where
  header : RunRow
  models : List ModelRow
  failures : List FailureRow

/-- The rows are those of a request: one for each model and each failure, in
    their order. -/
structure SaveRequest.StoredAs (req : SaveRequest) (runId : Int) (rows : RunRows) : Prop where
  header : req.StoresHeader runId true rows.header
  models : List.Forall₂ (req.StoresModel runId) req.table.entries.toList rows.models
  failures : List.Forall₂ (fun note row => note.StoredAs runId row) req.failures rows.failures

/-- The store with the rows of a new run, which is the only active one. -/
def History.add (s : History) (rows : RunRows) : History where
  runs := (retire s).runs ++ [rows.header]
  models := s.models ++ rows.models
  failures := s.failures ++ rows.failures
  lastRun := rows.header.runId

/-! ## Section 3: rows with keys -/

/-- What no two models have in common. -/
def ModelRow.key (row : ModelRow) : Int × TextCell := (row.runId, row.operation)

/-- What no two failures have in common. -/
def FailureRow.key (row : FailureRow) : Int × TextCell := (row.runId, row.operation)

section Keys

variable {ρ κ : Type} (key : ρ → κ)

/-- No two of the new rows have one key, and none has that of a row that is
    there. -/
def AreFresh (old new : List ρ) : Prop :=
  (∀ row ∈ new, key row ∉ old.map key) ∧ (new.map key).Nodup

theorem areFresh_nil (old : List ρ) : AreFresh key old [] := by simp [AreFresh]

theorem areFresh_cons {old new : List ρ} {row : ρ} :
    AreFresh key old (row :: new) ↔ key row ∉ old.map key ∧ AreFresh key (old ++ [row]) new := by
  unfold AreFresh
  simp only [List.forall_mem_cons, List.map_cons, List.nodup_cons, List.map_append, List.mem_append,
    List.map_nil, List.mem_singleton, not_or, List.mem_map (l := new)]
  constructor
  · rintro ⟨⟨hrow, hnew⟩, hother, hnodup⟩
    exact ⟨hrow, fun r hr => ⟨hnew r hr, fun heq => hother ⟨r, hr, heq⟩⟩, hnodup⟩
  · rintro ⟨hrow, hnew, hnodup⟩
    exact ⟨⟨hrow, fun r hr => (hnew r hr).1⟩, fun ⟨r, hr, heq⟩ => (hnew r hr).2 heq, hnodup⟩

end Keys

/-- Statements that add one row each to a table.  The row is made for the newest
    run and comes last, unless there is one with its key. -/
structure AddsRows {α ρ κ : Type} (insert : α → Statement SaveError) (IsRow : Int → α → ρ → Prop)
    (key : ρ → κ) (rowsOf : History → List ρ) (withRows : History → List ρ → History) : Prop where
  insert_eq_ok_iff : ∀ a s s', insert a s = .ok s' ↔ ∃ row, IsRow s.lastRun a row ∧
    key row ∉ (rowsOf s).map key ∧ withRows s (rowsOf s ++ [row]) = s'
  rowsOf_withRows : ∀ s rows, rowsOf (withRows s rows) = rows
  lastRun_withRows : ∀ s rows, (withRows s rows).lastRun = s.lastRun
  withRows_withRows : ∀ s rows rows', withRows (withRows s rows) rows' = withRows s rows'
  withRows_self : ∀ s, withRows s (rowsOf s) = s

/-- All rows are added, in their order, if each of them can be made and their
    keys are fresh. -/
theorem AddsRows.applyAll_eq_ok_iff {α ρ κ : Type} {insert : α → Statement SaveError}
    {IsRow : Int → α → ρ → Prop} {key : ρ → κ} {rowsOf : History → List ρ}
    {withRows : History → List ρ → History} (h : AddsRows insert IsRow key rowsOf withRows)
    {as : List α} {s s' : History} :
    applyAll (as.map insert) s = .ok s' ↔ ∃ rows, List.Forall₂ (IsRow s.lastRun) as rows ∧
      AreFresh key (rowsOf s) rows ∧ withRows s (rowsOf s ++ rows) = s' := by
  induction as generalizing s with
  | nil =>
    -- No rows are added, and the state is the one at the start.
    show Except.ok s = _ ↔ _
    constructor
    · intro heq
      cases heq
      exact ⟨[], .nil, areFresh_nil key _, by rw [List.append_nil, h.withRows_self]⟩
    · rintro ⟨rows, hrows, -, rfl⟩
      cases hrows
      rw [List.append_nil, h.withRows_self]
  -- The first row goes in if its key is fresh; the others must then be fresh
  -- for the longer list.
  | cons a rest ih =>
    rw [List.map_cons, applyAll_cons, bind_eq_ok_iff]
    simp only [ih, h.insert_eq_ok_iff]
    constructor
    · rintro ⟨_, ⟨row, hrow, hkey, rfl⟩, rows, hrows, hfresh, rfl⟩
      rw [h.rowsOf_withRows] at hfresh
      rw [h.lastRun_withRows] at hrows
      refine ⟨row :: rows, .cons hrow hrows, (areFresh_cons key).2 ⟨hkey, hfresh⟩, ?_⟩
      rw [h.withRows_withRows, h.rowsOf_withRows, List.append_assoc, List.singleton_append]
    · rintro ⟨_, hrows, hfresh, rfl⟩
      cases hrows with
      | @cons _ row _ rows hrow hrest =>
        obtain ⟨hkey, hfresh⟩ := (areFresh_cons key).1 hfresh
        refine ⟨_, ⟨row, hrow, hkey, rfl⟩, rows, ?_, ?_, ?_⟩
        · rwa [h.lastRun_withRows]
        · rwa [h.rowsOf_withRows]
        · rw [h.withRows_withRows, h.rowsOf_withRows, List.append_assoc, List.singleton_append]

theorem hasModel_eq_true_iff {s : History} {runId : Int} {operation : TextCell} :
    s.hasModel runId operation = true ↔ (runId, operation) ∈ s.models.map ModelRow.key := by
  unfold History.hasModel
  simp [ModelRow.key]

theorem addsRows_insertModel (req : SaveRequest) :
    AddsRows (insertModel req.fits) req.StoresModel ModelRow.key History.models
      fun s rows => { s with models := rows } where
  -- Two columns may refuse, then the primary key.
  insert_eq_ok_iff entry s s' := by
    unfold insertModel
    constructor
    · intro h
      obtain ⟨operation, hoperation, h⟩ := bind_eq_ok_iff.1 h
      obtain ⟨rSquared, hquality, h⟩ := bind_eq_ok_iff.1 h
      by_cases htaken : s.hasModel s.lastRun operation = true
      · simp only [if_pos htaken] at h
        cases h
      · simp only [if_neg htaken] at h
        cases h
        exact ⟨_, ⟨rfl, ⟨operation, hoperation, rfl⟩, rfl, rfl, hquality⟩,
          mt hasModel_eq_true_iff.2 htaken, rfl⟩
    · rintro ⟨⟨_, _, _, _, rSquared⟩, ⟨rfl, ⟨operation, hoperation, rfl⟩, rfl, rfl, hquality⟩,
        hfresh, rfl⟩
      refine bind_eq_ok_iff.2 ⟨operation, hoperation, bind_eq_ok_iff.2 ⟨rSquared, hquality, ?_⟩⟩
      simp only [if_neg (mt hasModel_eq_true_iff.1 hfresh)]
  rowsOf_withRows _ _ := rfl
  lastRun_withRows _ _ := rfl
  withRows_withRows _ _ _ := rfl
  withRows_self _ := rfl

theorem addsRows_insertFailure :
    AddsRows insertFailure (fun runId note row => FailureNote.StoredAs note runId row)
      FailureRow.key History.failures fun s rows => { s with failures := rows } where
  insert_eq_ok_iff note s s' := by
    have htaken_iff (operation : TextCell) :
        (s.failures.any fun r => r.runId = s.lastRun && r.operation = operation) = true ↔
          (s.lastRun, operation) ∈ s.failures.map FailureRow.key := by
      simp [FailureRow.key]
    unfold insertFailure
    constructor
    · intro h
      obtain ⟨operation, hoperation, h⟩ := bind_eq_ok_iff.1 h
      obtain ⟨message, hmessage, h⟩ := bind_eq_ok_iff.1 h
      by_cases htaken : (s.failures.any fun r => r.runId = s.lastRun && r.operation = operation) = true
      · simp only [if_pos htaken] at h
        cases h
      · simp only [if_neg htaken] at h
        cases h
        exact ⟨⟨s.lastRun, operation, note.errorType, message⟩,
          ⟨rfl, ⟨operation, hoperation, rfl⟩, rfl, ⟨message, hmessage, rfl⟩⟩,
          mt (htaken_iff operation).2 htaken, rfl⟩
    · rintro ⟨⟨_, _, _, _⟩, ⟨rfl, ⟨operation, hoperation, rfl⟩, rfl, ⟨message, hmessage, rfl⟩⟩,
        hfresh, rfl⟩
      refine bind_eq_ok_iff.2 ⟨operation, hoperation, bind_eq_ok_iff.2 ⟨message, hmessage, ?_⟩⟩
      simp only [if_neg (mt (htaken_iff _).1 hfresh)]
  rowsOf_withRows _ _ := rfl
  lastRun_withRows _ _ := rfl
  withRows_withRows _ _ _ := rfl
  withRows_self _ := rfl

/-! ## Section 4: the steps of a save -/

theorem foldl_max_le_iff {ns : List Int} {start bound : Int} :
    ns.foldl max start ≤ bound ↔ start ≤ bound ∧ ∀ n ∈ ns, n ≤ bound := by
  induction ns generalizing start with
  | nil => simp
  | cons n rest ih => rw [List.foldl_cons, ih, max_le_iff, List.forall_mem_cons, and_assoc]

theorem highestRun_le_iff {s : History} {bound : Int} :
    s.highestRun ≤ bound ↔ 0 ≤ bound ∧ s.lastRun ≤ bound ∧ ∀ row ∈ s.runs, row.runId ≤ bound := by
  unfold History.highestRun
  rw [foldl_max_le_iff, max_le_iff, and_assoc, List.forall_mem_map]

theorem highestRun_retire (s : History) : (retire s).highestRun = s.highestRun := by
  have hids : (retire s).runs.map (·.runId) = s.runs.map (·.runId) := by
    unfold retire
    rw [List.map_map]
    refine List.map_congr_left fun row _ => ?_
    show (if row.isActive then { row with active := .integer 0 } else row).runId = row.runId
    split_ifs <;> rfl
  unfold History.highestRun
  rw [hids]
  rfl

/-- The header goes behind those that are there, as long as there is an
    identifier left. -/
theorem insertRun_eq_ok_iff {req : SaveRequest} {s s' : History} :
    insertRun req.table req.now s = .ok s' ↔ s.highestRun < integerLimit ∧
      ∃ row, req.StoresHeader (s.highestRun + 1) true row ∧
        { s with runs := s.runs ++ [row], lastRun := row.runId } = s' := by
  unfold insertRun
  constructor
  · intro h
    obtain ⟨calibratedAt, hcolumn, h⟩ := bind_eq_ok_iff.1 h
    by_cases hfull : integerLimit ≤ s.highestRun
    · simp only [if_pos hfull] at h
      cases h
    · simp only [if_neg hfull] at h
      cases h
      exact ⟨not_le.1 hfull, _, ⟨rfl, rfl, ⟨calibratedAt, hcolumn, rfl⟩, rfl, rfl, rfl⟩, rfl⟩
  · rintro ⟨hlimit, ⟨_, _, _, _, _, _⟩, ⟨rfl, rfl, ⟨calibratedAt, hcolumn, rfl⟩, rfl, rfl, rfl⟩, rfl⟩
    refine bind_eq_ok_iff.2 ⟨calibratedAt, hcolumn, ?_⟩
    simp only [if_neg (not_le.2 hlimit)]
    rfl

theorem lacksQuality_eq_true_iff {fits : OrderedMap Text Fitted} {operation : Text} :
    lacksQuality fits operation = true ↔ fits.get? operation = some .withoutQuality := by
  unfold lacksQuality
  rcases fits.get? operation with _ | (_ | _) <;> simp

theorem lookAtFits_eq_ok_iff {fits : OrderedMap Text Fitted} {operations : List Text}
    {s s' : History} :
    lookAtFits fits operations s = .ok s' ↔
      (∀ operation ∈ operations, fits.get? operation ≠ some .withoutQuality) ∧ s = s' := by
  have hall : (∀ operation ∈ operations, fits.get? operation ≠ some .withoutQuality) ↔
      ¬ operations.any (lacksQuality fits) = true := by
    simp only [List.any_eq_true, lacksQuality_eq_true_iff, not_exists, not_and]
  rw [hall]
  unfold lookAtFits
  by_cases hlacks : operations.any (lacksQuality fits) = true
  · simp [hlacks]
  · simp [hlacks]

/-! ## Section 5: a save as a whole -/

/-- The keys of the rows are fresh. -/
structure RunRows.AreFreshIn (rows : RunRows) (s : History) : Prop where
  models : AreFresh ModelRow.key s.models rows.models
  failures : AreFresh FailureRow.key s.failures rows.failures

namespace SaveRequest

variable {req : SaveRequest} {s s' : History} {runId : Int}

/-- What the statements of a save come to. -/
theorem applyAll_statements_eq_ok_iff :
    applyAll req.statements s = .ok s' ↔ s.highestRun < integerLimit ∧
      (∀ operation ∈ req.table.operations, req.fits.get? operation ≠ some .withoutQuality) ∧
      ∃ rows, req.StoredAs (s.highestRun + 1) rows ∧ rows.AreFreshIn s ∧ s.add rows = s' := by
  unfold statements saveStatements
  -- The statements run in order: retire, insert the header, look at the fits,
  -- insert the models, insert the failures.
  simp only [List.cons_append, List.nil_append, applyAll_cons, applyAll_append,
    bind_eq_ok_iff, Except.ok.injEq, exists_eq_left', insertRun_eq_ok_iff, lookAtFits_eq_ok_iff,
    (addsRows_insertModel req).applyAll_eq_ok_iff, addsRows_insertFailure.applyAll_eq_ok_iff,
    highestRun_retire]
  constructor
  · rintro ⟨_, ⟨hlimit, header, hheader, rfl⟩, _, ⟨hmeasured, rfl⟩, _,
      ⟨models, hmodels, hfreshModels, rfl⟩, failures, hfailures, hfreshFailures, rfl⟩
    simp only [hheader.runId] at hmodels hfailures
    exact ⟨hlimit, hmeasured, ⟨header, models, failures⟩, ⟨hheader, hmodels, hfailures⟩,
      ⟨hfreshModels, hfreshFailures⟩, rfl⟩
  · rintro ⟨hlimit, hmeasured, ⟨header, models, failures⟩, ⟨hheader, hmodels, hfailures⟩,
      ⟨hfreshModels, hfreshFailures⟩, rfl⟩
    have hid : header.runId = s.highestRun + 1 := hheader.runId
    rw [← hid] at hmodels hfailures
    exact ⟨_, ⟨hlimit, header, hheader, rfl⟩, _, ⟨hmeasured, rfl⟩, _,
      ⟨models, hmodels, hfreshModels, rfl⟩, failures, hfailures, hfreshFailures, rfl⟩

theorem save_of_ok (h : applyAll req.statements s = .ok s') :
    req.save s = (⟨.ok s'.lastRun, [.tableStored]⟩, s') := by
  unfold save saveTable Connection.save
  rw [show saveStatements _ _ _ _ = req.statements from rfl, Connection.block_settled_of_ok h]
  rfl

theorem save_of_error {e : SaveError} (h : applyAll req.statements s = .error e) :
    req.save s = (Traced.fail e, s) := by
  obtain ⟨c, hc, hcommitted⟩ := Connection.exists_block_settled_of_error SaveError.isError h
  unfold save saveTable Connection.save
  rw [show saveStatements _ _ _ _ = req.statements from rfl, hc]
  exact congrArg (Prod.mk _) hcommitted

/-- A save that succeeds gives back the next identifier and adds the rows of
    the request. -/
theorem save_eq_ok (h : (req.save s).1.outcome = .ok runId) :
    runId = s.highestRun + 1 ∧ runId ≤ integerLimit ∧
    ∃ rows, req.StoredAs runId rows ∧ rows.AreFreshIn s ∧ (req.save s).2 = s.add rows := by
  cases hall : applyAll req.statements s with
  | error e =>
    rw [save_of_error hall] at h
    cases h
  | ok s' =>
    -- The run's number is what the header was inserted under.
    obtain ⟨hlimit, -, rows, hrows, hfresh, rfl⟩ := applyAll_statements_eq_ok_iff.1 hall
    rw [save_of_ok hall] at h ⊢
    obtain rfl : (s.add rows).lastRun = runId := Except.ok.inj h
    have hid : (s.add rows).lastRun = s.highestRun + 1 := hrows.header.runId
    rw [hid]
    exact ⟨rfl, by omega, rows, hrows, hfresh, rfl⟩

/-- A save that fails leaves the store as it was. -/
theorem save_eq_error {e : SaveError} (h : (req.save s).1.outcome = .error e) :
    (req.save s).2 = s := by
  cases hall : applyAll req.statements s with
  | error e' => rw [save_of_error hall]
  | ok s' =>
    rw [save_of_ok hall] at h
    cases h

end SaveRequest
end CalibratedCosts.Store
