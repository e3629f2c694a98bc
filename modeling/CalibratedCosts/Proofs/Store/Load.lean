import Mathlib
import CalibratedCosts.Proofs.Numeral.Integer
import CalibratedCosts.Proofs.Store.Save
import CalibratedCosts.Proofs.Table.Entries
import CalibratedCosts.Proofs.Table.Lookup

/-! # What a load gives back

    The rows that a save has added are fetched as they were bound: the header
    becomes a record, and the rows of the models become the table again, the
    parameters through their numerals, the entries in their order, and the
    fingerprint anew.
-/

namespace CalibratedCosts.Store

/-! ## Section 1: rows as records -/

/-- A header is fetched and becomes a record. -/
def RunRow.Reads (row : RunRow) (r : RunRecord) : Prop :=
  ∃ d, row.fetch = .ok d ∧ RunRecord.ofRow d = .ok r

/-- A model is fetched and becomes a record. -/
def ModelRow.Reads (row : ModelRow) (r : ModelRecord) : Prop :=
  ∃ d, row.fetch = .ok d ∧ ModelRecord.ofRow d = .ok r

/-- A failure is fetched and becomes a record. -/
def FailureRow.Reads (row : FailureRow) (r : FailureRecord) : Prop :=
  ∃ d, row.fetch = .ok d ∧ FailureRecord.ofRow d = .ok r

theorem recordOf_eq_ok_iff {row : RunRow} {r : RunRecord} : recordOf row = .ok r ↔ row.Reads r := by
  unfold recordOf RunRow.Reads
  rw [bind_eq_ok_iff]
  simp only [mapError_eq_ok_iff]

section Queries

variable {s : History} {n : Int}

theorem bind_of_fitsCell (h : fitsCell n = true) : bind n = .ok n :=
  mapError_eq_ok_iff.2 (if_pos h)

theorem bind_of_not_fitsCell (h : fitsCell n = false) :
    bind n = .error (.binding .integerTooLarge) := by
  unfold bind bindInteger
  rw [h]
  rfl

theorem listRuns_eq_ok_iff (h : fitsCell n = true) {records : List RunRecord} :
    listRuns s n = .ok records ↔ List.Forall₂ RunRow.Reads
      (if n < 0 then newestFirst s else (newestFirst s).take n.toNat) records := by
  unfold listRuns
  rw [bind_of_fitsCell h]
  refine mapM_bind_mapM_eq_ok_iff.trans ?_
  simp only [mapError_eq_ok_iff]
  rfl

theorem getModels_eq_ok_iff (h : fitsCell n = true) {records : List ModelRecord} :
    getModels s n = .ok records ↔ List.Forall₂ ModelRow.Reads (modelRows s n) records := by
  unfold getModels
  rw [bind_of_fitsCell h]
  refine mapM_bind_mapM_eq_ok_iff.trans ?_
  simp only [mapError_eq_ok_iff]
  rfl

/-- Stored models have been read from the rows, each from its own. -/
theorem storedModels_cases {models : List (Datum × QuantizedModel)}
    (h : storedModels s n = .ok models) :
    ∃ records, List.Forall₂ ModelRow.Reads (modelRows s n) records ∧
      ∀ e ∈ models, ∃ r ∈ records, r.operation = e.1 := by
  unfold storedModels at h
  split at h
  · cases h
  · cases h
  · rename_i records hrecords
    cases hfits : fitsCell n with
    | false =>
      -- An identifier beyond a cell is refused before any row is read.
      unfold getModels at hrecords
      rw [bind_of_not_fitsCell hfits] at hrecords
      cases hrecords
    | true =>
      refine ⟨records, (getModels_eq_ok_iff hfits).1 hrecords, fun e he => ?_⟩
      obtain ⟨r, hr, hmodel⟩ := exists_of_mem_mapM h he
      obtain ⟨_, -, rfl⟩ := map_eq_ok_iff.1 hmodel
      exact ⟨r, hr, rfl⟩

/-- The rows of a run's failures, in the order of their operations. -/
def failureRows (s : History) (runId : Int) : List FailureRow :=
  (s.failures.filter (·.runId = runId)).mergeSort fun a b => a.operation.upTo b.operation

theorem getFailures_eq_ok_iff (h : fitsCell n = true) {records : List FailureRecord} :
    getFailures s n = .ok records ↔ List.Forall₂ FailureRow.Reads (failureRows s n) records := by
  unfold getFailures
  rw [bind_of_fitsCell h]
  refine mapM_bind_mapM_eq_ok_iff.trans ?_
  simp only [mapError_eq_ok_iff]
  rfl

end Queries

/-! ## Section 2: headers -/

/-- The record of the run that a request was stored as. -/
def SaveRequest.record (req : SaveRequest) (runId : Int) (active : Bool) : RunRecord where
  runId := .whole runId
  fingerprint := .text req.table.fingerprint
  calibratedAt := .text req.table.calibratedAt
  storedAt := .text req.now.text
  operationCount := .whole req.table.size
  active := active

theorem SaveRequest.StoresHeader.reads {req : SaveRequest} {runId : Int} {inUse : Bool}
    {row : RunRow} (h : req.StoresHeader runId inUse row) : row.Reads (req.record runId inUse) := by
  obtain ⟨runId, fingerprint, calibratedAt, storedAt, operationCount, active⟩ := row
  obtain ⟨rfl, rfl, hcalibrated, rfl, rfl, rfl⟩ := h
  obtain ⟨s, rfl, hs⟩ := hcalibrated.exists_string
  unfold SaveRequest.record
  rw [← hs]
  cases inUse with
  | false => exact ⟨_, rfl, rfl⟩
  | true => exact ⟨_, rfl, rfl⟩

/-! ## Section 3: qualities -/

/-- What the quality of a fit is read back as.  A number of double precision
    is read back as the same number and an integer as the number nearest to
    it; a fit without a quality, and one whose quality is undefined, has a
    null. -/
inductive ShowsQuality : Option Number → Datum → Prop where
  | absent : ShowsQuality none .null
  | undefined : ShowsQuality (some (.double .nan)) .null
  | double {x y : Binary64} (h : y.same x = true) : ShowsQuality (some (.double x)) (.double y)
  | whole (n : Int) : ShowsQuality (some (.whole n)) (.double (Binary64.ofInt n))

/-- A cell has one zero, which is the same number as both zeros. -/
theorem same_oneZero {x : Binary64} (h : x ≠ .nan) : (if x.same 0 then 0 else x).same x = true := by
  by_cases hzero : x.same 0 = true
  · rw [if_pos hzero]
    -- Both zeros are stored as 0, and 0 is the same as either.
    cases x with
    | nan => cases hzero
    | infinite negative => cases hzero
    | finite negative m e hcanonical =>
      have hvalue := of_decide_eq_true hzero
      exact decide_eq_true hvalue.symm
  · rw [if_neg hzero]
    cases x with
    | nan => exact absurd rfl h
    | infinite negative => exact beq_self_eq_true negative
    | finite negative m e hcanonical => exact decide_eq_true rfl

/-- A column of qualities holds nothing but numbers. -/
theorem columnQuality_cases {quality : Option Number} {cell : Option Cell}
    (h : columnQuality quality = .ok cell) :
    cell = none ∧ ShowsQuality quality .null ∨
    ∃ x, cell = some (.real x) ∧ ShowsQuality quality (.double x) := by
  obtain ⟨bound, hbound, rfl⟩ := map_eq_ok_iff.1 h
  have hcell := mapError_eq_ok_iff.1 hbound
  cases quality with
  | none =>
    cases hcell
    exact .inl ⟨rfl, .absent⟩
  | some number =>
    cases number with
    | whole n =>
      obtain ⟨m, hm, rfl⟩ := map_eq_ok_iff.1 hcell
      -- An integer that fits into a cell is bound as it is.
      unfold bindInteger at hm
      by_cases hfits : fitsCell n = true
      · rw [if_pos hfits] at hm
        cases hm
        exact .inr ⟨_, rfl, .whole n⟩
      · rw [if_neg hfits] at hm
        cases hm
    | double x =>
      cases x with
      | nan =>
        cases hcell
        exact .inl ⟨rfl, .undefined⟩
      | infinite negative =>
        cases hcell
        exact .inr ⟨_, rfl, .double (same_oneZero (by simp))⟩
      | finite negative m e hcanonical =>
        cases hcell
        exact .inr ⟨_, rfl, .double (same_oneZero (by simp))⟩

/-! ## Section 4: models -/

theorem length_repr_le_of_le_u64Max {n : ℕ} (h : n ≤ u64Max) :
    n.repr.length ≤ Numeral.digitLimit := by
  rw [← String.length_toList, Nat.toList_repr]
  exact Numeral.length_toDigits_le (by decide) (Numeral.lt_pow_of_le_u64Max (by decide) h)

theorem toInteger_text (t : Text) :
    (Datum.text t).toInteger = integerOfText (Datum.text t).shown t.toString := rfl

/-- A parameter comes back through its numeral. -/
theorem toInteger_toString {n : ℕ} (h : n ≤ u64Max) :
    (Datum.text (toString n : String)).toInteger = .ok n := by
  rw [toInteger_text, Text.toString_ofString]
  unfold integerOfText
  rw [Numeral.readInteger_toString (length_repr_le_of_le_u64Max h)]

theorem integerColumn_eq_ok {row : Datum} (name : String) {n : ℕ} (hn : n ≤ u64Max)
    (h : column row name = .ok (.text (toString n : String))) : integerColumn row name = .ok n :=
  bind_eq_ok_iff.2 ⟨_, h, mapError_eq_ok_iff.2 (toInteger_toString hn)⟩

/-- The record of an entry of the table that was asked to be stored. -/
structure SaveRequest.ShowsModel (req : SaveRequest) (runId : Int) (entry : Text × QuantizedModel)
    (r : ModelRecord) : Prop where
  runId : r.runId = .whole runId
  operation : r.operation = .text entry.1
  model : r.toModel = .ok entry.2
  rSquared : ShowsQuality (qualityOf req.fits entry.1) r.rSquared

theorem toModel_eq_ok {r : ModelRecord} {model : QuantizedModel}
    (hconst : r.constParam = model.constParam) (hlin : r.linParam = model.linParam) :
    r.toModel = .ok model := by
  unfold ModelRecord.toModel QuantizedModel.ofInts QuantizedModel.ofData checkParameter
  rw [hconst, hlin]
  simp only [u64OfInt?_natCast ⟨model.constParam, model.const_le⟩,
    u64OfInt?_natCast ⟨model.linParam, model.lin_le⟩]
  rfl

/-- The row of a model as a record of columns. -/
theorem ModelRecord.ofRow_eq_ok (runId : Int) (operation : String) (model : QuantizedModel)
    (rSquared : Datum) :
    ModelRecord.ofRow (.object [("run_id", .whole runId), ("operation", .text operation),
      ("const_param", .text (toString model.constParam : String)),
      ("lin_param", .text (toString model.linParam : String)), ("r_squared", rSquared)]) =
      .ok ⟨.whole runId, .text operation, model.constParam, model.linParam, rSquared⟩ := by
  unfold ModelRecord.ofRow
  rw [integerColumn_eq_ok "const_param" model.const_le rfl,
    integerColumn_eq_ok "lin_param" model.lin_le rfl]
  rfl

/-- The row of a model is read back as the model. -/
theorem SaveRequest.StoresModel.exists_reads {req : SaveRequest} {runId : Int}
    {entry : Text × QuantizedModel} {row : ModelRow} (h : req.StoresModel runId entry row) :
    ∃ r, row.Reads r ∧ req.ShowsModel runId entry r := by
  obtain ⟨name, model⟩ := entry
  obtain ⟨runId, operation, constParam, linParam, rSquared⟩ := row
  obtain ⟨rfl, hoperation, rfl, rfl, hquality⟩ := h
  obtain ⟨s, rfl, rfl⟩ := hoperation.exists_string
  rcases columnQuality_cases hquality with ⟨rfl, hshows⟩ | ⟨x, rfl, hshows⟩
  · exact ⟨_, ⟨_, rfl, ModelRecord.ofRow_eq_ok _ s model _⟩, rfl, rfl, toModel_eq_ok rfl rfl, hshows⟩
  · exact ⟨_, ⟨_, rfl, ModelRecord.ofRow_eq_ok _ s model _⟩, rfl, rfl, toModel_eq_ok rfl rfl, hshows⟩

/-! ## Section 5: entries -/

theorem withModel_text {name : Text} (entries : Entries) (model : QuantizedModel)
    (h : name ≠ "") :
    withModel entries (.text name, model) = .ok (entries.insert name model h) := by
  unfold withModel
  split
  · rename_i hnone
    rw [Datum.identifier?_text h] at hnone
    cases hnone
  · rename_i name' hsome
    rw [Datum.identifier?_text h] at hsome
    cases hsome
    rfl

/-- Entries are made again from their own list. -/
theorem entriesOf_toList (entries : Entries) :
    entriesOf (entries.toList.map fun e => (.text e.1, e.2)) = .ok entries :=
  Entries.foldlM_toList (fun entries e h => withModel_text entries e.2 h) entries

/-! ## Section 6: tables -/

/-- Cells of text are in the order of the texts that they hold. -/
theorem TextCell.Holds.upTo_of_lt {c c' : TextCell} {t t' : Text} (h : c.Holds t) (h' : c'.Holds t')
    (hlt : t < t') : c.upTo c' = true := by
  obtain ⟨s, rfl, rfl⟩ := h.exists_string
  obtain ⟨s', rfl, rfl⟩ := h'.exists_string
  exact decide_eq_true (Text.le_of_ofString_lt hlt)

/-- Rows that were stored in the order of the entries are in the order of
    their operations. -/
theorem pairwise_operation {req : SaveRequest} {runId : Int} {rows : List ModelRow}
    (h : List.Forall₂ (req.StoresModel runId) req.table.entries.toList rows) :
    rows.Pairwise fun a b => a.operation.upTo b.operation = true :=
  pairwise_of_forall₂ h (List.pairwise_map.1 req.table.entries.sorted)
    fun hrow hrow' hlt => hrow.operation.upTo_of_lt hrow'.operation hlt

/-- The run has the rows of the models that a request asked to be stored. -/
def SaveRequest.ModelsIn (req : SaveRequest) (s : History) (runId : Int) : Prop :=
  List.Forall₂ (req.StoresModel runId) req.table.entries.toList
    (s.models.filter (·.runId = runId))

namespace SaveRequest.ModelsIn

variable {req : SaveRequest} {s : History} {runId : Int}

theorem modelRows_eq (h : req.ModelsIn s runId) :
    modelRows s runId = s.models.filter (·.runId = runId) :=
  List.mergeSort_of_pairwise (pairwise_operation h)

/-- The models of a run come in the order of the entries. -/
theorem exists_getModels (h : req.ModelsIn s runId) (hfits : fitsCell runId = true) :
    ∃ records, getModels s runId = .ok records ∧
      List.Forall₂ (req.ShowsModel runId) req.table.entries.toList records := by
  simp only [getModels_eq_ok_iff hfits, h.modelRows_eq]
  exact exists_forall₂_and h fun _ _ hrow => hrow.exists_reads

/-- All rows are read back, each as the model of its entry. -/
theorem storedModels_eq_ok (h : req.ModelsIn s runId) (hfits : fitsCell runId = true) :
    storedModels s runId = .ok (req.table.entries.toList.map fun e => (.text e.1, e.2)) := by
  obtain ⟨records, hrecords, hshow⟩ := h.exists_getModels hfits
  unfold storedModels
  rw [hrecords]
  show List.mapM _ records = _
  rw [mapM_eq_ok_iff, List.forall₂_map_right_iff]
  refine hshow.flip.imp fun r entry hshows => ?_
  rw [hshows.model, hshows.operation]
  rfl

/-- The table of a run is the one that was asked to be stored, whenever it is
    loaded. -/
theorem tableOf_eq_ok {run : RunRow} {inUse : Bool} (hheader : req.StoresHeader runId inUse run)
    (h : req.ModelsIn s runId) (hfits : fitsCell runId = true) (now : Timestamp) :
    (tableOf s run now).outcome = .ok (.ofTable req.table) := by
  have hrecord : (recordOf run).mapError LoadError.query = .ok (req.record runId inUse) :=
    mapError_eq_ok_iff.2 (recordOf_eq_ok_iff.2 hheader.reads)
  have hentries := (mapError_eq_ok_iff (f := LoadError.identifier)).2
    (entriesOf_toList req.table.entries)
  -- A stored time is not empty, so that the time of the load is not used.
  have hstamped : StoredTable.stamped req.table.entries (.text req.table.calibratedAt) now =
      .ofTable req.table := by
    unfold StoredTable.stamped
    rw [if_pos (show Datum.isSet (.text req.table.calibratedAt) = true from
      decide_eq_true req.table.dated)]
    rfl
  -- The entries are the same, and with them the fingerprint.
  have hfingerprint : (Datum.text req.table.fingerprint == .text req.table.entries.fingerprint) =
      true := Datum.sameKey_text_iff.2 rfl
  unfold tableOf
  rw [hheader.runId]
  simp only [Traced.outcome_bind, Traced.outcome_ofExcept, hrecord, h.storedModels_eq_ok hfits,
    Except.bind, hentries, SaveRequest.record, if_pos hfingerprint, hstamped]
  rfl

end SaveRequest.ModelsIn

/-- What a load comes to once the header is found, or is not. -/
def loadedFrom (s : History) (row : Option RunRow) (now : Timestamp) :
    Except LoadError (Option StoredTable) :=
  match row with
  | none => .ok none
  | some run => (tableOf s run now).outcome.map some

theorem outcome_tableOf (s : History) (run : RunRow) (now : Timestamp) :
    (tableOf s run now >>= fun table => pure (some table)).outcome = loadedFrom s (some run) now := by
  show _ = (tableOf s run now).outcome.map some
  rw [Traced.outcome_bind]
  cases (tableOf s run now).outcome with
  | error e => rfl
  | ok t => rfl

theorem outcome_loadTable_none (s : History) (now : Timestamp) :
    (loadTable s none now).outcome = loadedFrom s (activeRow? s) now := by
  unfold loadTable
  rw [Traced.outcome_bind]
  show (match activeRow? s with | none => pure none | some run => _ : Traced _ _).outcome = _
  cases activeRow? s with
  | none => rfl
  | some run => exact outcome_tableOf s run now

theorem outcome_loadTable_some {s : History} {runId : Int} (h : fitsCell runId = true)
    (now : Timestamp) :
    (loadTable s (some runId) now).outcome = loadedFrom s (runRow? s runId) now := by
  unfold loadTable
  show (Traced.ofExcept (((bind runId).mapError LoadError.query).map (runRow? s)) >>=
    _).outcome = _
  rw [Traced.outcome_bind, bind_of_fitsCell h]
  show (match runRow? s runId with | none => pure none | some run => _ : Traced _ _).outcome = _
  cases runRow? s runId with
  | none => rfl
  | some run => exact outcome_tableOf s run now

/-! ## Section 8: identifiers outside of the limits -/

variable {s : History} {n : Int}

theorem getRun_of_not_fitsCell (h : fitsCell n = false) :
    getRun s n = .error (.binding .integerTooLarge) := by
  unfold getRun
  rw [bind_of_not_fitsCell h]
  rfl

theorem listRuns_of_not_fitsCell (h : fitsCell n = false) :
    listRuns s n = .error (.binding .integerTooLarge) := by
  unfold listRuns
  rw [bind_of_not_fitsCell h]
  rfl

theorem outcome_loadTable_of_not_fitsCell (h : fitsCell n = false) (now : Timestamp) :
    (loadTable s (some n) now).outcome = .error (.query (.binding .integerTooLarge)) := by
  unfold loadTable
  show (Traced.ofExcept (((bind n).mapError LoadError.query).map (runRow? s)) >>= _).outcome = _
  rw [Traced.outcome_bind, bind_of_not_fitsCell h]
  rfl

end CalibratedCosts.Store
