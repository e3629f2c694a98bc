import Mathlib
import CalibratedCosts.Proofs.Store.Save
import CalibratedCosts.Proofs.Table.Entries

/-! # Which saves succeed

    A request is storable if every text and every quality in it fits into a
    column, no operation of the table has a fit without a quality, and no
    operation has failed twice.  A storable request is stored as long as there
    is an identifier left, and no other is.
-/

namespace CalibratedCosts.Store

/-! ## Section 1: the condition -/

/-- The text fits into a column. -/
def FitsColumn (t : Text) : Prop := ∃ s, columnString t = .ok s

theorem exists_holds_iff {t : Text} : (∃ c : TextCell, c.Holds t) ↔ FitsColumn t := by
  constructor
  · rintro ⟨c, s, hs, -⟩
    exact ⟨s, hs⟩
  · rintro ⟨s, hs⟩
    exact ⟨_, s, hs, rfl⟩

/-- Nothing in the request is refused by the store. -/
structure SaveRequest.Storable (req : SaveRequest) : Prop where
  calibratedAt : FitsColumn req.table.calibratedAt
  measured : ∀ e ∈ req.table.entries.toList, req.fits.get? e.1 ≠ some .withoutQuality
  models : ∀ e ∈ req.table.entries.toList,
    FitsColumn e.1 ∧ ∃ quality, columnQuality (qualityOf req.fits e.1) = .ok quality
  failures : ∀ note ∈ req.failures, FitsColumn note.operation ∧ FitsColumn note.message
  distinct : (req.failures.map (·.operation)).Nodup

/-! ## Section 2: rows of a request -/

section Keys

variable {α ρ : Type} {R : α → ρ → Prop} {as : List α} {rows old : List ρ} {nameOf : α → Text}
  {runIdOf : ρ → Int} {operationOf : ρ → TextCell} {runId : Int}

/-- Rows of one run have different keys if they hold different operations. -/
theorem nodup_keys_iff (h : List.Forall₂ R as rows)
    (hrow : ∀ a row, R a row → runIdOf row = runId ∧ (operationOf row).Holds (nameOf a)) :
    (rows.map fun row => (runIdOf row, operationOf row)).Nodup ↔ (as.map nameOf).Nodup := by
  rw [List.Nodup, List.Nodup, List.pairwise_map, List.pairwise_map]
  -- All rows have the one run identifier, so their keys differ exactly if the
  -- names do.
  have hpair {a a' : α} {row row' : ρ} (hr : R a row) (hr' : R a' row') :
      (runIdOf row, operationOf row) = (runIdOf row', operationOf row') ↔ nameOf a = nameOf a' := by
    rw [Prod.mk.injEq, (hrow a row hr).1, (hrow a' row' hr').1,
      (hrow a row hr).2.eq_iff (hrow a' row' hr').2]
    exact and_iff_right rfl
  constructor
  · intro hrows
    exact pairwise_of_forall₂ h.flip hrows fun hr hr' hne => mt (hpair hr hr').2 hne
  · intro hnames
    exact pairwise_of_forall₂ h hnames fun hr hr' hne => mt (hpair hr hr').1 hne

/-- Rows of a run that comes after all others have fresh keys if they hold
    different operations. -/
theorem areFresh_of_nodup (h : List.Forall₂ R as rows)
    (hrow : ∀ a row, R a row → runIdOf row = runId ∧ (operationOf row).Holds (nameOf a))
    (hold : ∀ row ∈ old, runIdOf row < runId) (hnames : (as.map nameOf).Nodup) :
    AreFresh (fun row => (runIdOf row, operationOf row)) old rows := by
  refine ⟨fun row hmem hkey => ?_, (nodup_keys_iff h hrow).2 hnames⟩
  obtain ⟨earlier, hearlier, heq⟩ := List.mem_map.1 hkey
  have hid : runIdOf row = runId := forall_mem_of_forall₂ h (fun a row hr => (hrow a row hr).1) row hmem
  have hlt := hold earlier hearlier
  rw [(Prod.mk.inj heq).1, hid] at hlt
  exact lt_irrefl _ hlt

end Keys

namespace SaveRequest

variable {req : SaveRequest} {s : History} {runId : Int}

/-- The rows of a storable request. -/
theorem Storable.exists_rows (h : req.Storable) (runId : Int) :
    ∃ rows, req.StoredAs runId rows := by
  obtain ⟨calibratedAt, hcalibrated⟩ := exists_holds_iff.2 h.calibratedAt
  obtain ⟨models, hmodels⟩ := exists_forall₂ (R := req.StoresModel runId) fun e he => by
    obtain ⟨hoperation, rSquared, hquality⟩ := h.models e he
    obtain ⟨operation, hoperation⟩ := exists_holds_iff.2 hoperation
    exact ⟨⟨runId, operation, _, _, rSquared⟩, rfl, hoperation, rfl, rfl, hquality⟩
  obtain ⟨failures, hfailures⟩ :=
    exists_forall₂ (R := fun note row => FailureNote.StoredAs note runId row) fun note hnote => by
      obtain ⟨hoperation, hmessage⟩ := h.failures note hnote
      obtain ⟨operation, hoperation⟩ := exists_holds_iff.2 hoperation
      obtain ⟨message, hmessage⟩ := exists_holds_iff.2 hmessage
      exact ⟨⟨runId, operation, note.errorType, message⟩, rfl, hoperation, rfl, hmessage⟩
  exact ⟨⟨⟨runId, _, calibratedAt, _, _, _⟩, models, failures⟩,
    ⟨rfl, rfl, hcalibrated, rfl, rfl, rfl⟩, hmodels, hfailures⟩

theorem StoredAs.fitsColumns {rows : RunRows} (h : req.StoredAs runId rows) :
    FitsColumn req.table.calibratedAt ∧
    (∀ e ∈ req.table.entries.toList,
      FitsColumn e.1 ∧ ∃ quality, columnQuality (qualityOf req.fits e.1) = .ok quality) ∧
    ∀ note ∈ req.failures, FitsColumn note.operation ∧ FitsColumn note.message := by
  refine ⟨exists_holds_iff.1 ⟨_, h.header.calibratedAt⟩, fun e he => ?_, fun note hnote => ?_⟩
  · obtain ⟨row, -, hrow⟩ := exists_mem_of_forall₂ h.models he
    exact ⟨exists_holds_iff.1 ⟨_, hrow.operation⟩, _, hrow.rSquared⟩
  · obtain ⟨row, -, hrow⟩ := exists_mem_of_forall₂ h.failures hnote
    exact ⟨exists_holds_iff.1 ⟨_, hrow.operation⟩, exists_holds_iff.1 ⟨_, hrow.message⟩⟩

/-! ## Section 3: a save as a whole -/

/-- A storable request is stored as long as there is an identifier left, and no
    other is. -/
theorem exists_save_iff (hmodels : ∀ row ∈ s.models, row.runId ≤ s.highestRun)
    (hfailures : ∀ row ∈ s.failures, row.runId ≤ s.highestRun) :
    (∃ runId, (req.save s).1.outcome = .ok runId) ↔
      req.Storable ∧ s.highestRun < integerLimit := by
  have hsave : (∃ runId, (req.save s).1.outcome = .ok runId) ↔
      ∃ s', applyAll req.statements s = .ok s' := by
    cases hall : applyAll req.statements s with
    | error e => simp [save_of_error hall]
    | ok s' => simp [save_of_ok hall]
  rw [hsave]
  constructor
  · rintro ⟨s', h⟩
    obtain ⟨hlimit, hmeasured, rows, hrows, hfresh, -⟩ := applyAll_statements_eq_ok_iff.1 h
    obtain ⟨hcalibrated, hentries, hnotes⟩ := hrows.fitsColumns
    refine ⟨⟨hcalibrated, fun e he => hmeasured _ (List.mem_map_of_mem he), hentries, hnotes, ?_⟩,
      hlimit⟩
    exact (nodup_keys_iff hrows.failures fun _ _ hrow => ⟨hrow.runId, hrow.operation⟩).1
      hfresh.failures.2
  · rintro ⟨hstorable, hlimit⟩
    obtain ⟨rows, hrows⟩ := hstorable.exists_rows (s.highestRun + 1)
    have hmeasured : ∀ operation ∈ req.table.operations,
        req.fits.get? operation ≠ some .withoutQuality := by
      intro operation hoperation
      obtain ⟨e, he, rfl⟩ := List.mem_map.1 hoperation
      exact hstorable.measured e he
    -- All rows that are there belong to earlier runs.
    have hfresh : rows.AreFreshIn s :=
      ⟨areFresh_of_nodup hrows.models (fun _ _ hrow => ⟨hrow.runId, hrow.operation⟩)
        (fun row hrow => Int.lt_add_one_iff.2 (hmodels row hrow)) req.table.entries.nodup_names,
      areFresh_of_nodup hrows.failures (fun _ _ hrow => ⟨hrow.runId, hrow.operation⟩)
        (fun row hrow => Int.lt_add_one_iff.2 (hfailures row hrow)) hstorable.distinct⟩
    exact ⟨_, applyAll_statements_eq_ok_iff.2 ⟨hlimit, hmeasured, rows, hrows, hfresh, rfl⟩⟩

end SaveRequest
end CalibratedCosts.Store
