import Mathlib
import CalibratedCosts.Proofs.Datum
import CalibratedCosts.Proofs.Table.Entries

/-! # Looking operations up

    What a table answers for a datum, without the events: the model of the
    operation that the datum names, or the first thing that is wrong.
-/

namespace CalibratedCosts

/-! ## Section 1: identifiers -/

theorem Datum.identifier_eq_ok {d : Datum} {name : Text} (h : d.identifier? = some name) :
    d.identifier = .ok name := by
  unfold Datum.identifier
  rw [h]

theorem Datum.identifier_eq_error {d : Datum} (h : d.identifier? = none) :
    d.identifier = .error ⟨d⟩ := by
  unfold Datum.identifier
  rw [h]

/-- A name that is not empty identifies the operation of that name. -/
theorem Datum.identifier?_text {name : Text} (h : name ≠ "") :
    (Datum.text name).identifier? = some name := by
  unfold Datum.identifier? Datum.asText?
  exact if_neg h

/-- The name of an operation is the text of the datum. -/
theorem Datum.asText?_of_identifier? {d : Datum} {name : Text} (h : d.identifier? = some name) :
    d.asText? = some name := by
  unfold Datum.identifier? at h
  split at h
  · rename_i t htext
    split at h
    · cases h
    · cases h
      exact htext
  · cases h

theorem HostOperation.identifier_ne_empty (o : HostOperation) : (o.identifier : Text) ≠ "" := by
  cases o <;> decide

/-- What names an operation: a host primitive, by its identifier, and a text that
    is not empty. -/
inductive Datum.Names : Datum → Text → Prop
  | operation (o : HostOperation) : Names (.operation o) o.identifier
  | text {name : Text} (h : name ≠ "") : Names (.text name) name

theorem Datum.names_iff {d : Datum} {name : Text} : d.Names name ↔ d.identifier? = some name := by
  constructor
  · intro h
    cases h with
    | operation o => exact if_neg o.identifier_ne_empty
    | text h => exact Datum.identifier?_text h
  · intro h
    have hne : name ≠ "" := Datum.identifier?_ne_empty h
    have htext : d.asText? = some name := Datum.asText?_of_identifier? h
    -- Only two kinds of data have a text.
    cases d with
    | text t =>
      cases htext
      exact .text hne
    | operation o =>
      cases htext
      exact .operation o
    | _ => cases htext

theorem Datum.identifier_eq_ok_iff {d : Datum} {name : Text} :
    d.identifier = .ok name ↔ d.Names name := by
  rw [Datum.names_iff]
  refine ⟨fun h => ?_, Datum.identifier_eq_ok⟩
  unfold Datum.identifier at h
  split at h
  · rename_i name' hname
    cases h
    exact hname
  · cases h

namespace Entries

theorem outcome_lookup (entries : Entries) {operation : Datum} {name : Text}
    (h : operation.identifier? = some name) :
    (entries.lookup operation).outcome =
      match entries.get? name with
      | some model => .ok model
      | none => .error (.uncalibrated name) := by
  unfold lookup
  rw [Datum.identifier_eq_ok h]
  cases hget : entries.get? name with
  | none => simp [Except.mapError, Except.bind, hget]
  | some model => simp [Except.mapError, Except.bind, hget]

theorem outcome_lookup_of_no_identifier (entries : Entries) {operation : Datum}
    (h : operation.identifier? = none) :
    (entries.lookup operation).outcome = .error (.identifier ⟨operation⟩) := by
  unfold lookup
  rw [Datum.identifier_eq_error h, Traced.outcome_bind]
  rfl

theorem outcome_evaluate (entries : Entries) {operation : Datum} {name : Text}
    (h : operation.identifier? = some name) (size : Int) :
    (entries.evaluate operation size).outcome =
      match entries.get? name with
      | some model => (model.evaluate size).mapError .size
      | none => .error (.uncalibrated name) := by
  unfold evaluate
  rw [Traced.outcome_bind, outcome_lookup entries h]
  cases entries.get? name with
  | none => rfl
  | some model => rfl

theorem outcome_evaluate_of_no_identifier (entries : Entries) {operation : Datum}
    (h : operation.identifier? = none) (size : Int) :
    (entries.evaluate operation size).outcome = .error (.identifier ⟨operation⟩) := by
  unfold evaluate
  rw [Traced.outcome_bind, outcome_lookup_of_no_identifier entries h]
  rfl

end Entries

namespace CostModelTable

theorem outcome_lookup (t : CostModelTable) {operation : Datum} {name : Text}
    (h : operation.identifier? = some name) :
    (t.lookup operation).outcome =
      match t.entries.get? name with
      | some model => .ok model
      | none => .error (.uncalibrated name) := t.entries.outcome_lookup h

theorem outcome_evaluate (t : CostModelTable) {operation : Datum} {name : Text}
    (h : operation.identifier? = some name) (size : Int) :
    (t.evaluate operation size).outcome =
      match t.entries.get? name with
      | some model => (model.evaluate size).mapError .size
      | none => .error (.uncalibrated name) := t.entries.outcome_evaluate h size

theorem outcome_evaluate_of_no_identifier (t : CostModelTable) {operation : Datum}
    (h : operation.identifier? = none) (size : Int) :
    (t.evaluate operation size).outcome = .error (.identifier ⟨operation⟩) :=
  t.entries.outcome_evaluate_of_no_identifier h size

/-- An operation that has a model is one of the table's. -/
theorem contains_of_get? {t : CostModelTable} {operation : Datum} {name : Text}
    {model : QuantizedModel} (h : operation.identifier? = some name)
    (hmodel : t.entries.get? name = some model) : t.contains operation = true := by
  have hmem : name ∈ t.operations := by
    rw [operations, Entries.mem_names_iff, hmodel]
    rfl
  unfold contains
  rw [h]
  exact List.contains_iff_mem.2 hmem

end CostModelTable
end CalibratedCosts
