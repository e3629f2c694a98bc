import Mathlib
import CalibratedCosts.Proofs.OrderedMap
import CalibratedCosts.Proofs.Outcome
import CalibratedCosts.Proofs.Table.Lookup
import CalibratedCosts.Samples.Recorded

/-! # Collecting recorded samples

    Recorded samples are handed out as they are: each operation that is asked
    for has the samples that were recorded for it, and nothing else has any.
    Collecting them leaves the machine alone.
-/

namespace CalibratedCosts.Samples.RecordedSamples

variable {σ : Type}

/-! ## Section 1: entries -/

theorem entryOf_eq_ok_iff {key pairs : Datum} {name : Text} {measurements : List Measurement} :
    entryOf key pairs = .ok (name, measurements) ↔
      key.Names name ∧ measurementsOf pairs = .ok measurements := by
  unfold entryOf
  rw [bind_eq_ok_iff, ← Datum.identifier_eq_ok_iff]
  constructor
  · rintro ⟨measurements', hmeasurements, h⟩
    obtain ⟨name', hname, h⟩ := bind_eq_ok_iff.1 h
    cases h
    exact ⟨mapError_eq_ok_iff.1 hname, hmeasurements⟩
  · rintro ⟨hname, hmeasurements⟩
    exact ⟨measurements, hmeasurements,
      bind_eq_ok_iff.2 ⟨name, mapError_eq_ok_iff.2 hname, rfl⟩⟩

/-- A key that names an operation is added with the measurements of its
    pairs. -/
theorem add_eq_ok_iff {recorded recorded' : RecordedSamples} {key pairs : Datum} :
    recorded.add key pairs = .ok recorded' ↔
      ∃ name measurements, (key.Names name ∧ measurementsOf pairs = .ok measurements) ∧
        recorded' = ⟨recorded.samples.insert name measurements⟩ := by
  unfold add
  constructor
  · intro h
    split at h
    · rename_i name measurements hentry
      cases h
      exact ⟨name, measurements, entryOf_eq_ok_iff.1 hentry, rfl⟩
    · split at h
      · cases h
      · cases h
  · rintro ⟨name, measurements, hentry, rfl⟩
    rw [entryOf_eq_ok_iff.2 hentry]

/-- Entries that are taken one by one are taken together. -/
theorem ofEntries_eq_ok {entries : List (Datum × Datum)} {named : List (Text × List Measurement)}
    (h : List.Forall₂ (fun e n => entryOf e.1 e.2 = .ok n) entries named) :
    ofEntries entries = .ok ⟨OrderedMap.ofList named⟩ := by
  -- For any start of the fold, as the map grows with each entry.
  have hfold : ∀ m : OrderedMap Text (List Measurement),
      entries.foldlM (fun recorded e => RecordedSamples.add recorded e.1 e.2) ⟨m⟩ =
        .ok ⟨named.foldl (fun m n => m.insert n.1 n.2) m⟩ := by
    induction h with
    | nil => exact fun m => rfl
    | @cons e n entries named hentry _ ih =>
      intro m
      have hadd : RecordedSamples.add ⟨m⟩ e.1 e.2 = .ok ⟨m.insert n.1 n.2⟩ := by
        unfold add
        rw [hentry]
      rw [List.foldlM_cons, hadd]
      exact ih (m.insert n.1 n.2)
  exact hfold .empty

/-! ## Section 2: one operation after the other -/

/-- Adds the samples of an operation to what has been collected, or skips it
    if there are none. -/
def collect (recorded : RecordedSamples) (collected : Collected) (name : Text) : Collected :=
  match recorded.samples.get? name with
  | some samples => { collected with samples := collected.samples.insert name samples }
  | none => { collected with skipped := collected.skipped ++ [name] }

/-- The samples that requests for some operations are answered with: those
    that were recorded, but none for an operation that is not among the
    requested ones.  No request asks for everything. -/
def answer (recorded : RecordedSamples) (requests : List Text) (name : Text) :
    Option (List Measurement) :=
  if requests = [] ∨ name ∈ requests then recorded.samples.get? name else none

theorem mem_keys_iff {recorded : RecordedSamples} {name : Text} :
    name ∈ recorded.samples.keys ↔ (recorded.samples.get? name).isSome := by
  unfold OrderedMap.keys OrderedMap.get?
  rw [Option.isSome_map, List.find?_isSome]
  simp

end CalibratedCosts.Samples.RecordedSamples
