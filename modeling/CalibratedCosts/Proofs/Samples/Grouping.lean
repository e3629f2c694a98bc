import Mathlib
import CalibratedCosts.Proofs.Samples.Records
import CalibratedCosts.Proofs.Samples.Recorded

/-! # Records by operation

    Records of one operation need not stand together.  A source has the
    operations of the records in the order of their first ones, and for each of
    them the measurements of its records in their order.
-/

namespace CalibratedCosts.Samples

/-! ## Section 1: records -/

/-- A recorded measurement of an operation that has a name. -/
structure Record where
  operation : String
  measurement : Measurement
  named : operation ≠ ""

namespace Record

def name (r : Record) : Text := r.operation

theorem name_ne_empty (r : Record) : r.name ≠ "" :=
  fun h => r.named (Text.ofString_injective h)

/-- The operations of records, each once. -/
def operations (records : List Record) : List Text := (records.map name).eraseDups

/-- The measurements of an operation. -/
def measurementsAt (records : List Record) (operation : Text) : List Measurement :=
  (records.filter fun r => r.name = operation).map measurement

variable {records : List Record} {operation : Text}

theorem operations_append (records : List Record) (r : Record) :
    operations (records ++ [r]) =
      if r.name ∈ operations records then operations records
      else operations records ++ [r.name] := by
  unfold operations
  rw [List.map_append]
  exact OrderedMap.eraseDups_append_singleton (records.map name) r.name

theorem measurementsAt_append (records : List Record) (r : Record) :
    measurementsAt (records ++ [r]) =
      Function.update (measurementsAt records) r.name
        (measurementsAt records r.name ++ [r.measurement]) := by
  funext operation
  unfold measurementsAt
  by_cases h : operation = r.name
  · subst h
    simp
  · rw [Function.update_of_ne h]
    simp [Ne.symm h]

theorem mem_operations_iff :
    operation ∈ operations records ↔ ∃ r ∈ records, r.name = operation := by
  unfold operations
  rw [List.mem_eraseDups, List.mem_map]

theorem measurementsAt_of_not_mem (h : operation ∉ operations records) :
    measurementsAt records operation = [] := by
  unfold measurementsAt
  rw [List.map_eq_nil_iff, List.filter_eq_nil_iff]
  intro r hr hname
  exact h (mem_operations_iff.2 ⟨r, hr, by simpa using hname⟩)

/-- The operations with their measurements. -/
def groups (records : List Record) : List (Text × List Measurement) :=
  (operations records).map fun operation => (operation, measurementsAt records operation)

end Record

open Record (operations measurementsAt groups)

namespace RecordedSamples

variable {records : List Record}

/-! ## Section 2: grouping -/

/-- Puts the measurement of a record behind the earlier ones of its operation. -/
def putRecord (m : OrderedMap Text (List Measurement)) (r : Record) :
    OrderedMap Text (List Measurement) :=
  m.insert r.name (m.getD r.name [] ++ [r.measurement])

/-- Records that come one by one are grouped by their operations. -/
theorem tabulates_foldl_putRecord (records : List Record) :
    (records.foldl putRecord .empty).Tabulates (operations records) (measurementsAt records) := by
  -- From the last record; an operation that is new has no measurements before it.
  induction records using List.reverseRecOn with
  | nil => exact OrderedMap.tabulates_empty _
  | append_singleton records r ih =>
    have hold := ih.getD_eq (k := r.name) Record.measurementsAt_of_not_mem
    rw [List.foldl_append, List.foldl_cons, List.foldl_nil, putRecord, hold,
      Record.operations_append, Record.measurementsAt_append]
    exact ih.insert r.name _

/-- The datum that is the key of an operation. -/
def keyed (entries : List (Text × List Measurement)) : List (Datum × List Measurement) :=
  entries.map fun e => (.text e.1, e.2)

theorem entries_put {grouped : Grouped} {m : OrderedMap Text (List Measurement)}
    (h : grouped.entries = keyed m.entries) (r : Record) :
    (put grouped (.text r.name, r.measurement)).entries = keyed (putRecord m r).entries := by
  have hkeys : ∀ s t : Text, (Datum.text s == Datum.text t) = (s == t) := fun _ _ => rfl
  have hold : grouped.getD (.text r.name) [] = m.getD r.name [] := by
    unfold OrderedMap.getD OrderedMap.get?
    rw [h]
    exact congrArg (Option.getD · []) (OrderedMap.find?_map hkeys r.name m.entries)
  -- The key is inserted twice, and the second value is the one that stays.
  show OrderedMap.insertEntry _ _ (OrderedMap.insertEntry _ _ grouped.entries) = _
  rw [OrderedMap.insertEntry_insertEntry (by simp [hkeys]), hold, h]
  exact OrderedMap.insertEntry_map hkeys r.name _ m.entries

/-- The records of lines are grouped as the records are. -/
theorem entries_foldl_put (records : List Record) :
    ((records.map fun r => (Datum.text r.name, r.measurement)).foldl put .empty).entries =
      keyed (groups records) := by
  -- On the records, for any two maps that agree but for the kind of key.
  have hmirror : ∀ {grouped : Grouped} {m : OrderedMap Text (List Measurement)},
      grouped.entries = keyed m.entries →
      ((records.map fun r => (Datum.text r.name, r.measurement)).foldl put grouped).entries =
        keyed (records.foldl putRecord m).entries := by
    induction records with
    | nil => exact fun h => h
    | cons r rest ih => exact fun h => ih (entries_put h r)
  rw [hmirror (m := .empty) rfl, tabulates_foldl_putRecord records, groups]

/-! ## Section 3: constructing a source -/

theorem measurementsOf_pairsOf (measurements : List Measurement) :
    measurementsOf (pairsOf measurements) = .ok measurements := by
  show List.mapM measurementOf (measurements.map _) = _
  rw [mapM_eq_ok_iff, List.forall₂_map_left_iff, List.forall₂_same]
  exact fun _ _ => rfl

theorem entryOf_text {name : Text} (h : name ≠ "") (measurements : List Measurement) :
    entryOf (.text name) (pairsOf measurements) = .ok (name, measurements) :=
  entryOf_eq_ok_iff.2 ⟨.text h, measurementsOf_pairsOf measurements⟩

/-- Operations with names are taken as they are. -/
theorem ofEntries_texts {entries : List (Text × List Measurement)} (h : ∀ e ∈ entries, e.1 ≠ "") :
    ofEntries ((keyed entries).map fun e => (e.1, pairsOf e.2)) =
      .ok ⟨OrderedMap.ofList entries⟩ := by
  apply ofEntries_eq_ok
  unfold keyed
  rw [List.map_map, List.forall₂_map_left_iff, List.forall₂_same]
  exact fun e he => entryOf_text (h e he) e.2

/-! ## Section 4: the source of some records -/

/-- The source that has the records. -/
def ofRecords (records : List Record) : RecordedSamples := ⟨.ofList (groups records)⟩

/-- A source gives records back: it has their operations, in the order of their
    first records, and for each of them the measurements of its records in their
    order.  It has no other operation. -/
structure GivesBack (recorded : RecordedSamples) (records : List Record) : Prop where
  operations : ∀ σ, (recorded.source σ).operations = operations records
  collects : ∀ {σ : Type} {d : Datum} {name : Text} (s : σ), d.identifier? = some name →
    (recorded.source σ).collectOne d s =
      (if name ∈ Record.operations records then pure (measurementsAt records name)
        else Traced.fail (.source (.unsupported name)), s)

theorem tabulates_ofRecords (records : List Record) :
    (ofRecords records).samples.Tabulates (operations records) (measurementsAt records) := by
  have hnodup := (tabulates_foldl_putRecord records).nodup
  have hnames : (groups records).map Prod.fst = operations records := by
    rw [groups, List.map_map]
    exact List.map_id _
  refine OrderedMap.entries_ofList ?_
  rw [hnames]
  exact hnodup.imp fun hne => by simpa using hne

theorem givesBack_ofRecords (records : List Record) : (ofRecords records).GivesBack records where
  operations σ := by
    show (ofRecords records).samples.entries.map Prod.fst = operations records
    rw [tabulates_ofRecords records, List.map_map]
    exact List.map_id _
  collects := by
    intro σ d name s hname
    unfold SampleSource.collectOne source
    rw [Datum.identifier_eq_ok hname]
    by_cases hmem : name ∈ Record.operations records
    · simp only [(tabulates_ofRecords records).get?_of_mem hmem, if_pos hmem]
    · simp only [(tabulates_ofRecords records).get?_of_not_mem hmem, if_neg hmem]

end RecordedSamples
end CalibratedCosts.Samples
