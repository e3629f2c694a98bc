import Mathlib
import CalibratedCosts.Proofs.Datum
import CalibratedCosts.Proofs.Files.System
import CalibratedCosts.Proofs.Json.Reading
import CalibratedCosts.Proofs.OrderedMap
import CalibratedCosts.Proofs.Outcome
import CalibratedCosts.Samples.Recorded

/-! # Records line by line

    A text of JSON lines is read from its first line to its last.  What a line
    comes to does not depend on the lines before it: it is blank, it is a record
    or it has a fault, and the first line with a fault is the one that is
    reported.
-/

namespace CalibratedCosts

open Json (Value)
open OrderedMap (IsLast)

/-! ## Section 1: fields of what has been read -/

namespace Datum

theorem ofJsonFields_eq (fields : List (Text × Value)) :
    ofJsonFields fields = fields.map fun f => (f.1, ofJson f.2) := by
  induction fields with
  | nil => rw [ofJsonFields, List.map_nil]
  | cons f rest ih => rw [ofJsonFields, ih, List.map_cons]

theorem ofJsonItems_eq (items : List Value) : ofJsonItems items = items.map ofJson := by
  induction items with
  | nil => rw [ofJsonItems, List.map_nil]
  | cons v rest ih => rw [ofJsonItems, ih, List.map_cons]

theorem isLast_ofJsonFields_iff {fields : List (Text × Value)} {name : Text} {d : Datum} :
    -- The fields are translated one by one, and their names are kept.
    IsLast (ofJsonFields fields) name d ↔ ∃ v, IsLast fields name v ∧ ofJson v = d := by
  have hrelated : List.Forall₂ (fun (e : Text × Value) (e' : Text × Datum) =>
      e.1 = e'.1 ∧ ofJson e.2 = e'.2) fields (ofJsonFields fields) := by
    rw [ofJsonFields_eq, List.forall₂_map_right_iff]
    exact List.forall₂_same.2 fun _ _ => ⟨rfl, rfl⟩
  constructor
  · intro h
    obtain ⟨v, hv, -, hd⟩ := h.exists_of_forall₂ (fun _ _ he => he.1.symm) hrelated.flip
    exact ⟨v, hv, hd⟩
  · rintro ⟨v, hv, rfl⟩
    obtain ⟨d, hd, -, rfl⟩ := hv.exists_of_forall₂ (fun _ _ he => he.1) hrelated
    exact hd

/-- The field of an object that has been read is the last one of the name. -/
theorem field_ofJson_object {fields : List (Text × Value)} {name : String} {d : Datum} :
    (ofJson (.object fields)).field name = .ok d ↔
      ∃ v, IsLast fields name v ∧ ofJson v = d := by
  rw [← isLast_ofJsonFields_iff, ← OrderedMap.get?_ofList_eq_some_iff, ofJson, object,
    Datum.field, field?_text]
  show _ ↔ Option.map Prod.snd _ = some d
  cases ((OrderedMap.ofList (ofJsonFields fields)).entries.find? fun f => f.1 == ↑name).map
    Prod.snd with
  | none => simp
  | some d => simp

/-- All keys of a record that has been read are texts. -/
theorem exists_text_of_ofJson_eq_record {v : Value} {fields : List (Datum × Datum)}
    (h : ofJson v = .record fields) {field : Datum × Datum} (hfield : field ∈ fields) :
    ∃ name, field.1 = .text name := by
  cases v with
  | object entries =>
    rw [ofJson, object] at h
    cases h
    obtain ⟨entry, -, rfl⟩ := List.mem_map.1 hfield
    exact ⟨entry.1, rfl⟩
  | _ =>
    rw [ofJson] at h
    cases h

/-- Only an object has fields. -/
theorem exists_object_of_field {v : Value} {name : String} {d : Datum}
    (h : (ofJson v).field name = .ok d) : ∃ fields, v = .object fields := by
  cases v with
  | object fields => exact ⟨fields, rfl⟩
  | _ =>
    rw [ofJson] at h
    cases h

end Datum

namespace Samples

/-! ## Section 2: one line -/

/-- The key of a record, which must be one that a map can have. -/
def keyOf (record : Datum) : Except RecordFault Datum := do
  let key ← (record.field "operation").mapError .field
  match key.unusableKey? with
  | some kind => .error (.unusableKey ⟨kind⟩)
  | none => .ok key

/-- A part of the measurement of a record. -/
def recordedPart (part : Part) (record : Datum) : Except RecordFault Int := do
  let d ← (record.field part.name).mapError .field
  (partOf part d).mapError .part

/-- The key and the measurement of the record on a line. -/
def recordOf (line : List Char) : Except RecordFault (Datum × Measurement) :=
  match Json.read .lenient line with
  | .error fault => .error (.json line fault)
  | .ok v => do
    let key ← keyOf (Datum.ofJson v)
    let size ← recordedPart .size (Datum.ofJson v)
    let cost ← recordedPart .cost (Datum.ofJson v)
    .ok (key, ⟨size, cost⟩)

namespace RecordedSamples

/-- Puts a measurement behind the earlier ones of its key.  The key is there
    before the measurement is. -/
def put (grouped : Grouped) (record : Datum × Measurement) : Grouped :=
  let earlier := grouped.getD record.1 []
  (grouped.insert record.1 earlier).insert record.1 (earlier ++ [record.2])

/-- What a line comes to has nothing to do with the lines before it. -/
theorem addRecord_eq (grouped : Grouped) (line : List Char) :
    addRecord grouped line = (recordOf line).map (put grouped) := by
  unfold addRecord recordOf
  cases Json.read .lenient line with
  | error fault => rfl
  | ok v =>
    unfold keyOf recordedPart Datum.insertKey
    dsimp only [Part.name]
    cases ((Datum.ofJson v).field "operation").mapError RecordFault.field with
    | error fault => rfl
    | ok key =>
      show Except.bind (Except.mapError _ (match key.unusableKey? with
          | some kind => _
          | none => _)) _ =
        Except.map _ (Except.bind (match key.unusableKey? with
          | some kind => _
          | none => _) _)
      cases key.unusableKey? with
      | some kind => rfl
      | none =>
        show _ >>= _ = Except.map _ (_ >>= _)
        simp only [map_bind_eq, bind_assoc]
        rfl

end RecordedSamples

/-! ## Section 3: all lines -/

/-- What stands on a line, blanks around it aside. -/
def content (line : List Char) : List Char := Text.trimBoth Text.isBlank line

/-- What stands on the lines that are not blank. -/
def contents (lines : List (List Char)) : List (List Char) :=
  (lines.map content).filter fun cs => !cs.isEmpty

theorem contents_cons_of_blank {line : List Char} (h : content line = [])
    (rest : List (List Char)) : contents (line :: rest) = contents rest := by
  simp [contents, h]

theorem contents_cons {line : List Char} (h : content line ≠ []) (rest : List (List Char)) :
    contents (line :: rest) = content line :: contents rest := by
  simp [contents, h]

/-- A line has a record or nothing. -/
def IsInOrder (line : List Char) : Prop :=
  content line = [] ∨ ∃ record, recordOf (content line) = .ok record

theorem forall_isInOrder_iff {lines : List (List Char)} :
    (∀ line ∈ lines, IsInOrder line) ↔ ∃ records, (contents lines).mapM recordOf = .ok records := by
  rw [exists_mapM_eq_ok_iff]
  simp [contents, IsInOrder, or_iff_not_imp_left]

/-- After some lines that are in order comes the first one that is not, and this
    is what is wrong with it. -/
def FirstFault (lines : List (List Char)) (earlier : ℕ) (fault : RecordFault) : Prop :=
  ∃ before line after, lines = before ++ line :: after ∧ before.length = earlier ∧
    (∀ l ∈ before, IsInOrder l) ∧ content line ≠ [] ∧ recordOf (content line) = .error fault

/-- Either all lines are in order, or one of them is the first that is not. -/
theorem forall_isInOrder_or_firstFault (lines : List (List Char)) :
    (∀ line ∈ lines, IsInOrder line) ∨ ∃ earlier fault, FirstFault lines earlier fault := by
  induction lines with
  | nil => exact .inl fun _ h => (List.not_mem_nil h).elim
  | cons line rest ih =>
    -- Either this line is the first fault or it is one further down.
    by_cases hline : IsInOrder line
    · rcases ih with hrest | ⟨_, fault, before, line', after, rfl, -, hbefore, hfault⟩
      · exact .inl (List.forall_mem_cons.2 ⟨hline, hrest⟩)
      · exact .inr ⟨_, fault, line :: before, line', after, rfl, rfl,
          List.forall_mem_cons.2 ⟨hline, hbefore⟩, hfault⟩
    · obtain ⟨hcontent, hrecord⟩ := not_or.1 hline
      cases hread : recordOf (content line) with
      | ok record => exact absurd ⟨record, hread⟩ hrecord
      | error fault =>
        exact .inr ⟨0, fault, [], line, rest, rfl, rfl, fun _ h => (List.not_mem_nil h).elim,
          hcontent, hread⟩

namespace RecordedSamples

section Lines

variable {path : String} {number : ℕ} {line : List Char} {lines rest : List (List Char)}
  {grouped final : Grouped}

theorem addRecords_blank (h : content line = []) (number : ℕ) :
    addRecords path number (line :: rest) grouped = addRecords path (number + 1) rest grouped := by
  simp only [content] at h
  simp [addRecords, h]

theorem addRecords_record (h : content line ≠ []) {record : Datum × Measurement}
    (hrecord : recordOf (content line) = .ok record) (number : ℕ) :
    addRecords path number (line :: rest) grouped =
      addRecords path (number + 1) rest (put grouped record) := by
  simp only [content] at h hrecord
  simp [addRecords, h, addRecord_eq, hrecord, Except.map]

theorem addRecords_fault (h : content line ≠ []) {fault : RecordFault}
    (hfault : recordOf (content line) = .error fault) (number : ℕ) :
    addRecords path number (line :: rest) grouped = .error (lineError path number fault) := by
  simp only [content] at h hfault
  simp [addRecords, h, addRecord_eq, hfault, Except.map]

/-- Lines that are in order are counted, and their records are added one after
    the other. -/
theorem exists_addRecords_append (h : ∀ l ∈ lines, IsInOrder l) (path : String)
    (rest : List (List Char)) (number : ℕ) (grouped : Grouped) :
    ∃ records, (contents lines).mapM recordOf = .ok records ∧
      addRecords path number (lines ++ rest) grouped =
        addRecords path (number + lines.length) rest (records.foldl put grouped) := by
  -- On the lines; a blank one moves the number on and nothing else.
  induction lines generalizing number grouped with
  | nil => exact ⟨[], rfl, rfl⟩
  | cons line lines ih =>
    obtain ⟨hline, hlines⟩ := List.forall_mem_cons.1 h
    have hnumber : number + (line :: lines).length = number + 1 + lines.length := by
      rw [List.length_cons]
      omega
    rw [List.cons_append, hnumber]
    by_cases hblank : content line = []
    · obtain ⟨records, hread, hadd⟩ := ih hlines (number + 1) grouped
      refine ⟨records, ?_, by rw [addRecords_blank hblank, hadd]⟩
      rw [contents_cons_of_blank hblank, hread]
    · obtain ⟨record, hrecord⟩ := hline.resolve_left hblank
      obtain ⟨records, hread, hadd⟩ := ih hlines (number + 1) (put grouped record)
      refine ⟨record :: records, ?_, by rw [addRecords_record hblank hrecord, hadd]; rfl⟩
      rw [contents_cons hblank, List.mapM_cons, hrecord, hread]
      rfl

theorem addRecords_of_records {records : List (Datum × Measurement)}
    (h : (contents lines).mapM recordOf = .ok records) (number : ℕ) (grouped : Grouped) :
    addRecords path number lines grouped = .ok (records.foldl put grouped) := by
  obtain ⟨records', hread, hadd⟩ := exists_addRecords_append
    (forall_isInOrder_iff.2 ⟨records, h⟩) path [] number grouped
  rw [h] at hread
  cases hread
  rw [List.append_nil] at hadd
  exact hadd

theorem addRecords_of_firstFault {earlier : ℕ} {fault : RecordFault}
    (h : FirstFault lines earlier fault) (number : ℕ) (grouped : Grouped) :
    addRecords path number lines grouped = .error (lineError path (number + earlier) fault) := by
  obtain ⟨before, line, after, rfl, rfl, hbefore, hcontent, hfault⟩ := h
  obtain ⟨records, -, hadd⟩ := exists_addRecords_append hbefore path (line :: after) number grouped
  rw [hadd, addRecords_fault hcontent hfault]

/-- The lines are added if each of them is blank or a record. -/
theorem addRecords_eq_ok_iff :
    addRecords path number lines grouped = .ok final ↔
      ∃ records, (contents lines).mapM recordOf = .ok records ∧
        records.foldl put grouped = final := by
  constructor
  -- The lines have a first fault or none, and each case fixes the outcome.
  · intro h
    rcases forall_isInOrder_or_firstFault lines with horder | ⟨earlier, fault, hfirst⟩
    · obtain ⟨records, hread⟩ := forall_isInOrder_iff.1 horder
      rw [addRecords_of_records hread] at h
      exact ⟨records, hread, Except.ok.inj h⟩
    · rw [addRecords_of_firstFault hfirst] at h
      cases h
  · rintro ⟨records, hread, rfl⟩
    exact addRecords_of_records hread number grouped

/-- The first line at fault is the one that is reported. -/
theorem addRecords_eq_error_iff {e : LoadError} :
    addRecords path number lines grouped = .error e ↔
      ∃ earlier fault, FirstFault lines earlier fault ∧
        lineError path (number + earlier) fault = e := by
  constructor
  · intro h
    rcases forall_isInOrder_or_firstFault lines with horder | ⟨earlier, fault, hfirst⟩
    · obtain ⟨records, hread⟩ := forall_isInOrder_iff.1 horder
      rw [addRecords_of_records hread] at h
      cases h
    · rw [addRecords_of_firstFault hfirst] at h
      exact ⟨earlier, fault, hfirst, Except.error.inj h⟩
  · rintro ⟨earlier, fault, hfirst, rfl⟩
    exact addRecords_of_firstFault hfirst number grouped

end Lines

/-! ## Section 4: texts and files -/

theorem outcome_ofLines (path : String) (text : List Char) :
    (ofLines path text).outcome =
      (addRecords path 1 (Text.lines text) OrderedMap.empty).bind fun grouped =>
        ofEntries (grouped.entries.map fun e => (e.1, pairsOf e.2)) := by
  unfold ofLines
  rw [Traced.outcome_bind, Traced.outcome_ofExcept]
  rfl

section Files

variable {σ : Type} {fs : FileSystem σ} {p : FilePath} {bytes : List UInt8}
  (hnul : p.hasNul = false)

include hnul

theorem outcome_ofFile_of_error {e : SystemError} (h : fs.read p = .error e) :
    (ofFile fs p).outcome = .error (.source (.unreadable p.text e)) := by
  rw [ofFile, FileSystem.readText_of_error hnul h]
  rfl

theorem outcome_ofFile_of_undecodable {fault : Text.Utf8.Fault} (h : fs.read p = .ok bytes)
    (hdecode : Text.Utf8.decode bytes = .error fault) :
    (ofFile fs p).outcome = .error (.undecodable fault) := by
  rw [ofFile, FileSystem.readText_of_undecodable hnul h hdecode]
  rfl

/-- The suffix of a file says how its text is read. -/
theorem ofFile_of_decode {cs : List Char} (h : fs.read p = .ok bytes)
    (hdecode : Text.Utf8.decode bytes = .ok cs) :
    ofFile fs p =
      if p.suffix = ".jsonl" then ofLines p.text (Text.unifyLineEnds cs)
      else ofJson p.text (Text.unifyLineEnds cs) := by
  rw [ofFile, FileSystem.readText_of_decode hnul h hdecode]

end Files
end RecordedSamples
end Samples
end CalibratedCosts
