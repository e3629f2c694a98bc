import Mathlib
import CalibratedCosts.Artifact.Files
import CalibratedCosts.Proofs.Json.Printer
import CalibratedCosts.Proofs.OrderedMap
import CalibratedCosts.Proofs.Table.Entries

/-! # Artifacts are read back as the tables they were written from

    A table whose names and time have no halves of surrogate pairs is the
    table of its own artifact, whenever that is parsed: the document fits the
    reader, its fields pass their checks, the entries come back one by one in
    their order, and with them the fingerprint.
-/

namespace CalibratedCosts

/-- The text is a row of characters, without halves of surrogate pairs. -/
def Text.IsString (t : Text) : Prop := ∃ s : String, (s : Text) = t

namespace Artifact

open Json (Value Fits)

/-! ## Section 1: the document -/

theorem fits_toJson (m : QuantizedModel) (room : ℕ) : Fits (room + 1) (.value m.toJson) :=
  .object (.field "const_param" (.whole (Numeral.isWritable_of_le_u64Max m.const_le))
    (.field "lin_param" (.whole (Numeral.isWritable_of_le_u64Max m.lin_le)) .noFields))

theorem fits_entries {entries : List (Text × QuantizedModel)}
    (h : ∀ e ∈ entries, e.1.IsString) (room : ℕ) :
    Fits (room + 1) (.fields (entries.map fun e => (e.1, e.2.toJson))) := by
  induction entries with
  | nil => exact .noFields
  | cons e rest ih =>
    obtain ⟨⟨s, hs⟩, hrest⟩ := List.forall_mem_cons.1 h
    rw [List.map_cons, ← hs]
    exact .field s (fits_toJson e.2 room) (ih hrest)

variable {t : CostModelTable}

theorem fits_documentOf (hnames : ∀ name ∈ t.operations, name.IsString)
    (htime : t.calibratedAt.IsString) (room : ℕ) : Fits (room + 3) (.value (documentOf t)) := by
  obtain ⟨time, htime⟩ := htime
  have hentries : Fits (room + 2) (.value t.entries.toJson) :=
    .object (fits_entries (fun e he => hnames e.1 (List.mem_map_of_mem he)) room)
  unfold documentOf
  rw [← htime]
  exact .object (.field "calibrated_at" (.text time) (.field "entries" hentries
    (.field "fingerprint" (.text t.fingerprint)
      (.field "format_version" (.whole (Numeral.isWritable_of_le_u64Max (n := 1) (by decide))) .noFields))))

/-! ## Section 2: the checks -/

theorem checkParameterField_eq_ok {name : String} {place : List String}
    {fields : List (Text × Value)} {n : ℕ} (hn : n ≤ u64Max)
    (h : lastField? name fields = some (.whole n)) :
    checkParameterField name place fields = .ok ⟨n, hn⟩ := by
  unfold checkParameterField
  rw [h]
  have hpos : ¬ (n : ℤ) < 0 := by omega
  simp only [if_neg hpos, Int.toNat_natCast, dif_pos hn]

theorem checkEntry_toJson (name : Text) (m : QuantizedModel) :
    checkEntry name m.toJson = .ok m := by
  have hconst : lastField? "const_param"
      [("const_param", .whole m.constParam), ("lin_param", .whole m.linParam)] =
      some (.whole m.constParam) := rfl
  have hlin : lastField? "lin_param"
      [("const_param", .whole m.constParam), ("lin_param", .whole m.linParam)] =
      some (.whole m.linParam) := rfl
  simp only [checkEntry, QuantizedModel.toJson, checkParameterField_eq_ok m.const_le hconst,
    checkParameterField_eq_ok m.lin_le hlin]
  rfl

theorem checkEntries_toJson (entries : List (Text × QuantizedModel)) :
    checkEntries (entries.map fun e => (e.1, e.2.toJson)) = .ok entries := by
  induction entries with
  | nil => rfl
  | cons e rest ih =>
    rw [List.map_cons, checkEntries, checkEntry_toJson, ih]
    rfl

/-- The fields of a table's document. -/
def fieldsOf (t : CostModelTable) : List (Text × Value) :=
  [("calibrated_at", .text t.calibratedAt), ("entries", t.entries.toJson),
    ("fingerprint", .text t.fingerprint), ("format_version", .whole formatVersion)]

theorem checkTime_fieldsOf {time : String} (h : (time : Text) = t.calibratedAt) :
    checkTime (fieldsOf t) = .ok time := by
  have htext : checkTime (fieldsOf t) = .ok t.calibratedAt.toString := rfl
  rw [htext, ← h, Text.toString_ofString]

theorem checkFingerprint_fieldsOf (t : CostModelTable) :
    checkFingerprint (fieldsOf t) = .ok (some t.fingerprint) := by
  have htext : checkFingerprint (fieldsOf t) = .ok (some (t.fingerprint : Text).toString) := rfl
  rw [htext, Text.toString_ofString]

theorem checkEntriesField_fieldsOf (t : CostModelTable) :
    checkEntriesField (fieldsOf t) = .ok t.entries.toList := by
  have hfield : lastField? "entries" (fieldsOf t) = some t.entries.toJson := rfl
  unfold checkEntriesField
  rw [hfield]
  exact checkEntries_toJson t.entries.toList

/-- The document of a table passes all checks, and nothing of it is lost. -/
theorem ofJson_documentOf {time : String} (h : (time : Text) = t.calibratedAt) :
    Document.ofJson (documentOf t) =
      .ok ⟨formatVersion, time, some t.fingerprint, t.entries.toList⟩ := by
  have hversion : checkVersion (fieldsOf t) = .ok formatVersion := rfl
  show Document.ofJson (.object (fieldsOf t)) = _
  simp only [Document.ofJson, hversion, checkTime_fieldsOf h, checkFingerprint_fieldsOf,
    checkEntriesField_fieldsOf]
  rfl

/-! ## Section 3: the table -/

theorem entriesOf_toList (entries : Entries) : entriesOf entries.toList = .ok entries := by
  have hdistinct : (entries.toList.map Prod.fst).Pairwise fun k k' => (k == k') = false :=
    entries.nodup_names.imp fun hne => by simpa using hne
  have hlist : entries.toList = entries.toList.map id := (List.map_id _).symm
  unfold entriesOf
  rw [OrderedMap.entries_ofList hdistinct, hlist]
  exact Entries.foldlM_toList (fun entries e h => dif_neg h) entries

/-- The document of a table describes the table. -/
theorem tableOf_eq_ok {time : String} (h : (time : Text) = t.calibratedAt) (now : Timestamp) :
    tableOf ⟨formatVersion, time, some t.fingerprint, t.entries.toList⟩ now = .ok t := by
  -- A table has a time of its own, so that the time of the parse is not used.
  have hstamped : CostModelTable.stamped t.entries (some (time : Text)) now = t := by
    unfold CostModelTable.stamped
    rw [h]
    exact dif_neg t.dated
  unfold tableOf
  rw [entriesOf_toList]
  simp only [hstamped, if_true]

/-- The text of an artifact is the document of its table. -/
theorem ofText_dump (hnames : ∀ name ∈ t.operations, name.IsString) {time : String}
    (h : (time : Text) = t.calibratedAt) :
    Document.ofText (dump t).toList =
      .ok ⟨formatVersion, time, some t.fingerprint, t.entries.toList⟩ := by
  have hread : Json.read .strict (dump t).toList = .ok (documentOf t) :=
    Json.read_indented (fits_documentOf hnames ⟨time, h⟩ 197)
  unfold Document.ofText
  rw [hread]
  exact ofJson_documentOf h

theorem parse_eq_ok_of_ofText {text : List Char} {time : String}
    (h : (time : Text) = t.calibratedAt)
    (htext : Document.ofText text =
      .ok ⟨formatVersion, time, some t.fingerprint, t.entries.toList⟩) (now : Timestamp) :
    parse text now = .ok t := by
  unfold parse
  rw [htext]
  exact (if_neg (by simp)).trans (tableOf_eq_ok h now)

/-- The artifact of a table is parsed as the table: the same operations with
    the same parameters and the same time, hence the same fingerprint and the
    same artifact again. -/
theorem parse_dump (t : CostModelTable) (hnames : ∀ name ∈ t.operations, name.IsString)
    (htime : t.calibratedAt.IsString) (now : Timestamp) :
    parse (dump t).toList now = .ok t := by
  obtain ⟨time, hstring⟩ := htime
  exact parse_eq_ok_of_ofText hstring (ofText_dump hnames hstring) now

def escapedTable : CostModelTable :=
  ⟨⟨[("Host\"Mem\"\n", ⟨0, u64Max, by decide, by decide⟩),
      ("a/\\\x7f", ⟨3, 0, by decide, by decide⟩),
      ("é😀", ⟨u64Max, 5, by decide, by decide⟩)], by decide, by decide⟩,
    "tomorrow, \t perhaps 🕰", by decide⟩

theorem parse_dump_escapedTable :
    ((∀ name ∈ escapedTable.operations, name.IsString) ∧ escapedTable.calibratedAt.IsString) ∧
    parse (dump escapedTable).toList ⟨0, 0⟩ = .ok escapedTable := by
  have hnames : ∀ name ∈ escapedTable.operations, name.IsString := by
    intro name hname
    have hcases : name = "Host\"Mem\"\n" ∨ name = "a/\\\x7f" ∨ name = "é😀" := by
      simpa [escapedTable, CostModelTable.operations, Entries.names] using hname
    rcases hcases with rfl | rfl | rfl <;> exact ⟨_, rfl⟩
  have htime : escapedTable.calibratedAt.IsString := ⟨_, rfl⟩
  exact ⟨⟨hnames, htime⟩, parse_dump escapedTable hnames htime ⟨0, 0⟩⟩

end Artifact
end CalibratedCosts
