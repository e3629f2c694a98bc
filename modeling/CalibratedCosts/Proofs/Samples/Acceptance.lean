import Mathlib
import CalibratedCosts.Proofs.Samples.Faults
import CalibratedCosts.Proofs.Samples.Recorded

/-! # Samples that are taken

    Recorded samples are taken whole and unaltered or not at all.

    * **Entries**: a source is made of entries exactly if each key names an
      operation and each value is a sequence of pairs of integers.  It has
      these pairs, and the first entry of another shape is reported.
    * **Lines**: the first line of a file that is neither blank nor a record
      is reported by its number.
-/

namespace CalibratedCosts.Samples

open Json (Denotes Value)
open OrderedMap (IsLast)

/-! ## Section 1: pairs -/

/-- A datum is a sequence of pairs of integers, which are these
    measurements. -/
def IsPairs (d : Datum) (measurements : List Measurement) : Prop :=
  ∃ items, d.elements? = some items ∧
    List.Forall₂ (fun item m => item.elements? = some [.whole m.size, .whole m.cost]) items
      measurements

theorem partOf_eq_ok_iff {part : Part} {d : Datum} {n : Int} :
    partOf part d = .ok n ↔ d = .whole n := by
  cases d <;> simp [partOf]

theorem measurementOf_eq_ok_iff {d : Datum} {m : Measurement} :
    measurementOf d = .ok m ↔ d.elements? = some [.whole m.size, .whole m.cost] := by
  unfold measurementOf
  constructor
  · intro h
    split at h
    · cases h
    · rename_i size cost hpair
      obtain ⟨n, hsize, h⟩ := bind_eq_ok_iff.1 h
      obtain ⟨k, hcost, h⟩ := bind_eq_ok_iff.1 h
      cases h
      rw [hpair, partOf_eq_ok_iff.1 (mapError_eq_ok_iff.1 hsize),
        partOf_eq_ok_iff.1 (mapError_eq_ok_iff.1 hcost)]
    · split at h
      · cases h
      · cases h
  · intro h
    rw [h]
    rfl

theorem measurementsOf_eq_ok_iff {d : Datum} {measurements : List Measurement} :
    measurementsOf d = .ok measurements ↔ IsPairs d measurements := by
  unfold measurementsOf IsPairs
  cases d.elements? with
  | none => simp
  | some items =>
    show items.mapM measurementOf = _ ↔ _
    rw [mapM_eq_ok_iff]
    simp [measurementOf_eq_ok_iff]

namespace RecordedSamples

/-! ## Section 2: entries -/

/-- A key names an operation, and its value is a sequence of pairs of
    integers. -/
def IsEntry (key value : Datum) : Prop :=
  (∃ name, key.Names name) ∧ ∃ measurements, IsPairs value measurements

/-- An entry is taken under its name with its pairs. -/
theorem entryOf_eq_ok_iff_isPairs {key value : Datum} {entry : Text × List Measurement} :
    entryOf key value = .ok entry ↔ key.Names entry.1 ∧ IsPairs value entry.2 := by
  rw [← measurementsOf_eq_ok_iff]
  exact entryOf_eq_ok_iff

theorem isEntry_iff {key value : Datum} :
    IsEntry key value ↔ ∃ entry, entryOf key value = .ok entry := by
  simp only [entryOf_eq_ok_iff_isPairs, IsEntry]
  constructor
  · rintro ⟨⟨name, hname⟩, measurements, hpairs⟩
    exact ⟨(name, measurements), hname, hpairs⟩
  · rintro ⟨entry, hname, hpairs⟩
    exact ⟨⟨_, hname⟩, _, hpairs⟩

/-- Keys that are not the same name different operations. -/
theorem name_ne_of_not_same {key key' : Datum} {name name' : Text} (h : key.Names name)
    (h' : key'.Names name') (hne : (key == key') = false) : (name == name') = false := by
  by_contra hsame
  rw [Bool.not_eq_false, beq_iff_eq] at hsame
  subst hsame
  have htext := Datum.asText?_of_identifier? (Datum.names_iff.1 h)
  have htext' := Datum.asText?_of_identifier? (Datum.names_iff.1 h')
  rw [Datum.sameKey_of_asText? htext htext'] at hne
  cases hne

/-- A source has what a map holds: an operation for each key, in their order,
    with the pairs of its value. -/
structure Takes (recorded : RecordedSamples) (m : OrderedMap Datum Datum) : Prop where
  entries : List.Forall₂ (fun e n => e.1.Names n.1 ∧ IsPairs e.2 n.2) m.entries
    recorded.samples.entries
  collects : ∀ e ∈ m.entries, ∃ measurements, IsPairs e.2 measurements ∧
    ∀ {σ : Type} (s : σ), (recorded.source σ).collectOne e.1 s = (pure measurements, s)

theorem exists_takes {m : OrderedMap Datum Datum} (h : ∀ e ∈ m.entries, IsEntry e.1 e.2) :
    ∃ recorded, ofEntries m.entries = .ok recorded ∧ recorded.Takes m := by
  obtain ⟨named, hnamed⟩ := exists_mapM_eq_ok_iff.2 fun e he => isEntry_iff.1 (h e he)
  rw [mapM_eq_ok_iff] at hnamed
  -- No two entries come under one name, so that none replaces another.
  have hdistinct : (named.map Prod.fst).Pairwise fun name name' => (name == name') = false := by
    rw [List.pairwise_map]
    refine pairwise_of_forall₂ hnamed (List.pairwise_map.1 m.distinct) ?_
    intro e e' n n' hentry hentry' hne
    exact name_ne_of_not_same (entryOf_eq_ok_iff_isPairs.1 hentry).1
      (entryOf_eq_ok_iff_isPairs.1 hentry').1 hne
  have hentries := OrderedMap.entries_ofList hdistinct
  refine ⟨_, ofEntries_eq_ok hnamed, ?_, ?_⟩
  · show List.Forall₂ _ m.entries (OrderedMap.ofList named).entries
    rw [hentries]
    exact hnamed.imp fun _ _ hentry => entryOf_eq_ok_iff_isPairs.1 hentry
  · intro e he
    obtain ⟨n, hn, hentry⟩ := exists_mem_of_forall₂ hnamed he
    obtain ⟨hname, hpairs⟩ := entryOf_eq_ok_iff_isPairs.1 hentry
    have hget : (OrderedMap.ofList named).get? n.1 = some n.2 := by
      rw [OrderedMap.get?_eq_some_iff, hentries]
      exact hn
    refine ⟨n.2, hpairs, ?_⟩
    intro σ s
    unfold SampleSource.collectOne source
    rw [Datum.identifier_eq_ok_iff.2 hname]
    dsimp only
    rw [hget]

/-- The first entry of another shape is the one that is reported. -/
theorem exists_ofEntries_eq_error {before after : List (Datum × Datum)} {e : Datum × Datum}
    (hbefore : ∀ b ∈ before, IsEntry b.1 b.2) (he : ¬ IsEntry e.1 e.2)
    (hkey : e.1.isWritable = true) :
    ∃ fault, ofEntries (before ++ e :: after) = .error (.source (.invalidSamples e.1 fault)) := by
  -- The entries before are added; this one has no reading, and its key can be
  -- written into the error.
  cases hentry : entryOf e.1 e.2 with
  | ok n => exact absurd (isEntry_iff.2 ⟨n, hentry⟩) he
  | error fault =>
    refine ⟨fault, foldlM_append_of_error ?_ ?_ _⟩
    · intro b hb recorded
      obtain ⟨⟨name, hname⟩, measurements, hpairs⟩ := hbefore b hb
      exact ⟨_, add_eq_ok_iff.2
        ⟨name, measurements, ⟨hname, measurementsOf_eq_ok_iff.2 hpairs⟩, rfl⟩⟩
    · intro recorded
      show recorded.add e.1 e.2 = _
      unfold add
      rw [hentry]
      exact if_pos hkey

theorem ofEntries_refused {m : OrderedMap Datum Datum}
    (hkeys : ∀ key ∈ m.keys, key.isWritable = true) (hnot : ¬ ∀ e ∈ m.entries, IsEntry e.1 e.2) :
    ∃ before e after fault, m.entries = before ++ e :: after ∧
      (∀ b ∈ before, IsEntry b.1 b.2) ∧ ¬ IsEntry e.1 e.2 ∧
      ofEntries m.entries = .error (.source (.invalidSamples e.1 fault)) := by
  obtain ⟨before, e, after, hentries, hbefore, he⟩ := exists_first_not hnot
  have hkey : e.1.isWritable = true := by
    apply hkeys
    unfold OrderedMap.keys
    rw [hentries]
    exact List.mem_map_of_mem (List.mem_append_right _ List.mem_cons_self)
  obtain ⟨fault, hfault⟩ := @exists_ofEntries_eq_error before after e hbefore he hkey
  exact ⟨before, e, after, fault, hentries, hbefore, he, by rw [hentries, hfault]⟩

end RecordedSamples

/-! ## Section 3: records -/

/-- A value that a map can have as a key. -/
def CanBeKey (v : Value) : Prop := (∀ items, v ≠ .list items) ∧ ∀ fields, v ≠ .object fields

theorem unusableKey?_ofJson_eq_none_iff {v : Value} :
    (Datum.ofJson v).unusableKey? = none ↔ CanBeKey v := by
  cases v <;> simp [Datum.ofJson, Datum.object, Datum.unusableKey?, CanBeKey]

theorem ofJson_eq_whole_iff {v : Value} {n : Int} : Datum.ofJson v = .whole n ↔ v = .whole n := by
  cases v <;> simp [Datum.ofJson, Datum.object]

/-- A line holds a record, blanks around it aside: an object with an operation
    that can be a key and with integers as size and cost.  Of fields with one
    name the last one counts. -/
def HoldsRecord (line : List Char) : Prop :=
  ∃ fields operation, ∃ size cost : Int, Denotes .lenient (content line) (.object fields) ∧
    (IsLast fields "operation" operation ∧ CanBeKey operation) ∧
    IsLast fields "size" (.whole size) ∧ IsLast fields "cost" (.whole cost)

theorem keyOf_object_eq_ok_iff {fields : List (Text × Value)} {key : Datum} :
    keyOf (.ofJson (.object fields)) = .ok key ↔
      ∃ v, (IsLast fields "operation" v ∧ CanBeKey v) ∧ Datum.ofJson v = key := by
  constructor
  · intro h
    obtain ⟨hfield, husable⟩ := keyOf_eq_ok h
    -- Equal names in an object: the last one counts.
    obtain ⟨v, hlast, rfl⟩ := Datum.field_ofJson_object.1 hfield
    exact ⟨v, ⟨hlast, unusableKey?_ofJson_eq_none_iff.1 husable⟩, rfl⟩
  · rintro ⟨v, ⟨hlast, husable⟩, rfl⟩
    have hfield := Datum.field_ofJson_object.2 ⟨v, hlast, rfl⟩
    refine bind_eq_ok_iff.2 ⟨_, mapError_eq_ok_iff.2 hfield, ?_⟩
    split
    · rename_i kind hunusable
      rw [unusableKey?_ofJson_eq_none_iff.2 husable] at hunusable
      cases hunusable
    · rfl

theorem recordedPart_object_eq_ok_iff {part : Part} {fields : List (Text × Value)} {n : Int} :
    recordedPart part (.ofJson (.object fields)) = .ok n ↔ IsLast fields part.name (.whole n) := by
  unfold recordedPart
  rw [bind_eq_ok_iff]
  simp only [mapError_eq_ok_iff, partOf_eq_ok_iff, exists_eq_right, Datum.field_ofJson_object,
    ofJson_eq_whole_iff]

theorem exists_recordOf_iff {line : List Char} :
    (∃ record, recordOf (content line) = .ok record) ↔ HoldsRecord line := by
  unfold recordOf HoldsRecord
  constructor
  -- Parse, then the key, then the size and the cost: each part is a field of
  -- the object read.
  · rintro ⟨record, h⟩
    split at h
    · cases h
    · rename_i v hread
      obtain ⟨key, hkey, h⟩ := bind_eq_ok_iff.1 h
      obtain ⟨size, hsize, h⟩ := bind_eq_ok_iff.1 h
      obtain ⟨cost, hcost, -⟩ := bind_eq_ok_iff.1 h
      obtain ⟨fields, rfl⟩ := Datum.exists_object_of_field (keyOf_eq_ok hkey).1
      obtain ⟨operation, hoperation, -⟩ := keyOf_object_eq_ok_iff.1 hkey
      exact ⟨fields, operation, size, cost, Json.read_eq_ok_iff.1 hread, hoperation,
        recordedPart_object_eq_ok_iff.1 hsize, recordedPart_object_eq_ok_iff.1 hcost⟩
  · rintro ⟨fields, operation, size, cost, hdenotes, hoperation, hsize, hcost⟩
    refine ⟨(Datum.ofJson operation, ⟨size, cost⟩), ?_⟩
    rw [Json.read_eq_ok_iff.2 hdenotes]
    exact bind_eq_ok_iff.2 ⟨_, keyOf_object_eq_ok_iff.2 ⟨operation, hoperation, rfl⟩,
      bind_eq_ok_iff.2 ⟨size, recordedPart_object_eq_ok_iff.2 hsize,
        bind_eq_ok_iff.2 ⟨cost, recordedPart_object_eq_ok_iff.2 hcost, rfl⟩⟩⟩

theorem isInOrder_iff {line : List Char} :
    IsInOrder line ↔ content line = [] ∨ HoldsRecord line := by
  unfold IsInOrder
  rw [exists_recordOf_iff]

section Depth

variable (line : List Char) (fault : Json.Fault)

theorem keyOf_ne_json (record : Datum) : keyOf record ≠ .error (.json line fault) := by
  unfold keyOf
  apply bind_ne_error
  · cases record.field "operation" <;> simp [Except.mapError]
  · intro key
    split
    · simp
    · simp

theorem recordedPart_ne_json (part : Part) (record : Datum) :
    recordedPart part record ≠ .error (.json line fault) := by
  unfold recordedPart
  apply bind_ne_error
  · cases record.field part.name <;> simp [Except.mapError]
  · intro d
    cases partOf part d <;> simp [Except.mapError]

end Depth

/-- What has been read is no JSON that cannot be read. -/
theorem read_eq_error_of_recordOf {cs line : List Char} {fault : Json.Fault}
    (h : recordOf cs = .error (.json line fault)) : Json.read .lenient cs = .error fault := by
  unfold recordOf at h
  split at h
  · rename_i hread
    cases h
    exact hread
  · refine absurd h (bind_ne_error (keyOf_ne_json line fault _) fun key => ?_)
    refine bind_ne_error (recordedPart_ne_json line fault .size _) fun size => ?_
    exact bind_ne_error (recordedPart_ne_json line fault .cost _) fun cost => by simp

namespace RecordedSamples

/-- The first line that is neither blank nor a record is reported by its
    number, where blank lines count, unless it is nested too deeply. -/
theorem exists_outcome_ofLines_eq_error {path : String} {text : List Char}
    {before after : List (List Char)} {line : List Char}
    (hlines : Text.lines text = before ++ line :: after) (hbefore : ∀ l ∈ before, IsInOrder l)
    (hline : ¬ IsInOrder line) (hdepth : ¬ NestsTooDeep (content line)) :
    ∃ fault, (ofLines path text).outcome =
      .error (.source (.invalidRecord path (before.length + 1) fault)) := by
  obtain ⟨hcontent, hrecord⟩ := not_or.1 hline
  cases hread : recordOf (content line) with
  | ok record => exact absurd ⟨record, hread⟩ hrecord
  | error fault =>
    have hfirst : FirstFault (Text.lines text) before.length fault :=
      ⟨before, line, after, hlines, rfl, hbefore, hcontent, hread⟩
    refine ⟨fault, ?_⟩
    rw [outcome_ofLines, addRecords_of_firstFault hfirst, Nat.add_comm]
    rcases lineError_cases path (before.length + 1) fault with
      hsource | ⟨line', container, rest, rfl⟩
    · exact congrArg Except.error hsource
    · exact absurd ⟨container, rest, read_eq_error_of_recordOf hread⟩ hdepth

theorem ofFile_refused {σ : Type} {fs : FileSystem σ} {p : FilePath} {text : List Char}
    (hsuffix : p.suffix = ".jsonl") (htext : fs.readText p = .ok text)
    (hdepth : ∀ line ∈ Text.lines text, ¬ NestsTooDeep (content line))
    (hnot : ¬ ∀ line ∈ Text.lines text, content line = [] ∨ HoldsRecord line) :
    ∃ before line after fault, Text.lines text = before ++ line :: after ∧
      (∀ l ∈ before, content l = [] ∨ HoldsRecord l) ∧ ¬ (content line = [] ∨ HoldsRecord line) ∧
      (ofFile fs p).outcome = .error (.source (.invalidRecord p.text (before.length + 1) fault)) := by
  simp only [← isInOrder_iff] at hnot ⊢
  obtain ⟨before, line, after, hlines, hbefore, hline⟩ := exists_first_not hnot
  have hmem : line ∈ Text.lines text := by
    rw [hlines]
    exact List.mem_append_right _ List.mem_cons_self
  obtain ⟨fault, hfault⟩ := @exists_outcome_ofLines_eq_error p.text text before after line hlines
    hbefore hline (hdepth line hmem)
  refine ⟨before, line, after, fault, hlines, hbefore, hline, ?_⟩
  rw [ofFile, htext]
  dsimp only
  rw [if_pos hsuffix, hfault]

/-! ## Section 4: both forms -/

/-- Samples are taken whole and unaltered or not at all.  A source is made of
    a map exactly if each key names an operation and each value is a sequence
    of pairs of integers, and then it collects these pairs; otherwise the
    error names the first key whose entry is of another shape.  A file of
    lines gives no source if one of them is neither blank nor a record, and
    the error has the number of the first such line. -/
theorem taken_whole_or_refused (m : OrderedMap Datum Datum)
    (hkeys : ∀ key ∈ m.keys, key.isWritable = true) {σ : Type} (fs : FileSystem σ) (p : FilePath)
    (text : List Char) (hsuffix : p.suffix = ".jsonl") (htext : fs.readText p = .ok text)
    (hdepth : ∀ line ∈ Text.lines text, ¬ NestsTooDeep (content line)) :
    ((∃ recorded, ofEntries m.entries = .ok recorded) ↔ ∀ e ∈ m.entries, IsEntry e.1 e.2) ∧
    (∀ recorded, ofEntries m.entries = .ok recorded → recorded.Takes m) ∧
    ((¬ ∀ e ∈ m.entries, IsEntry e.1 e.2) →
      ∃ before e after fault, m.entries = before ++ e :: after ∧
        (∀ b ∈ before, IsEntry b.1 b.2) ∧ ¬ IsEntry e.1 e.2 ∧
        ofEntries m.entries = .error (.source (.invalidSamples e.1 fault))) ∧
    ((¬ ∀ line ∈ Text.lines text, content line = [] ∨ HoldsRecord line) →
      ∃ before line after fault, Text.lines text = before ++ line :: after ∧
        (∀ l ∈ before, content l = [] ∨ HoldsRecord l) ∧ ¬ (content line = [] ∨ HoldsRecord line) ∧
        (ofFile fs p).outcome = .error (.source (.invalidRecord p.text (before.length + 1) fault))) := by
  have htaken : ∀ recorded, ofEntries m.entries = .ok recorded → ∀ e ∈ m.entries, IsEntry e.1 e.2 := by
    intro recorded hrecorded
    by_contra hnot
    obtain ⟨before, e, after, fault, -, -, -, hfault⟩ := ofEntries_refused hkeys hnot
    rw [hfault] at hrecorded
    cases hrecorded
  refine ⟨⟨?_, ?_⟩, ?_, ofEntries_refused hkeys, ofFile_refused hsuffix htext hdepth⟩
  · rintro ⟨recorded, hrecorded⟩
    exact htaken recorded hrecorded
  · intro hentries
    obtain ⟨recorded, hrecorded, -⟩ := exists_takes hentries
    exact ⟨recorded, hrecorded⟩
  · intro recorded hrecorded
    obtain ⟨recorded', hrecorded', htakes⟩ := exists_takes (htaken recorded hrecorded)
    rw [hrecorded] at hrecorded'
    cases hrecorded'
    exact htakes

/-- Two operations, the second one with a cost that is no integer. -/
def halfTaken : OrderedMap Datum Datum :=
  .ofList [(.text "HostMemCpy", .list [.list [.whole 1, .whole 10]]),
    (.operation .hostMemCmp, .list [.list [.whole 1, .bool true]])]

/-- The files when there are only lines: a blank one and half an object. -/
def halfWritten : FileSystem Unit :=
  (FileSystem.emptyAt []).put ["s.jsonl"] (.file [0x0a, 0x7b])

/-- Neither the entries nor the lines are taken. -/
theorem halves_refused :
    (∀ key ∈ halfTaken.keys, key.isWritable = true) ∧
    (FilePath.ofText "s.jsonl").suffix = ".jsonl" ∧
    halfWritten.readText (.ofText "s.jsonl") = .ok ['\n', '{'] ∧
    (∀ line ∈ Text.lines ['\n', '{'], ¬ NestsTooDeep (content line)) ∧
    (¬ ∃ recorded, ofEntries halfTaken.entries = .ok recorded) ∧
    ∃ number fault, (ofFile halfWritten (.ofText "s.jsonl")).outcome =
      .error (.source (.invalidRecord "s.jsonl" number fault)) := by
  have hkeys : ∀ key ∈ halfTaken.keys, key.isWritable = true := by
    show ∀ key ∈ [Datum.text "HostMemCpy", .operation .hostMemCmp], key.isWritable = true
    simp [Datum.isWritable]
  have hsuffix : (FilePath.ofText "s.jsonl").suffix = ".jsonl" := rfl
  have htext : halfWritten.readText (.ofText "s.jsonl") = .ok ['\n', '{'] := rfl
  have hempty : Json.read .lenient (content []) = .error ⟨.valueExpected, []⟩ := rfl
  have hbrace : Json.read .lenient (content ['{']) = .error ⟨.nameExpected, []⟩ := rfl
  have hdepth : ∀ line ∈ Text.lines ['\n', '{'], ¬ NestsTooDeep (content line) := by
    show ∀ line ∈ [[], ['{']], ¬ NestsTooDeep (content line)
    refine List.forall_mem_cons.2 ⟨?_, List.forall_mem_singleton.2 ?_⟩
    · rintro ⟨container, rest, hread⟩
      cases hempty.symm.trans hread
    · rintro ⟨container, rest, hread⟩
      cases hbrace.symm.trans hread
  obtain ⟨hiff, -, -, hlines⟩ := taken_whole_or_refused halfTaken hkeys halfWritten
    (.ofText "s.jsonl") ['\n', '{'] hsuffix htext hdepth
  refine ⟨hkeys, hsuffix, htext, hdepth, ?_, ?_⟩
  · rw [hiff]
    intro hentries
    have hmem : (Datum.operation .hostMemCmp, Datum.list [.list [.whole 1, .bool true]]) ∈
        halfTaken.entries := List.mem_cons_of_mem _ List.mem_cons_self
    obtain ⟨-, measurements, hpairs⟩ := hentries _ hmem
    cases measurementsOf_eq_ok_iff.2 hpairs
  · have hnot : ¬ ∀ line ∈ Text.lines ['\n', '{'], content line = [] ∨ HoldsRecord line := by
      intro hall
      rcases hall ['{'] (List.mem_cons_of_mem _ List.mem_cons_self) with hblank | hrecord
      · cases hblank
      · obtain ⟨record, hread⟩ := exists_recordOf_iff.2 hrecord
        cases hread
    obtain ⟨before, -, -, fault, -, -, -, hfault⟩ := hlines hnot
    exact ⟨_, fault, hfault⟩

end RecordedSamples
end CalibratedCosts.Samples
