import Mathlib
import CalibratedCosts.Proofs.Samples.Records

/-! # How loading samples fails

    A load fails with an error of the source, or with a fault that nobody
    expects: bytes that are no text, containers nested too deeply, and in a file
    that is one JSON text an integer that is too long.

    * **Errors**: a missing file, a directory, no JSON, a line that is no record,
      and samples that are no pairs of integers are errors of the source.
    * **Two forms**: an integer that is too long is an error on a line of its
      own, and none in a JSON text.
-/

namespace CalibratedCosts.Samples

open Json (Denotes Spells)

/-! ## Section 1: keys that can be shown -/

namespace RecordedSamples

variable {e : LoadError}

/-- A key that can be shown is named by an error of the source. -/
theorem exists_source_of_add {recorded : RecordedSamples} {key pairs : Datum}
    (hkey : key.isWritable = true) (h : recorded.add key pairs = .error e) :
    ∃ s, e = .source s := by
  unfold add at h
  cases hentry : entryOf key pairs with
  | ok entry =>
    rw [hentry] at h
    cases h
  | error fault =>
    simp only [hentry, if_pos hkey] at h
    cases h
    exact ⟨_, rfl⟩

theorem exists_source_of_ofEntries {entries : List (Datum × Datum)}
    (hkeys : ∀ entry ∈ entries, entry.1.isWritable = true) (h : ofEntries entries = .error e) :
    ∃ s, e = .source s := by
  obtain ⟨entry, hentry, recorded, hadd⟩ := exists_of_foldlM_eq_error h
  exact exists_source_of_add (hkeys entry hentry) hadd

end RecordedSamples

/-- What has been read and can be a key can also be shown. -/
theorem isWritable_of_unusableKey?_eq_none {v : Json.Value} {room : ℕ} {cs : List Char}
    (hspells : Spells .lenient room (.value v) cs) (h : (Datum.ofJson v).unusableKey? = none) :
    (Datum.ofJson v).isWritable = true := by
  cases hspells with
  | whole hwhole => exact hwhole.isWritable
  | emptyList => cases h
  | list => cases h
  | emptyObject => cases h
  | object => cases h
  | _ => rfl

theorem keyOf_eq_ok {record key : Datum} (h : keyOf record = .ok key) :
    record.field "operation" = .ok key ∧ key.unusableKey? = none := by
  obtain ⟨key', hfield, h⟩ := bind_eq_ok_iff.1 h
  split at h
  · cases h
  · rename_i husable
    cases h
    exact ⟨mapError_eq_ok_iff.1 hfield, husable⟩

/-- The key of a record can be shown. -/
theorem isWritable_of_recordOf {line : List Char} {record : Datum × Measurement}
    (h : recordOf line = .ok record) : record.1.isWritable = true := by
  unfold recordOf at h
  split at h
  · cases h
  · rename_i v hread
    obtain ⟨key, hkey, h⟩ := bind_eq_ok_iff.1 h
    obtain ⟨size, -, h⟩ := bind_eq_ok_iff.1 h
    obtain ⟨cost, -, h⟩ := bind_eq_ok_iff.1 h
    cases h
    -- The key of a record is a field of the object read, so its digits were
    -- read and can be written again.
    obtain ⟨hfield, husable⟩ := keyOf_eq_ok hkey
    obtain ⟨fields, rfl⟩ := Datum.exists_object_of_field hfield
    obtain ⟨w, hlast, rfl⟩ := Datum.field_ofJson_object.1 hfield
    obtain ⟨-, room, cs, hspells⟩ := (Json.read_eq_ok_iff.1 hread).exists_of_mem_object hlast.mem
    exact isWritable_of_unusableKey?_eq_none hspells husable

namespace RecordedSamples

theorem forall_mem_keys_foldl_put (P : Datum → Prop) {records : List (Datum × Measurement)}
    (h : ∀ record ∈ records, P record.1) {grouped : Grouped} (hgrouped : ∀ k ∈ grouped.keys, P k) :
    ∀ k ∈ (records.foldl put grouped).keys, P k := by
  induction records generalizing grouped with
  | nil => exact hgrouped
  | cons record rest ih =>
    obtain ⟨hrecord, hrest⟩ := List.forall_mem_cons.1 h
    refine ih hrest ?_
    exact OrderedMap.forall_mem_keys_insert
      (OrderedMap.forall_mem_keys_insert hgrouped hrecord _) hrecord _

/-! ## Section 2: texts -/

/-- Containers are nested too deeply where the reader stops. -/
def NestsTooDeep (text : List Char) : Prop :=
  ∃ container rest, Json.read .lenient text = .error ⟨.tooDeep container, rest⟩

/-- The reader stops at a limit: of the nesting, or of the digits of an integer. -/
def ExceedsLimit (text : List Char) : Prop :=
  NestsTooDeep text ∨ ∃ digits rest, Json.read .lenient text = .error ⟨.integerTooLong digits, rest⟩

/-- The first line that is neither blank nor a record is nested too deeply. -/
def HasDeepRecord (text : List Char) : Prop :=
  ∃ earlier line container rest,
    FirstFault (Text.lines text) earlier (.json line ⟨.tooDeep container, rest⟩)

variable {path : String} {text : List Char}

theorem lineError_cases (path : String) (number : ℕ) (fault : RecordFault) :
    lineError path number fault = .source (.invalidRecord path number fault) ∨
      ∃ line container rest, fault = .json line ⟨.tooDeep container, rest⟩ := by
  unfold lineError
  split
  · exact .inr ⟨_, _, _, rfl⟩
  · exact .inl rfl

/-- Loading a text of JSON lines fails with errors of the source only, unless a
    record is nested too deeply. -/
theorem forall_ofLines_error_iff :
    (∀ e, (ofLines path text).outcome = .error e → ∃ s, e = .source s) ↔ ¬ HasDeepRecord text := by
  rw [outcome_ofLines]
  constructor
  · rintro h ⟨earlier, line, container, rest, hfirst⟩
    rw [addRecords_of_firstFault hfirst] at h
    obtain ⟨s, hs⟩ := h _ rfl
    cases hs
  · intro hdeep e h
    cases hadd : addRecords path 1 (Text.lines text) OrderedMap.empty with
    | error e' =>
      rw [hadd] at h
      cases h
      obtain ⟨earlier, fault, hfirst, rfl⟩ := addRecords_eq_error_iff.1 hadd
      rcases lineError_cases path (1 + earlier) fault with hs | ⟨line, container, rest, rfl⟩
      · exact ⟨_, hs⟩
      · exact absurd ⟨earlier, line, container, rest, hfirst⟩ hdeep
    | ok grouped =>
      rw [hadd] at h
      -- All keys can be shown, so that the entries fail with errors of the source.
      obtain ⟨records, hread, rfl⟩ := addRecords_eq_ok_iff.1 hadd
      have hrecords : ∀ record ∈ records, record.1.isWritable = true := by
        intro record hrecord
        obtain ⟨line, -, hline⟩ := exists_of_mem_mapM hread hrecord
        exact isWritable_of_recordOf hline
      have hempty : ∀ k ∈ (OrderedMap.empty : Grouped).keys, k.isWritable = true :=
        fun _ h => (List.not_mem_nil h).elim
      have hkeys := forall_mem_keys_foldl_put (·.isWritable = true) hrecords hempty
      refine exists_source_of_ofEntries ?_ h
      intro entry hentry
      obtain ⟨group, hgroup, rfl⟩ := List.mem_map.1 hentry
      exact hkeys _ (List.mem_map_of_mem hgroup)

/-- Loading a JSON text fails with errors of the source only, unless the reader
    stops at a limit. -/
theorem forall_ofJson_error_iff :
    (∀ e, (ofJson path text).outcome = .error e → ∃ s, e = .source s) ↔ ¬ ExceedsLimit text := by
  constructor
  · intro h hlimit
    -- Both limits end in an error of the reader that is no source error.
    rcases hlimit with ⟨container, rest, hread⟩ | ⟨digits, rest, hread⟩
    · obtain ⟨s, hs⟩ := h (.tooDeep container) (by rw [ofJson, hread]; rfl)
      cases hs
    · obtain ⟨s, hs⟩ := h (.integerTooLong digits) (by rw [ofJson, hread]; rfl)
      cases hs
  · intro hlimit e h
    unfold ofJson at h
    split at h
    · rename_i digits rest hread
      exact absurd (.inr ⟨digits, rest, hread⟩) hlimit
    · rename_i container rest hread
      exact absurd (.inl ⟨container, rest, hread⟩) hlimit
    · cases h
      exact ⟨_, rfl⟩
    -- The text is an object or the error is an ordinary one; in an object all
    -- keys are texts.
    · split at h
      · rename_i fields hrecord
        refine exists_source_of_ofEntries ?_ h
        intro entry hentry
        obtain ⟨name, hname⟩ := Datum.exists_text_of_ofJson_eq_record hrecord hentry
        rw [hname]
        rfl
      · cases h
        exact ⟨_, rfl⟩

/-! ## Section 3: files -/

variable {σ : Type} {fs : FileSystem σ} {p : FilePath}

/-- What is at a path is nothing unexpected: if it has bytes they are a text
    within the limits of the form that the suffix stands for. -/
def IsOrdinary (fs : FileSystem σ) (p : FilePath) : Prop :=
  ∀ bytes, fs.read p = .ok bytes →
    ∃ cs, Text.Utf8.decode bytes = .ok cs ∧
      if p.suffix = ".jsonl" then ¬ HasDeepRecord (Text.unifyLineEnds cs)
      else ¬ ExceedsLimit (Text.unifyLineEnds cs)

/-- **One way to fail.**  Loading samples gives a source or an error of the source
    and nothing else, exactly if what is at the path is ordinary.  A path is
    made of characters, so that nothing is said of paths with half of a
    surrogate pair. -/
theorem samples_fail_ordinarily_iff (fs : FileSystem σ) (p : FilePath) (hnul : p.hasNul = false) :
    (∀ e, (ofFile fs p).outcome = .error e → ∃ s, e = .source s) ↔ IsOrdinary fs p := by
  -- First what the file system says, then what the bytes decode to.
  cases hread : fs.read p with
  -- A file that cannot be read is an ordinary error, and the condition speaks
  -- of files that can.
  | error e =>
    refine iff_of_true (fun e' h => ?_) fun bytes hbytes => ?_
    · rw [outcome_ofFile_of_error hnul hread] at h
      cases h
      exact ⟨_, rfl⟩
    · rw [hread] at hbytes
      cases hbytes
  | ok bytes =>
    have hordinary : IsOrdinary fs p ↔ ∃ cs, Text.Utf8.decode bytes = .ok cs ∧
        if p.suffix = ".jsonl" then ¬ HasDeepRecord (Text.unifyLineEnds cs)
        else ¬ ExceedsLimit (Text.unifyLineEnds cs) := by
      simp [IsOrdinary, hread]
    rw [hordinary]
    cases hdecode : Text.Utf8.decode bytes with
    -- Bytes that are no UTF-8 fail either way: they decode to no text, and the
    -- fault is let through.
    | error fault =>
      refine iff_of_false (fun h => ?_) (by simp)
      obtain ⟨s, hs⟩ := h _ (outcome_ofFile_of_undecodable hnul hread hdecode)
      cases hs
    | ok cs =>
      rw [ofFile_of_decode hnul hread hdecode]
      -- The text is read by the suffix; each format has its own limits.
      by_cases hsuffix : p.suffix = ".jsonl"
      · simpa [hsuffix] using forall_ofLines_error_iff
      · simpa [hsuffix] using forall_ofJson_error_iff

def samplesOf (bytes : List UInt8) : FileSystem Unit :=
  (FileSystem.emptyAt []).put ["s.json"] (.file bytes)

/-- Half an object is an error of the source. -/
theorem brace_is_no_source :
    (FilePath.ofText "s.json").hasNul = false ∧
    IsOrdinary (samplesOf [0x7b]) (.ofText "s.json") ∧
    ∃ s, (ofFile (samplesOf [0x7b]) (.ofText "s.json")).outcome = .error (.source s) := by
  have hnul : (FilePath.ofText "s.json").hasNul = false := rfl
  have hread : (samplesOf [0x7b]).read (.ofText "s.json") = .ok [0x7b] := rfl
  have hdecode : Text.Utf8.decode [0x7b] = .ok ['{'] := rfl
  have hrefused : Json.read .lenient ['{'] = .error ⟨.nameExpected, []⟩ := rfl
  -- One brace is UTF-8, and no limit is reached before the reader asks for a
  -- name.
  have hordinary : IsOrdinary (samplesOf [0x7b]) (.ofText "s.json") := by
    intro bytes hbytes
    rw [hread] at hbytes
    cases hbytes
    refine ⟨_, hdecode, ?_⟩
    rw [if_neg (by decide)]
    rintro (⟨container, rest, hlimit⟩ | ⟨digits, rest, hlimit⟩)
    · cases hrefused.symm.trans hlimit
    · cases hrefused.symm.trans hlimit
  obtain ⟨e, hload⟩ : ∃ e, (ofFile (samplesOf [0x7b]) (.ofText "s.json")).outcome = .error e :=
    ⟨_, by rw [ofFile_of_decode hnul hread hdecode]; rfl⟩
  obtain ⟨s, rfl⟩ := (samples_fail_ordinarily_iff _ _ hnul).2 hordinary _ hload
  exact ⟨hnul, hordinary, s, hload⟩

/-- A byte that is part of no text is another fault. -/
theorem undecodable_samples_unreported :
    (FilePath.ofText "s.json").hasNul = false ∧
    (samplesOf [0xff]).read (.ofText "s.json") = .ok [0xff] ∧
    ∃ e, (ofFile (samplesOf [0xff]) (.ofText "s.json")).outcome = .error e ∧
      ∀ s, e ≠ .source s := by
  have hnul : (FilePath.ofText "s.json").hasNul = false := rfl
  have hread : (samplesOf [0xff]).read (.ofText "s.json") = .ok [0xff] := rfl
  have hdecode : Text.Utf8.decode [0xff] = .error ⟨0xff, 0, 1, .invalidStart⟩ := rfl
  exact ⟨hnul, hread, _, outcome_ofFile_of_undecodable hnul hread hdecode, by rintro s ⟨⟩⟩

end RecordedSamples
end CalibratedCosts.Samples
