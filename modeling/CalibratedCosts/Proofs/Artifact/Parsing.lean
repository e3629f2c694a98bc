import Mathlib
import CalibratedCosts.Proofs.Artifact.RoundTrip
import CalibratedCosts.Proofs.Json.Reading
import CalibratedCosts.Proofs.Outcome
import CalibratedCosts.Proofs.Table.Building

/-! # What a parsed artifact says

    A table is parsed from a text only if the text is a JSON object that says
    so field by field: a version that is the one of this format or none, a
    fingerprint that is the one of the entries or none, and as entries those
    that are written, each with integers of 64 bits for its parameters.  Where a
    name is repeated in an object the last field of the name counts.
-/

namespace CalibratedCosts

/-- A text without halves is the string that shows it. -/
theorem Text.ofString_toString {t : Text} (h : t.codes.any Code.isHalf = false) :
    Text.ofString t.toString = t := by
  -- Code by code: a character shows itself, and there are no halves.
  have hcodes : t.codes.map (fun c => Code.char c.shown) = t.codes := by
    conv_rhs => rw [← List.map_id t.codes]
    apply List.map_congr_left
    intro code hcode
    have hwhole := List.any_eq_false.1 h code hcode
    cases code with
    | char c => rfl
    | half distance => exact absurd rfl hwhole
  cases t
  simp only [ofString, toString, String.toList_ofList, List.map_map, Function.comp_def, hcodes]

namespace Artifact

open Json (Value Denotes)
open OrderedMap (IsLast isLast_append_singleton not_isLast_nil exists_isLast)

/-! ## Section 1: fields -/

theorem lastField?_eq_some_iff {name : Text} {fields : List (Text × Value)} {v : Value} :
    lastField? name fields = some v ↔ IsLast fields name v := by
  unfold lastField?
  induction fields using List.reverseRecOn with
  | nil => exact ⟨fun h => (by cases h), fun h => (not_isLast_nil name v h).elim⟩
  | append_singleton fields f ih =>
    rw [isLast_append_singleton, List.reverse_append, List.reverse_singleton, List.singleton_append,
      ← ih]
    by_cases hname : f.1 = name
    · simp [hname]
    · simp [hname]

theorem both_eq_ok_iff {α β : Type} {a : Checked α} {b : Checked β} {x : α × β} :
    both a b = .ok x ↔ a = .ok x.1 ∧ b = .ok x.2 := by
  obtain ⟨x, y⟩ := x
  cases a with
  | error issues => cases b <;> simp [both]
  | ok a => cases b <;> simp [both]

theorem complain_ne_ok {α : Type} {place : List String} {complaint : Complaint} {a : α} :
    complain place complaint ≠ .ok a := by
  intro h
  cases h

/-! ## Section 2: what passes the checks -/

variable {fields : List (Text × Value)}

theorem versionOf_of_checkVersion {version : ℤ} (h : checkVersion fields = .ok version) {v : Value}
    (hv : IsLast fields "format_version" v) : versionOf v = .ok version := by
  unfold checkVersion at h
  simp only [lastField?_eq_some_iff.2 hv] at h
  -- A version that denotes no integer would have been complained of.
  cases hversion : versionOf v with
  | error complaint =>
    rw [hversion] at h
    exact absurd h complain_ne_ok
  | ok n =>
    rw [hversion] at h
    cases h
    rfl

theorem fingerprint_of_checkFingerprint {fingerprint : Option String}
    (h : checkFingerprint fields = .ok fingerprint) {v : Value}
    (hv : IsLast fields "fingerprint" v) :
    (v = .null ∧ fingerprint = none) ∨ ∃ t, v = .text t ∧ fingerprint = some t.toString := by
  unfold checkFingerprint at h
  rw [lastField?_eq_some_iff.2 hv] at h
  -- Only null and text are let through.
  cases v with
  | null =>
    cases h
    exact .inl ⟨rfl, rfl⟩
  | text t =>
    cases h
    exact .inr ⟨t, rfl, rfl⟩
  | _ => exact absurd h complain_ne_ok

theorem isLast_of_checkParameterField {name : String} {place : List String}
    {n : { n : ℕ // n ≤ u64Max }} (h : checkParameterField name place fields = .ok n) :
    IsLast fields name (.whole n.1) := by
  unfold checkParameterField at h
  -- Of all cases of the check only one has no complaint: a whole number that is
  -- neither negative nor too large.
  split at h
  · exact absurd h complain_ne_ok
  · rename_i m hlast
    split at h
    · exact absurd h complain_ne_ok
    · rename_i hpos
      split at h
      · cases h
        rw [Int.toNat_of_nonneg (not_lt.1 hpos)]
        exact lastField?_eq_some_iff.1 hlast
      · exact absurd h complain_ne_ok
  · exact absurd h complain_ne_ok

/-- A value writes the parameters of a model: as integers, and as the last
    fields of their names. -/
def WritesModel (v : Value) (m : QuantizedModel) : Prop :=
  ∃ params, v = .object params ∧ IsLast params "const_param" (.whole m.constParam) ∧
    IsLast params "lin_param" (.whole m.linParam)

theorem WritesModel.unique {v : Value} {m m' : QuantizedModel} (h : WritesModel v m)
    (h' : WritesModel v m') : m = m' := by
  obtain ⟨params, rfl, hconst, hlin⟩ := h
  -- Both are the parameters of one object.
  obtain ⟨params', heq, hconst', hlin'⟩ := h'
  cases heq
  have hc := Value.whole.inj (hconst.unique hconst')
  have hl := Value.whole.inj (hlin.unique hlin')
  cases m
  cases m'
  cases Int.natCast_inj.1 hc
  cases Int.natCast_inj.1 hl
  rfl

theorem writesModel_of_checkEntry {name : Text} {v : Value} {m : QuantizedModel}
    (h : checkEntry name v = .ok m) : WritesModel v m := by
  unfold checkEntry at h
  dsimp only at h
  split at h
  · rename_i params
    obtain ⟨⟨const, lin⟩, hboth, rfl⟩ := map_eq_ok_iff.1 h
    obtain ⟨hconst, hlin⟩ := both_eq_ok_iff.1 hboth
    exact ⟨params, rfl, isLast_of_checkParameterField hconst, isLast_of_checkParameterField hlin⟩
  · exact absurd h complain_ne_ok

/-- A field writes an entry. -/
def WritesEntry (f : Text × Value) (e : Text × QuantizedModel) : Prop :=
  f.1 = e.1 ∧ WritesModel f.2 e.2

theorem writesEntry_of_checkEntries {models : List (Text × QuantizedModel)}
    (h : checkEntries fields = .ok models) : List.Forall₂ WritesEntry fields models := by
  induction fields generalizing models with
  | nil =>
    cases h
    exact .nil
  | cons f rest ih =>
    obtain ⟨⟨model, models⟩, hboth, rfl⟩ := map_eq_ok_iff.1 h
    obtain ⟨hentry, hentries⟩ := both_eq_ok_iff.1 hboth
    exact .cons ⟨rfl, writesModel_of_checkEntry hentry⟩ (ih hentries)

/-- The models of a document are those that its entries write. -/
theorem isLast_iff_of_writesEntry {models : List (Text × QuantizedModel)}
    (h : List.Forall₂ WritesEntry fields models) {name : Text} {m : QuantizedModel} :
    IsLast models name m ↔ ∃ v, IsLast fields name v ∧ WritesModel v m := by
  constructor
  · intro hm
    obtain ⟨v, hv, -, hwrites⟩ := hm.exists_of_forall₂ (fun _ _ he => he.1.symm) h.flip
    exact ⟨v, hv, hwrites⟩
  · rintro ⟨v, hv, hwrites⟩
    obtain ⟨m', hm', -, hwrites'⟩ := hv.exists_of_forall₂ (fun _ _ he => he.1) h
    exact hwrites.unique hwrites' ▸ hm'

theorem exists_entries_of_checkEntriesField {models : List (Text × QuantizedModel)}
    (h : checkEntriesField fields = .ok models) :
    ∃ written, IsLast fields "entries" (.object written) ∧
      List.Forall₂ WritesEntry written models := by
  unfold checkEntriesField at h
  split at h
  · exact absurd h complain_ne_ok
  · rename_i written hlast
    exact ⟨written, lastField?_eq_some_iff.1 hlast, writesEntry_of_checkEntries h⟩
  · exact absurd h complain_ne_ok

/-- What passes the schema is an object whose fields pass their checks. -/
theorem Document.ofJson_eq_ok {v : Value} {d : Document} (h : Document.ofJson v = .ok d) :
    ∃ fields, v = .object fields ∧ checkVersion fields = .ok d.formatVersion ∧
      checkTime fields = .ok d.calibratedAt ∧ checkFingerprint fields = .ok d.fingerprint ∧
      checkEntriesField fields = .ok d.entries := by
  unfold Document.ofJson at h
  -- Of all values only objects are documents, and then every field has passed.
  split at h
  · rename_i fields
    obtain ⟨⟨version, time, fingerprint, entries⟩, hboth, rfl⟩ := map_eq_ok_iff.1 h
    obtain ⟨hversion, hrest⟩ := both_eq_ok_iff.1 hboth
    obtain ⟨htime, hrest⟩ := both_eq_ok_iff.1 hrest
    obtain ⟨hfingerprint, hentries⟩ := both_eq_ok_iff.1 hrest
    exact ⟨fields, rfl, hversion, htime, hfingerprint, hentries⟩
  · exact absurd h complain_ne_ok

theorem Document.ofText_eq_ok {text : List Char} {d : Document}
    (h : Document.ofText text = .ok d) :
    ∃ fields, Denotes .strict text (.object fields) ∧ Document.ofJson (.object fields) = .ok d := by
  unfold Document.ofText at h
  split at h
  · exact absurd h complain_ne_ok
  · rename_i v hread
    obtain ⟨fields, rfl, -⟩ := Document.ofJson_eq_ok h
    exact ⟨fields, Json.read_eq_ok_iff.1 hread, h⟩

/-! ## Section 3: entries -/

/-- Puts an entry in, unless it has no name. -/
def putNamed (entries : Entries) (e : Text × QuantizedModel) : Except IdentifierFault Entries :=
  if h : e.1 = "" then .error ⟨.text e.1⟩ else .ok (entries.insert e.1 e.2 h)

theorem entriesOf_eq (models : List (Text × QuantizedModel)) :
    entriesOf models = (OrderedMap.ofList models).entries.foldlM putNamed Entries.empty := rfl

/-- Entries that are put in one after the other answer each name by the last one
    of it. -/
theorem get?_of_foldlM {models : List (Text × QuantizedModel)} {entries : Entries}
    (h : models.foldlM putNamed Entries.empty = .ok entries) (name : Text) (m : QuantizedModel) :
    entries.get? name = some m ↔ IsLast models name m := by
  -- From the right: what is put in last counts.
  induction models using List.reverseRecOn generalizing entries with
  | nil =>
    cases h
    exact ⟨fun h => (by cases h), fun h => (not_isLast_nil name m h).elim⟩
  | append_singleton models e ih =>
    rw [List.foldlM_append] at h
    obtain ⟨earlier, hearlier, hstep⟩ := bind_eq_ok_iff.1 h
    obtain ⟨final, hfinal, hnil⟩ := bind_eq_ok_iff.1 hstep
    cases hnil
    unfold putNamed at hfinal
    split at hfinal
    · cases hfinal
    · cases hfinal
      rw [Entries.get?_insert, isLast_append_singleton, ← ih hearlier]
      by_cases heq : name = e.1
      · simp [heq]
      · simp [heq, Ne.symm heq]

theorem get?_entriesOf {models : List (Text × QuantizedModel)} {entries : Entries}
    (h : entriesOf models = .ok entries) (name : Text) (m : QuantizedModel) :
    entries.get? name = some m ↔ IsLast models name m := by
  rw [entriesOf_eq] at h
  rw [get?_of_foldlM h, OrderedMap.isLast_entries_iff, OrderedMap.get?_ofList_eq_some_iff]

/-! ## Section 4: tables -/

/-- The fields of an artifact say that its table is this one. -/
structure Says (fields : List (Text × Value)) (t : CostModelTable) : Prop where
  version : ∀ v, IsLast fields "format_version" v → versionOf v = .ok 1
  fingerprint : ∀ v, IsLast fields "fingerprint" v →
    v = .null ∨ v = .text (Digest.Sha256.hexDigest (Text.Utf8.encode t.canonical))
  entries : ∃ written, IsLast fields "entries" (.object written) ∧
    ∀ name m, t.entries.get? name = some m ↔ ∃ v, IsLast written name v ∧ WritesModel v m
  named : ∀ name ∈ t.operations, name ≠ ""
  bounded : ∀ name m, t.entries.get? name = some m → m.constParam ≤ u64Max ∧ m.linParam ≤ u64Max

/-- A table that is parsed is made of the entries and the time of a document of
    this version, and has the fingerprint that the document states. -/
theorem parse_cases {text : List Char} {now : Timestamp} {t : CostModelTable}
    (h : parse text now = .ok t) :
    ∃ d, Document.ofText text = .ok d ∧ d.formatVersion = formatVersion ∧
      entriesOf d.entries = .ok t.entries ∧
      t = CostModelTable.stamped t.entries (some (d.calibratedAt : Text)) now ∧
      ∀ stated, d.fingerprint = some stated → stated = t.fingerprint := by
  -- One case for each way in which a parse can end; all but two are errors.
  unfold parse at h
  split at h
  · cases h
  · rename_i d htext
    split at h
    · cases h
    · rename_i hversion
      refine ⟨d, htext, not_not.1 hversion, ?_⟩
      unfold tableOf at h
      split at h
      · cases h
      · rename_i entries hentries
        dsimp only at h
        split at h
        · rename_i hnone
          cases h
          refine ⟨by rw [CostModelTable.entries_stamped]; exact hentries,
            by rw [CostModelTable.entries_stamped], fun stated hstated => ?_⟩
          rw [hnone] at hstated
          cases hstated
        · rename_i stated' hsome
          split at h
          · rename_i hfingerprint
            cases h
            refine ⟨by rw [CostModelTable.entries_stamped]; exact hentries,
              by rw [CostModelTable.entries_stamped], fun stated hstated => ?_⟩
            rw [hsome] at hstated
            cases hstated
            exact hfingerprint
          · cases h

/-- No table is handed out that the text does not say. -/
theorem says_of_parse {text : List Char} {now : Timestamp} {t : CostModelTable}
    (h : parse text now = .ok t) :
    ∃ fields, Denotes .strict text (.object fields) ∧ Says fields t := by
  obtain ⟨d, htext, hversion, hentries, -, hstated⟩ := parse_cases h
  obtain ⟨fields, hdenotes, hjson⟩ := Document.ofText_eq_ok htext
  obtain ⟨_, heq, hv, -, hf, he⟩ := Document.ofJson_eq_ok hjson
  cases heq
  obtain ⟨written, hwritten, hmodels⟩ := exists_entries_of_checkEntriesField he
  refine ⟨fields, hdenotes, ⟨?_, ?_, ⟨written, hwritten, ?_⟩, ?_, ?_⟩⟩
  · intro v hlast
    rw [versionOf_of_checkVersion hv hlast, hversion]
    rfl
  · intro v hlast
    rcases fingerprint_of_checkFingerprint hf hlast with ⟨rfl, -⟩ | ⟨stated, rfl, hsome⟩
    · exact .inl rfl
    · obtain ⟨-, _, _, hspells⟩ := hdenotes.exists_of_mem_object hlast.mem
      cases hspells with
      | text htext =>
        have hdigest : t.fingerprint = stated.toString := (hstated _ hsome).symm
        right
        -- A spelled text has no halves: it is the string that was compared.
        show _ = Value.text t.fingerprint
        rw [hdigest, Text.ofString_toString htext.any_isHalf]
  · intro name m
    rw [get?_entriesOf hentries, isLast_iff_of_writesEntry hmodels]
  · intro name hname
    obtain ⟨e, he, rfl⟩ := List.mem_map.1 hname
    exact t.entries.named e he
  · intro name m _
    exact ⟨m.const_le, m.lin_le⟩

/-- The names that a text spells have no halves. -/
theorem Says.isString {text : List Char} {fields : List (Text × Value)} {t : CostModelTable}
    (hdenotes : Denotes .strict text (.object fields)) (h : Says fields t) :
    ∀ name ∈ t.operations, name.IsString := by
  intro name hname
  obtain ⟨written, hwritten, hentries⟩ := h.entries
  obtain ⟨m, hm⟩ := Option.isSome_iff_exists.1 (Entries.mem_names_iff.1 hname)
  obtain ⟨v, hv, -⟩ := (hentries name m).1 hm
  obtain ⟨-, _, _, hspells⟩ := hdenotes.exists_of_mem_object hwritten.mem
  obtain ⟨⟨_, hspelled⟩, -⟩ := hspells.exists_of_mem_object hv.mem
  exact ⟨name.toString, Text.ofString_toString hspelled.any_isHalf⟩

/-- A table that is parsed has a string for its time and for each name. -/
theorem isString_of_parse {text : List Char} {now : Timestamp} {t : CostModelTable}
    (h : parse text now = .ok t) :
    (∀ name ∈ t.operations, name.IsString) ∧ t.calibratedAt.IsString := by
  obtain ⟨fields, hdenotes, hfields⟩ := says_of_parse h
  obtain ⟨d, -, -, -, hstamped, -⟩ := parse_cases h
  refine ⟨hfields.isString hdenotes, ?_⟩
  -- A time that is empty is replaced by the time of the load, which is a string
  -- as well.
  rw [hstamped]
  unfold CostModelTable.stamped
  dsimp only
  split_ifs with hempty
  · exact ⟨now.text, rfl⟩
  · exact ⟨d.calibratedAt, rfl⟩

end Artifact
end CalibratedCosts
