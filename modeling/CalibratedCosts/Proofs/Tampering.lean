import Mathlib
import CalibratedCosts.Proofs.Artifact.Atomicity
import CalibratedCosts.Proofs.Artifact.Parsing
import CalibratedCosts.Proofs.Store.Active
import CalibratedCosts.Proofs.Store.Log
import CalibratedCosts.Proofs.Table.Canonical

/-! # No altered entries are handed out

    Both loaders make the fingerprint anew from the entries that they have read
    and hand a table out only if it is the stored one.  Whatever has been done to
    the entries of an artifact or to the rows of a store, as long as the
    fingerprint is in its place the table that is loaded is the one that was
    stored, or two canonical texts are a collision of the digest.

    * **Names**: the canonical text is the same for a character and for the two
      halves that it is made of, so that this holds for names without halves.
    * **Headers**: a store without a header to load is no error.
-/

namespace CalibratedCosts

/-! ## Section 1: stored runs -/

namespace Store

variable {s : History} {run : RunRow} {runId : Int} {now : Timestamp} {t : StoredTable}

/-- The header that a load is about. -/
def askedRow? (s : History) : Option Int → Option RunRow
  | none => activeRow? s
  | some runId => runRow? s runId

namespace TextCell

variable {c : TextCell} {column : String} {d : Datum}

/-- A cell that is fetched as a string holds the string. -/
theorem eq_text_of_fetch {s : String} (h : c.fetch column = .ok d) (hd : (d == .text s) = true) :
    c = .text s := by
  cases c with
  | text s' =>
    cases h
    have hsame := Option.some.inj (Datum.sameKey_text_iff.1 hd)
    rw [Text.ofString_injective hsame]
  | malformed content _ => cases h
  -- Bytes are the same as no string.
  | blob content =>
    cases h
    cases hd

/-- A cell that is fetched as the name of an operation holds a string. -/
theorem isString_of_fetch {name : Text} (h : c.fetch column = .ok d)
    (hname : d.identifier? = some name) : name.IsString := by
  cases c with
  | text s =>
    cases h
    exact ⟨s, Option.some.inj (Datum.asText?_of_identifier? hname)⟩
  | malformed content _ => cases h
  | blob content =>
    cases h
    cases hname

end TextCell

theorem RunRow.Reads.fetch_fingerprint {row : RunRow} {r : RunRecord} (h : row.Reads r) :
    row.fingerprint.fetch "fingerprint" = .ok r.fingerprint := by
  obtain ⟨d, hrow, hrecord⟩ := h
  obtain ⟨fingerprint, hfingerprint, hrow⟩ := bind_eq_ok_iff.1 hrow
  obtain ⟨_, -, hrow⟩ := bind_eq_ok_iff.1 hrow
  obtain ⟨_, -, hrow⟩ := bind_eq_ok_iff.1 hrow
  obtain ⟨_, -, hrow⟩ := bind_eq_ok_iff.1 hrow
  obtain ⟨_, -, hrow⟩ := bind_eq_ok_iff.1 hrow
  cases hrow
  cases hrecord
  exact hfingerprint

theorem ModelRow.Reads.fetch_operation {row : ModelRow} {r : ModelRecord} (h : row.Reads r) :
    row.operation.fetch "operation" = .ok r.operation := by
  obtain ⟨d, hrow, hrecord⟩ := h
  obtain ⟨operation, hoperation, hrow⟩ := bind_eq_ok_iff.1 hrow
  obtain ⟨constParam, -, hrow⟩ := bind_eq_ok_iff.1 hrow
  obtain ⟨linParam, -, hrow⟩ := bind_eq_ok_iff.1 hrow
  -- A quality that is null is not fetched.
  obtain ⟨rSquared, rfl⟩ : ∃ rSquared, d = .object [("run_id", .whole row.runId),
      ("operation", operation), ("const_param", constParam), ("lin_param", linParam),
      ("r_squared", rSquared)] := by
    split at hrow
    · cases hrow
      exact ⟨_, rfl⟩
    · obtain ⟨_, -, hrow⟩ := bind_eq_ok_iff.1 hrow
      cases hrow
      exact ⟨_, rfl⟩
  obtain ⟨_, -, hrecord⟩ := bind_eq_ok_iff.1 hrecord
  obtain ⟨_, hcolumn, hrecord⟩ := bind_eq_ok_iff.1 hrecord
  obtain ⟨_, -, hrecord⟩ := bind_eq_ok_iff.1 hrecord
  obtain ⟨_, -, hrecord⟩ := bind_eq_ok_iff.1 hrecord
  cases hcolumn
  cases hrecord
  exact hoperation

/-- The operations of stored models have strings for names. -/
theorem isString_of_storedModels {models : List (Datum × QuantizedModel)}
    (h : storedModels s runId = .ok models) {e : Datum × QuantizedModel} (he : e ∈ models)
    {name : Text} (hname : e.1.identifier? = some name) : name.IsString := by
  obtain ⟨records, hrecords, hmodels⟩ := storedModels_cases h
  obtain ⟨r, hr, hoperation⟩ := hmodels e he
  obtain ⟨row, hrow⟩ :=
    forall_mem_of_forall₂ (P := fun r => ∃ row : ModelRow, row.Reads r) hrecords
      (fun row _ hrow => ⟨row, hrow⟩) r hr
  rw [← hoperation] at hname
  exact TextCell.isString_of_fetch hrow.fetch_operation hname

theorem isString_of_withModel {entries entries' : Entries} {e : Datum × QuantizedModel}
    (h : withModel entries e = .ok entries')
    (he : ∀ name, e.1.identifier? = some name → name.IsString)
    (hnames : ∀ name ∈ entries.names, name.IsString) : ∀ name ∈ entries'.names, name.IsString := by
  unfold withModel at h
  split at h
  · cases h
  · rename_i added hadded
    cases h
    intro name hname
    -- The names are the one added and those there before.
    rw [Entries.mem_names_iff, Entries.get?_insert] at hname
    split at hname
    · rename_i heq
      rw [heq]
      exact he added hadded
    · exact hnames name (Entries.mem_names_iff.2 hname)

theorem isString_of_entriesOf {models : List (Datum × QuantizedModel)} {entries : Entries}
    (h : entriesOf models = .ok entries)
    (hmodels : ∀ e ∈ models, ∀ name, e.1.identifier? = some name → name.IsString) :
    ∀ name ∈ entries.names, name.IsString :=
  of_foldlM_eq_ok (P := fun entries => ∀ name ∈ entries.names, name.IsString) h
    (fun _ hname => (List.not_mem_nil hname).elim)
    fun e he _ _ hnames hstep => isString_of_withModel hstep (hmodels e he) hnames

/-- The table of a run has the fingerprint of its header, and strings for
    names. -/
theorem tableOf_cases (h : (tableOf s run now).outcome = .ok t) :
    run.fingerprint = .text t.entries.fingerprint ∧ ∀ name ∈ t.entries.names, name.IsString := by
  unfold tableOf at h
  rw [Traced.outcome_bind] at h
  obtain ⟨header, hheader, h⟩ := bind_eq_ok_iff.1 h
  rw [Traced.outcome_bind] at h
  obtain ⟨models, hmodels, h⟩ := bind_eq_ok_iff.1 h
  rw [Traced.outcome_bind] at h
  obtain ⟨entries, hentries, h⟩ := bind_eq_ok_iff.1 h
  -- The fingerprints are compared last, and the error is raised where they
  -- differ.
  split at h
  · rename_i hfingerprint
    cases h
    have hreads := recordOf_eq_ok_iff.1 (mapError_eq_ok_iff.1 hheader)
    exact ⟨TextCell.eq_text_of_fetch hreads.fetch_fingerprint hfingerprint,
      isString_of_entriesOf (mapError_eq_ok_iff.1 hentries) fun e he _ hname =>
        isString_of_storedModels hmodels he hname⟩
  · cases h

/-- A load is about one header. -/
theorem loadedFrom_of_loadTable {asked : Option Int} {loaded : Option StoredTable}
    (h : (loadTable s asked now).outcome = .ok loaded) :
    loadedFrom s (askedRow? s asked) now = .ok loaded := by
  cases asked with
  | none => rw [← h, outcome_loadTable_none, askedRow?]
  | some runId =>
    cases hfits : fitsCell runId with
    | false =>
      rw [outcome_loadTable_of_not_fitsCell hfits] at h
      cases h
    | true => rw [← h, outcome_loadTable_some hfits, askedRow?]

/-- Where there is a header a table comes out of it, and nothing where there is
    none. -/
theorem loadTable_cases {asked : Option Int} {loaded : Option StoredTable}
    (h : (loadTable s asked now).outcome = .ok loaded) :
    (askedRow? s asked = none ∧ loaded = none) ∨
    ∃ run t, askedRow? s asked = some run ∧ loaded = some t ∧ (tableOf s run now).outcome = .ok t := by
  have hrow := loadedFrom_of_loadTable h
  cases hasked : askedRow? s asked with
  | none =>
    rw [hasked] at hrow
    exact .inl ⟨rfl, (Except.ok.inj hrow).symm⟩
  | some run =>
    rw [hasked] at hrow
    obtain ⟨t, htable, rfl⟩ := map_eq_ok_iff.1 hrow
    exact .inr ⟨run, t, rfl, rfl, htable⟩

theorem mem_runs_of_askedRow? {asked : Option Int} (h : askedRow? s asked = some run) :
    run ∈ s.runs := by
  cases asked with
  | none => exact List.mem_mergeSort.1 (List.mem_of_find?_eq_some h)
  | some runId => exact List.mem_of_find?_eq_some h

end Store

/-! ## Section 2: both loaders -/

open Artifact (parse dump Says tableOfOne)
open Json (Denotes)
open OrderedMap (IsLast)

/-- A parsed text says what its table is, and a loaded table has the fingerprint
    of its header.  Hence, whatever is done to a stored table while its
    fingerprint stays, what is handed out has the entries that were stored, or
    its canonical text and theirs are a collision.  The names of the stored
    table have no halves, and from a store nothing is handed out if there is no
    header left to load. -/
theorem no_altered_entries :
    (∀ text now t, parse text now = .ok t →
      ∃ fields, Denotes .strict text (.object fields) ∧ Says fields t) ∧
    (∀ s asked now t, (Store.loadTable s asked now).outcome = .ok (some t) →
      ∃ run ∈ s.runs, Store.askedRow? s asked = some run ∧
        run.fingerprint = .text (Digest.Sha256.hexDigest (Text.Utf8.encode t.entries.canonical))) ∧
    ∀ stored : CostModelTable, (∀ name ∈ stored.operations, name.IsString) →
      (∀ text now t fields, Denotes .strict text (.object fields) →
        IsLast fields "fingerprint" (.text stored.fingerprint) → parse text now = .ok t →
        t.SameOrCollide stored) ∧
      ∀ s asked now loaded, (Store.loadTable s asked now).outcome = .ok loaded →
        (Store.askedRow? s asked = none ∧ loaded = none) ∨
        ∃ run t, Store.askedRow? s asked = some run ∧ loaded = some t ∧
          (run.fingerprint = .text stored.fingerprint → t.entries.SameOrCollide stored.entries) := by
  refine ⟨fun text now t h => Artifact.says_of_parse h, ?_, ?_⟩
  · intro s asked now t h
    rcases Store.loadTable_cases h with ⟨-, hnone⟩ | ⟨run, t', hasked, heq, htable⟩
    · cases hnone
    · cases heq
      exact ⟨run, Store.mem_runs_of_askedRow? hasked, hasked, (Store.tableOf_cases htable).1⟩
  · intro stored hstored
    constructor
    · intro text now t fields hdenotes hlast h
      obtain ⟨fields', hdenotes', hspoken⟩ := Artifact.says_of_parse h
      -- The text denotes one object, which states the stored fingerprint.
      cases hdenotes.unique hdenotes'
      have hfingerprint : t.fingerprint = stored.fingerprint := by
        rcases hspoken.fingerprint _ hlast with hnull | htext
        · cases hnull
        · exact (Text.ofString_injective (Json.Value.text.inj htext)).symm
      exact CostModelTable.sameOrCollide_iff.2
        (Entries.sameOrCollide_of_fingerprint_eq (hspoken.isString hdenotes) hstored hfingerprint)
    · intro s asked now loaded h
      rcases Store.loadTable_cases h with hnone | ⟨run, t, hasked, rfl, htable⟩
      · exact .inl hnone
      · obtain ⟨hfingerprint, hnames⟩ := Store.tableOf_cases htable
        refine .inr ⟨run, t, hasked, rfl, fun hrun => ?_⟩
        -- The header states one fingerprint.
        rw [hfingerprint] at hrun
        exact Entries.sameOrCollide_of_fingerprint_eq hnames hstored (Store.TextCell.text.inj hrun)

/-- A name that is made up of the two halves of a character. -/
def splitName : Text := ⟨[.ofNumber 0xd83d, .ofNumber 0xde00]⟩

theorem dump_splitName :
    dump (tableOfOne splitName (by decide)) = dump (tableOfOne "😀" (by decide)) := by
  -- Both names have the same escapes, so every text made of them is the same.
  have hquoted : Json.quotedString splitName = Json.quotedString "😀" := by decide
  have hcanonical : (tableOfOne splitName (by decide)).entries.canonical =
      (tableOfOne "😀" (by decide)).entries.canonical := by
    simp only [Entries.canonical, Entries.toJson, tableOfOne, Json.Value.compact, List.map_cons,
      List.map_nil, Json.compactChars, Json.compactFields, hquoted]
  have hfingerprint : (tableOfOne splitName (by decide)).fingerprint =
      (tableOfOne "😀" (by decide)).fingerprint :=
    congrArg (fun s => Digest.Sha256.hexDigest (Text.Utf8.encode s)) hcanonical
  unfold dump Artifact.documentOf
  rw [hfingerprint]
  simp only [Entries.toJson, tableOfOne, Json.Value.indented, List.map_cons,
    List.map_nil, Json.indentedChars, Json.indentedFields, hquoted]

/-- A name in two halves is read back as another name, although nothing has been
    altered.  A run that is no longer in use is not loaded, although its
    fingerprint is in its place. -/
theorem splitName_joined_and_retired_run_unseen :
    (∃ t, parse (dump (tableOfOne splitName (by decide))).toList ⟨0, 0⟩ = .ok t ∧
      ¬ t.sameEntries (tableOfOne splitName (by decide))) ∧
    ∃ edited, (Store.plainSave.request.save .empty).2.setRun 1 "active" (.whole 0) = .ok edited ∧
      edited.runs.map (·.fingerprint) = [.text Store.plainSave.request.table.fingerprint] ∧
      (Store.loadTable edited none ⟨0, 0⟩).outcome = .ok none := by
  refine ⟨⟨tableOfOne "😀" (by decide), ?_, by decide⟩, _, rfl, rfl, ?_⟩
  · rw [dump_splitName]
    exact Artifact.parse_eq_ok_of_ofText rfl
      (Artifact.ofText_dump (List.forall_mem_singleton.2 ⟨_, rfl⟩) rfl) ⟨0, 0⟩
  -- One row: its sorting is the row itself.
  · rw [Store.outcome_loadTable_none]
    show Store.loadedFrom _ (List.find? Store.RunRow.isActive (List.mergeSort [_] _)) _ = _
    rw [List.mergeSort_singleton]
    rfl

end CalibratedCosts
