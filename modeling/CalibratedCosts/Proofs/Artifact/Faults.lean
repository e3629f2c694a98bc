import Mathlib
import CalibratedCosts.Proofs.Artifact.Files
import CalibratedCosts.Proofs.Artifact.Parsing
import CalibratedCosts.Proofs.CommandLine.Action
import CalibratedCosts.Proofs.Files.System

/-! # How loading an artifact fails

    A load fails with an error of the artifact, which the commands report, or
    with a fault that nobody expects: bytes that are no text, and an operation
    without a name in an artifact that is otherwise in order.

    * **Errors**: a missing file, a directory, no JSON, a violation of the
      schema, another version and another fingerprint are errors of the
      artifact.
    * **Commands**: an error is printed in a line of its own, with status 1; any
      other fault interrupts the command.
-/

namespace CalibratedCosts

namespace Artifact

variable {σ : Type} {text : List Char} {now : Timestamp}

/-! ## Section 1: entries without a name -/

theorem exists_foldlM_putNamed_iff {models : List (Text × QuantizedModel)} {entries : Entries} :
    (∃ final, models.foldlM putNamed entries = .ok final) ↔ ∀ e ∈ models, e.1 ≠ "" := by
  induction models generalizing entries with
  | nil => exact ⟨fun _ _ he => (List.not_mem_nil he).elim, fun _ => ⟨entries, rfl⟩⟩
  | cons e rest ih =>
    rw [List.foldlM_cons, exists_bind_eq_ok_iff, List.forall_mem_cons]
    by_cases hname : e.1 = ""
    · simp [putNamed, hname]
    · simp [putNamed, hname, ih]

/-- The entries of a document make a table unless one of them has no name. -/
theorem exists_entriesOf_iff {models : List (Text × QuantizedModel)} :
    (∃ entries, entriesOf models = .ok entries) ↔ ∀ e ∈ models, e.1 ≠ "" := by
  rw [entriesOf_eq, exists_foldlM_putNamed_iff]
  constructor
  · rintro h ⟨name, m⟩ he rfl
    -- Some pair without a name is the last one, and that one is in the map.
    obtain ⟨m', hlast⟩ := OrderedMap.exists_isLast he
    have hget := OrderedMap.get?_ofList_eq_some_iff.2 hlast
    exact h _ (OrderedMap.get?_eq_some_iff.1 hget) rfl
  · rintro h ⟨name, m⟩ he
    have hlast := OrderedMap.get?_ofList_eq_some_iff.1 (OrderedMap.get?_eq_some_iff.2 he)
    exact h _ hlast.mem

/-- A text is an artifact of this version, except that it has an entry without
    a name. -/
def HasUnnamedEntry (text : List Char) : Prop :=
  ∃ d, Document.ofText text = .ok d ∧ d.formatVersion = formatVersion ∧ ∃ e ∈ d.entries, e.1 = ""

theorem parse_error_cases {fault : Fault} (h : parse text now = .error fault) :
    (∃ e, fault = .artifact e) ∨ HasUnnamedEntry text := by
  -- Only making the table can end in anything but an error of the artifact.
  unfold parse at h
  split at h
  · cases h
    exact .inl ⟨_, rfl⟩
  · rename_i d htext
    split at h
    · cases h
      exact .inl ⟨_, rfl⟩
    · rename_i hversion
      unfold tableOf at h
      split at h
      · rename_i hentries
        right
        refine ⟨d, htext, not_not.1 hversion, ?_⟩
        by_contra hnamed
        obtain ⟨entries, hok⟩ := exists_entriesOf_iff.2 fun e he heq => hnamed ⟨e, he, heq⟩
        rw [hok] at hentries
        cases hentries
      · dsimp only at h
        split at h
        · cases h
        · split at h
          · cases h
          · cases h
            exact .inl ⟨_, rfl⟩

theorem parse_of_hasUnnamedEntry (h : HasUnnamedEntry text) (now : Timestamp) :
    ∃ fault, parse text now = .error (.identifier fault) := by
  obtain ⟨d, htext, hversion, e, he, hname⟩ := h
  cases hentries : entriesOf d.entries with
  | ok entries => exact absurd hname (exists_entriesOf_iff.1 ⟨entries, hentries⟩ e he)
  | error fault =>
    refine ⟨fault, ?_⟩
    unfold parse
    simp only [htext, hversion, ne_eq, not_true, if_false, tableOf, hentries]

/-! ## Section 2: files -/

variable {fs : FileSystem σ} {p : FilePath}

/-- What is at a path is nothing unexpected: if it has bytes they are a text,
    and not one whose only defect is an entry without a name. -/
def IsOrdinary (fs : FileSystem σ) (p : FilePath) : Prop :=
  ∀ bytes, fs.read p = .ok bytes →
    ∃ cs, Text.Utf8.decode bytes = .ok cs ∧ ¬ HasUnnamedEntry (Text.unifyLineEnds cs)

section Loads

variable {bytes : List UInt8} (hnul : p.hasNul = false)

include hnul

theorem outcome_load_of_error {e : SystemError} (h : fs.read p = .error e) (now : Timestamp) :
    (load fs p now).outcome = .error (.artifact (.unreadable p.text e)) := by
  rw [outcome_load, FileSystem.readText_of_error hnul h]
  rfl

theorem outcome_load_of_undecodable {fault : Text.Utf8.Fault} (h : fs.read p = .ok bytes)
    (hdecode : Text.Utf8.decode bytes = .error fault) (now : Timestamp) :
    (load fs p now).outcome = .error (.undecodable fault) := by
  rw [outcome_load, FileSystem.readText_of_undecodable hnul h hdecode]
  rfl

theorem outcome_load_of_decode {cs : List Char} (h : fs.read p = .ok bytes)
    (hdecode : Text.Utf8.decode bytes = .ok cs) (now : Timestamp) :
    (load fs p now).outcome = parse (Text.unifyLineEnds cs) now := by
  rw [outcome_load, FileSystem.readText_of_decode hnul h hdecode]
  rfl

/-- A load fails with an error of the artifact and with nothing else, exactly if
    what is at the path is ordinary. -/
theorem forall_load_error_iff :
    (∀ now fault, (load fs p now).outcome = .error fault → ∃ e, fault = .artifact e) ↔
      IsOrdinary fs p := by
  constructor
  -- Each fault of the file would be a fault of the load, and no error of an
  -- artifact.
  · intro h bytes hread
    cases hdecode : Text.Utf8.decode bytes with
    | error fault =>
      obtain ⟨e, he⟩ := h _ _ (outcome_load_of_undecodable hnul hread hdecode ⟨0, 0⟩)
      cases he
    | ok cs =>
      refine ⟨cs, rfl, fun hunnamed => ?_⟩
      -- A name is missed only after the text has passed all checks.
      obtain ⟨fault, hparse⟩ := parse_of_hasUnnamedEntry hunnamed ⟨0, 0⟩
      have hload := outcome_load_of_decode hnul hread hdecode ⟨0, 0⟩
      obtain ⟨e, he⟩ := h _ _ (hload.trans hparse)
      cases he
  -- A load of an ordinary file ends before the text or in the parser.
  · intro h now fault hload
    cases hread : fs.read p with
    | error e =>
      rw [outcome_load_of_error hnul hread] at hload
      cases hload
      exact ⟨_, rfl⟩
    | ok bytes =>
      obtain ⟨cs, hdecode, hnamed⟩ := h bytes hread
      rw [outcome_load_of_decode hnul hread hdecode] at hload
      rcases parse_error_cases hload with he | hunnamed
      · exact he
      · exact absurd hunnamed hnamed

end Loads
end Artifact

namespace CommandLine

open Artifact (load IsOrdinary)

/-! ## Section 3: commands -/

variable {σ : Type} {host : Host σ} {w : World σ} {path : String} {request : Request}

/-- The request is to use the table of the artifact at a path. -/
def ReadsArtifact (env : Environment) (path : String) (request : Request) : Prop :=
  ∃ origin settings,
    ((∃ asJson, request = .display origin asJson) ∨
      ∃ operation size, request = .evaluate operation size origin) ∧
    Settings.ofEnvironment env = .ok settings ∧ nonempty origin.database = none ∧
    (nonempty origin.table).getD settings.tablePath = path

theorem result_tableFor_of_load_error {origin : TableOrigin} {settings : Settings}
    {fault : Artifact.Fault} (hsettings : Settings.ofEnvironment host.environment = .ok settings)
    (hdatabase : nonempty origin.database = none)
    (hpath : (nonempty origin.table).getD settings.tablePath = path)
    (hload : (load w.files (.ofText path) host.now).outcome = .error fault) :
    (tableFor host origin).result w = (.error (.reading fault), w) := by
  unfold tableFor
  rw [Action.result_bind_ok (by rw [Action.result_ofExcept, hsettings]; rfl) _]
  -- The settings and the path lead to the file, whose fault is passed on.
  simp only [hdatabase, hpath]
  unfold writtenTable
  rw [Action.result_withFiles, Traced.outcome_bind, hload]
  rfl

section Commands

variable [Datum.CallRoom] [Numerics Binary64]

/-- A command that cannot load its table does nothing else. -/
theorem result_perform_of_load_error {fault : Artifact.Fault}
    (h : ReadsArtifact host.environment path request)
    (hload : (load w.files (.ofText path) host.now).outcome = .error fault) :
    (perform host request).result w = (.error (.reading fault), w) := by
  obtain ⟨origin, settings, hrequest, hsettings, hdatabase, hpath⟩ := h
  have htable := result_tableFor_of_load_error hsettings hdatabase hpath hload
  rcases hrequest with ⟨asJson, rfl⟩ | ⟨operation, size, rfl⟩
  · exact Action.result_bind_error htable _
  · exact Action.result_bind_error htable _

/-- **One way to fail.**  Loading an artifact gives a table or an error of the
    artifact, and the commands that use it print the error with status 1,
    exactly if the artifact is ordinary.  A path is made of characters, so that
    nothing is said of paths with half of a surrogate pair. -/
theorem artifact_fails_ordinarily_iff (files : FileSystem Store.History) (path : String)
    (hnul : (FilePath.ofText path).hasNul = false) :
    ((∀ now fault, (load files (.ofText path) now).outcome = .error fault →
        ∃ e, fault = .artifact e) ∧
      ∀ (σ : Type) (host : Host σ) (machine : σ) (args : List String) (request : Request),
        Request.ofArguments args = .ok request → ReadsArtifact host.environment path request →
        ∀ fault, (load files (.ofText path) host.now).outcome = .error fault →
          ∃ e, fault = .artifact e ∧ ending host args ⟨files, machine⟩ =
            .finished 1 (textOfLines [s!"Error: {e.message}"]) "") ↔
      IsOrdinary files (.ofText path) := by
  rw [← Artifact.forall_load_error_iff hnul]
  constructor
  -- One direction forgets the commands.
  · exact And.left
  · intro h
    refine ⟨h, fun σ host machine args request hargs hreads fault hload => ?_⟩
    -- A command that reads the artifact meets the same error and reports it.
    obtain ⟨e, rfl⟩ := h _ _ hload
    have hresult := result_perform_of_load_error (w := ⟨files, machine⟩) hreads hload
    refine ⟨e, rfl, ?_⟩
    rw [ending_eq hargs, hresult]
    rfl

end Commands

section Examples

open scoped Datum.CallRoom Numerics

def idleHost : Host Unit where
  environment := []
  now := ⟨0, 0⟩
  clock := fun s => (.ok 0, s)
  work := fun _ _ s => (.ok (), s)

/-- The files when there is only the artifact that is to be shown. -/
def artifactOf (bytes : List UInt8) : FileSystem Store.History :=
  (FileSystem.emptyAt []).put ["a.json"] (.file bytes)

theorem readsArtifact_idleHost :
    Request.ofArguments ["show", "--table", "a.json"] = .ok (.display ⟨some "a.json", none⟩ false) ∧
    ReadsArtifact idleHost.environment "a.json" (.display ⟨some "a.json", none⟩ false) :=
  ⟨rfl, _, _, .inl ⟨_, rfl⟩, rfl, rfl, rfl⟩

/-- Half an object is reported. -/
theorem brace_fails_ordinarily :
    (FilePath.ofText "a.json").hasNul = false ∧
    IsOrdinary (artifactOf [0x7b]) (.ofText "a.json") ∧
    ∃ e : Artifact.Error, ending idleHost ["show", "--table", "a.json"] ⟨artifactOf [0x7b], ()⟩ =
      .finished 1 (textOfLines [s!"Error: {e.message}"]) "" := by
  have hnul : (FilePath.ofText "a.json").hasNul = false := rfl
  have hread : (artifactOf [0x7b]).read (.ofText "a.json") = .ok [0x7b] := rfl
  have hdecode : Text.Utf8.decode [0x7b] = .ok ['{'] := rfl
  have hrefused : Artifact.Document.ofText ['{'] = .error [⟨.notJson, []⟩] := rfl
  -- The brace is no document, and so no document with a name missing.
  have hordinary : IsOrdinary (artifactOf [0x7b]) (.ofText "a.json") := by
    intro bytes hbytes
    rw [hread] at hbytes
    cases hbytes
    refine ⟨_, hdecode, ?_⟩
    rintro ⟨d, htext, -⟩
    have hplain : Text.unifyLineEnds ['{'] = ['{'] := rfl
    rw [hplain, hrefused] at htext
    cases htext
  obtain ⟨hargs, hreads⟩ := readsArtifact_idleHost
  obtain ⟨issues, hload⟩ : ∃ issues, (load (artifactOf [0x7b]) (.ofText "a.json") ⟨0, 0⟩).outcome =
      .error (.artifact (.invalid issues)) :=
    ⟨_, Artifact.outcome_load_of_decode hnul hread hdecode ⟨0, 0⟩⟩
  obtain ⟨e, -, hend⟩ := ((artifact_fails_ordinarily_iff _ _ hnul).2 hordinary).2 Unit idleHost ()
    _ _ hargs hreads _ hload
  exact ⟨hnul, hordinary, e, hend⟩

/-- A byte that is part of no text interrupts the command. -/
theorem undecodable_artifact_unreported :
    (FilePath.ofText "a.json").hasNul = false ∧
    (artifactOf [0xff]).read (.ofText "a.json") = .ok [0xff] ∧
    ∃ fault, (load (artifactOf [0xff]) (.ofText "a.json") ⟨0, 0⟩).outcome = .error fault ∧
      (∀ e, fault ≠ .artifact e) ∧
      ending idleHost ["show", "--table", "a.json"] ⟨artifactOf [0xff], ()⟩ =
        .interrupted (.reading fault) := by
  have hnul : (FilePath.ofText "a.json").hasNul = false := rfl
  have hread : (artifactOf [0xff]).read (.ofText "a.json") = .ok [0xff] := rfl
  have hdecode : Text.Utf8.decode [0xff] = .error ⟨0xff, 0, 1, .invalidStart⟩ := rfl
  -- No text comes out of the byte, and what is raised then is not caught.
  have hload := Artifact.outcome_load_of_undecodable hnul hread hdecode ⟨0, 0⟩
  obtain ⟨hargs, hreads⟩ := readsArtifact_idleHost
  have hresult := result_perform_of_load_error (w := ⟨artifactOf [0xff], ()⟩) hreads hload
  refine ⟨hnul, hread, _, hload, by rintro e ⟨⟩, ?_⟩
  rw [ending_eq hargs, hresult]
  rfl

end Examples

end CommandLine
end CalibratedCosts
