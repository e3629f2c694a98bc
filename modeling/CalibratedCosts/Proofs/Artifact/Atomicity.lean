import Mathlib
import CalibratedCosts.Proofs.Artifact.Files
import CalibratedCosts.Proofs.Artifact.Parsing

/-! # Artifacts are written as a whole or not at all

    A save goes through a temporary file and can fail at each step: before the
    temporary file is there, while it holds part of the artifact, and when it
    is complete but does not take its place.  In every case the file system is
    as it was.  A save that succeeds changes the file at its path and nothing
    else, and the temporary file is gone.

    What was written is loaded again if its names and its time are strings.
    Half of a surrogate pair is written as an escape that no load accepts.
-/

namespace CalibratedCosts.Artifact

open FileSystem (ChangedAt Interference)

variable {σ : Type}

/-- A table that is loaded has a string for its time and for each name. -/
theorem isString_of_load {t : CostModelTable} {p : FilePath} {fs : FileSystem σ} {now : Timestamp}
    (h : (load fs p now).outcome = .ok t) :
    (∀ name ∈ t.operations, name.IsString) ∧ t.calibratedAt.IsString := by
  rw [outcome_load] at h
  obtain ⟨text, -, hparse⟩ := bind_eq_ok_iff.1 h
  exact isString_of_parse hparse

/-- A save succeeds exactly if nothing stops it, and then the artifact is at
    the path, no other location has changed, and the table is loaded again
    exactly if its names and its time are strings.  Any other save has failed
    with an error of the artifact, and has changed nothing. -/
theorem save_atomic (trouble : Interference) (t : CostModelTable) (p : FilePath)
    (fs : FileSystem σ) (hnul : p.hasNul = false) :
    (saveUnder trouble t p fs).1.outcome = .ok () ∧ trouble.Permits fs p ∧
      (∃ target, ChangedAt fs (saveUnder trouble t p fs).2 target (.file (bytesOf t)) ∧
        (saveUnder trouble t p fs).2.locate p = .ok (target, some (.file (bytesOf t)))) ∧
      (∀ now, (load (saveUnder trouble t p fs).2 p now).outcome = .ok t ↔
        (∀ name ∈ t.operations, name.IsString) ∧ t.calibratedAt.IsString) ∨
    (∃ e, (saveUnder trouble t p fs).1.outcome = .error (.artifact (.unwritten p.text e))) ∧
      ¬ trouble.Permits fs p ∧ (saveUnder trouble t p fs).2 = fs := by
  rcases saveUnder_cases trouble t fs hnul with
    ⟨e, hfailed, hsame, hstopped⟩ | ⟨hsaved, hpermits, target, hchanged, hlocate⟩
  -- A write that has failed at any step has left everything as it was.
  · exact .inr ⟨⟨e, hfailed⟩, hstopped, hsame⟩
  · refine .inl ⟨hsaved, hpermits, ⟨target, hchanged, hlocate⟩, fun now => ⟨fun hload => ?_, ?_⟩⟩
    -- What is loaded is made of strings, so that other names cannot come back.
    · exact isString_of_load hload
    · rintro ⟨hnames, htime⟩
      exact load_of_locate hnames htime hnul hlocate now

def tableOfOne (name : Text) (hname : name ≠ "") : CostModelTable :=
  ⟨⟨[(name, ⟨17, 4, by decide, by decide⟩)], by simp, by simpa using hname⟩, "now", by decide⟩

def twoNodes : FileSystem Unit :=
  ((FileSystem.emptyAt []).put ["t.json"] (.file [0x7b])).put ["d"] .directory

def fullDisk : Interference :=
  ⟨FileSystem.tokens, none, some (.other 28 "No space left on device", 10), none⟩

/-- A full disk leaves the old artifact where it was. -/
theorem save_atomic_fullDisk :
    (FilePath.ofText "t.json").hasNul = false ∧
    (∃ e, (saveUnder fullDisk (tableOfOne "HostMemCpy" (by decide)) (.ofText "t.json")
      twoNodes).1.outcome = .error (.artifact (.unwritten "t.json" e))) ∧
    (saveUnder fullDisk (tableOfOne "HostMemCpy" (by decide)) (.ofText "t.json") twoNodes).2 =
      twoNodes := by
  have hnul : (FilePath.ofText "t.json").hasNul = false := rfl
  refine ⟨hnul, ?_⟩
  -- The disk takes ten bytes and no more, which is fewer than an artifact has.
  rcases save_atomic fullDisk (tableOfOne "HostMemCpy" (by decide)) (.ofText "t.json") twoNodes hnul
    with ⟨-, hpermits, -⟩ | ⟨hfailed, -, hsame⟩
  · exact absurd hpermits.writes (by simp [fullDisk])
  · exact ⟨hfailed, hsame⟩

def halfName : Text := ⟨[.half 0]⟩

theorem not_isString_halfName : ¬ halfName.IsString := by
  rintro ⟨s, hs⟩
  have hnone : (Text.ofString s).string? = none := by rw [hs]; rfl
  rw [Text.string?_ofString] at hnone
  cases hnone

/-- A table whose operation is named by half of a surrogate pair is saved, but
    it is not loaded again. -/
theorem halfName_not_loaded :
    (saveUnder .absent (tableOfOne halfName (by decide)) (.ofText "t.json") twoNodes).1.outcome =
      .ok () ∧
    ∀ now, (load (saveUnder .absent (tableOfOne halfName (by decide)) (.ofText "t.json")
      twoNodes).2 (.ofText "t.json") now).outcome ≠ .ok (tableOfOne halfName (by decide)) := by
  refine ⟨toOption_eq_some_iff.1 (by decide +kernel), fun now hload => ?_⟩
  have hmem : halfName ∈ (tableOfOne halfName (by decide)).operations := List.mem_singleton_self _
  exact not_isString_halfName ((isString_of_load hload).1 halfName hmem)

end CalibratedCosts.Artifact
