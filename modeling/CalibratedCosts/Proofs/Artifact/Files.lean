import Mathlib
import CalibratedCosts.Proofs.Artifact.RoundTrip
import CalibratedCosts.Proofs.Files.System

/-! # Artifacts that are written are loaded again

    A save that fails has changed nothing, and after one that succeeds there
    is the artifact of the table at its path and nothing else has changed.
    As long as the path leads there, a load gives back the table.
-/

namespace CalibratedCosts.Artifact

open FileSystem (ChangedAt)

variable {σ : Type} {t : CostModelTable} {p : FilePath} {fs : FileSystem σ}

/-- The bytes of an artifact. -/
def bytesOf (t : CostModelTable) : List UInt8 := Text.Utf8.encode (dump t)

/-- What a save can do under interference, when its path can be one. -/
theorem saveUnder_cases (trouble : FileSystem.Interference) (t : CostModelTable)
    (fs : FileSystem σ) (hnul : p.hasNul = false) :
    (∃ e, (saveUnder trouble t p fs).1.outcome = .error (.artifact (.unwritten p.text e)) ∧
      (saveUnder trouble t p fs).2 = fs ∧ ¬ trouble.Permits fs p) ∨
    (saveUnder trouble t p fs).1.outcome = .ok () ∧ trouble.Permits fs p ∧
      ∃ target, ChangedAt fs (saveUnder trouble t p fs).2 target (.file (bytesOf t)) ∧
        (saveUnder trouble t p fs).2.locate p = .ok (target, some (.file (bytesOf t))) := by
  unfold saveUnder
  rw [hnul, if_neg Bool.false_ne_true]
  -- Writing either stops somewhere or goes through to the end.
  rcases fs.writeWhole_cases p (Text.Utf8.encode (dump t)) trouble with
    ⟨e, hwrite, hstopped⟩ | ⟨target, hwrite, hpermits, htarget⟩
  · rw [hwrite]
    exact .inl ⟨e, rfl, rfl, hstopped⟩
  · rw [hwrite]
    exact .inr ⟨rfl, hpermits, target, FileSystem.changedAt_of_targetLocation htarget _⟩

/-- A load reads a text and parses it. -/
theorem outcome_load (fs : FileSystem σ) (p : FilePath) (now : Timestamp) :
    (load fs p now).outcome =
      (((fs.readText p).mapError fun
        | .nulInPath => .nulInPath
        | .system e _ => .artifact (.unreadable p.text e)
        | .undecodable fault => .undecodable fault).bind fun text => parse text now) := by
  unfold load
  rw [Traced.outcome_bind]
  -- What is reported on the way does not matter for the outcome.
  congr 1
  funext text
  rw [Traced.outcome_bind]
  show (parse text now).bind _ = _
  cases parse text now <;> rfl

/-- The artifact at a path is loaded as the table it was written from. -/
theorem load_of_locate {location : Location} (hnames : ∀ name ∈ t.operations, name.IsString)
    (htime : t.calibratedAt.IsString) (hnul : p.hasNul = false)
    (h : fs.locate p = .ok (location, some (.file (bytesOf t)))) (now : Timestamp) :
    (load fs p now).outcome = .ok t := by
  have hplain : '\r' ∉ (dump t).toList := fun hmem =>
    absurd (Json.isPlain_of_mem_indented (fits_documentOf hnames htime 0) hmem) (by decide)
  have htext := FileSystem.readText_of_locate hnul hplain h
  obtain ⟨time, hstring⟩ := htime
  have hparse := parse_eq_ok_of_ofText hstring (ofText_dump hnames hstring) now
  rw [outcome_load, htext]
  exact hparse

end CalibratedCosts.Artifact
