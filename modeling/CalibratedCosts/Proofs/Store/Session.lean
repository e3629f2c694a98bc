import Mathlib
import CalibratedCosts.Proofs.Files.System
import CalibratedCosts.Store.Database

/-! # Stores that are opened again

    A store that has been written back is the one that is opened next at its
    path, with one exception: a path that leads through the place of the store
    to a name below it, and back by `..`, is no path any more once there is a
    file at that place.
-/

namespace CalibratedCosts.Store.Session

open FileSystem (ChangedAt)

variable {fs fs' : FileSystem History} {location here l : Location} {store store' : History}
  {names : List String} {path : String}

/-! ## Section 1: the store at a location -/

/-- A store that is read is new, or it is a node of the file system. -/
theorem storeAt_cases (h : storeAt fs location = .ok store) :
    store = .empty ∨ ∃ l, fs.node? l = some (.store store) := by
  unfold storeAt at h
  split at h
  · cases h
  · exact .inl (Except.ok.inj h).symm
  · cases h
  · exact .inl (Except.ok.inj h).symm
  · exact .inl (Except.ok.inj h).symm
  · cases h
  · rename_i l s hfollow
    cases h
    exact .inr ⟨l, (FileSystem.node?_of_follow hfollow).symm⟩

/-- The locations that some names lead through, also those that `..` takes
    back. -/
def passed (here : Location) : List String → List Location
  | [] => []
  | name :: rest =>
    if name = ".." then passed here.dropLast rest
    else (here ++ [name]) :: passed (here ++ [name]) rest

/-- The location of the store that a path names. -/
def locationOf (fs : FileSystem History) (path : String) : Location := fs.lexical (.ofText path)

/-- The path does not lead through anything below the location of its own
    store. -/
def AvoidsItself (fs : FileSystem History) (path : String) : Prop :=
  ∀ l ∈ passed (fs.start (.ofText path)) (FilePath.ofText path).parts,
    locationOf fs path <+: l → l = locationOf fs path

/-- Where a path leads by its names alone is decided by where it starts. -/
theorem locationOf_congr (h : fs'.working = fs.working) (path : String) :
    locationOf fs' path = locationOf fs path := by
  unfold locationOf FileSystem.lexical FileSystem.start
  rw [h]

theorem AvoidsItself.congr (havoids : AvoidsItself fs path) (h : fs'.working = fs.working) :
    AvoidsItself fs' path := by
  unfold AvoidsItself FileSystem.start at havoids ⊢
  rw [h, locationOf_congr h]
  exact havoids

theorem openAt_eq_ok_iff (hpath : path ≠ memoryPath) {session : Session} :
    openAt fs path = .ok session ↔
      (FilePath.ofText path).hasNul = false ∧
      isPassable fs (fs.start (.ofText path)) (FilePath.ofText path).parts = true ∧
      hasRoom (locationOf fs path) = true ∧
      ∃ store, storeAt fs (locationOf fs path) = .ok store ∧
        ⟨store, some (locationOf fs path)⟩ = session := by
  unfold openAt locationOf
  rw [if_neg hpath]
  cases hnul : (FilePath.ofText path).hasNul with
  -- A path with a null character opens nothing.
  | true => simp [hnul]
  | false =>
    simp only [hnul, if_neg Bool.false_ne_true, true_and]
    by_cases hopen : isPassable fs (fs.start (.ofText path)) (FilePath.ofText path).parts &&
        hasRoom (fs.lexical (.ofText path))
    · rw [if_pos hopen, map_eq_ok_iff]
      rw [Bool.and_eq_true] at hopen
      simp only [hopen, true_and]
    · rw [if_neg hopen]
      rw [Bool.and_eq_true] at hopen
      simp only [reduceCtorEq, false_iff]
      exact fun ⟨hpassable, hroom, _⟩ => hopen ⟨hpassable, hroom⟩

end CalibratedCosts.Store.Session
