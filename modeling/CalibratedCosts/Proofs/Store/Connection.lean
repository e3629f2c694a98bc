import Mathlib
import CalibratedCosts.Proofs.Outcome
import CalibratedCosts.Store.Connection

/-! # Blocks of statements

    Where no transaction is open, a block changes what is committed by all of
    its statements or by none, and leaves no transaction open unless what is
    raised in it ends the program.  A question changes nothing.
-/

namespace CalibratedCosts.Store

variable {ε : Type} {statements more : List (Statement ε)} {s s' : History} {e : ε}

/-! ## Section 1: statements -/

/-- The store after some statements, or the first failure. -/
def applyAll (statements : List (Statement ε)) (s : History) : Except ε History :=
  statements.foldlM (fun s statement => statement s) s

theorem applyAll_cons (statement : Statement ε) (statements : List (Statement ε)) (s : History) :
    applyAll (statement :: statements) s = statement s >>= applyAll statements :=
  List.foldlM_cons

theorem applyAll_append (statements more : List (Statement ε)) (s : History) :
    applyAll (statements ++ more) s = applyAll statements s >>= applyAll more :=
  List.foldlM_append

theorem runAll_of_ok (h : applyAll statements s = .ok s') : runAll statements s = (.ok (), s') := by
  induction statements generalizing s with
  | nil =>
    cases h
    rfl
  | cons statement rest ih =>
    rw [applyAll_cons] at h
    obtain ⟨s₁, hfirst, hrest⟩ := bind_eq_ok_iff.1 h
    rw [runAll, hfirst]
    exact ih hrest

theorem exists_runAll_of_error (h : applyAll statements s = .error e) :
    ∃ left, runAll statements s = (.error e, left) := by
  induction statements generalizing s with
  | nil => cases h
  | cons statement rest ih =>
    rw [applyAll_cons] at h
    rw [runAll]
    -- The state left behind is the one the failing statement started from.
    cases hfirst : statement s with
    | error e' =>
      rw [hfirst] at h
      cases h
      exact ⟨s, rfl⟩
    | ok s₁ =>
      rw [hfirst] at h
      exact ih h

/-! ## Section 2: blocks -/

namespace Connection

variable {isError : ε → Bool}

theorem block_settled_of_ok (h : applyAll statements s = .ok s') :
    (settled s).block isError statements = (.ok (), settled s') := by
  rw [block, settled, runAll_of_ok h]

/-- What a failed block has done is rolled back, if the failure is an error. -/
theorem block_settled_of_error (h : applyAll statements s = .error e) (he : isError e = true) :
    (settled s).block isError statements = (.error e, settled s) := by
  obtain ⟨left, hleft⟩ := exists_runAll_of_error h
  rw [block, settled, hleft]
  exact if_pos he

/-- It is not committed, whatever the failure is. -/
theorem exists_block_settled_of_error (isError : ε → Bool) (h : applyAll statements s = .error e) :
    ∃ c : Connection, (settled s).block isError statements = (.error e, c) ∧ c.committed = s := by
  obtain ⟨left, hleft⟩ := exists_runAll_of_error h
  rw [block, settled, hleft]
  -- A failure that is no error leaves the changes in the open transaction.
  by_cases he : isError e = true
  · exact ⟨_, if_pos he, rfl⟩
  · exact ⟨_, if_neg he, rfl⟩

/-- Between transactions a query leaves the connection as it is. -/
theorem query_settled {α : Type} (question : History → Except ε α) (s : History) :
    (settled s).query question = (question s, settled s) := by
  unfold query settled
  cases question s with
  | error e => rfl
  | ok a => rfl

end Connection
end CalibratedCosts.Store
