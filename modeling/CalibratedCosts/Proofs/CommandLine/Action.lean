import Mathlib
import CalibratedCosts.CommandLine.Program

/-! # Results of commands

    What a computation of a command comes to and the world it leaves, without
    the events.  The result of a sequence follows from those of its steps, and
    the ending of the program from the result of its command.
-/

namespace CalibratedCosts.CommandLine

/-! ## Section 1: sequences -/

namespace Action

variable {σ ε α β : Type}

/-- The outcome of a computation, and the world after it. -/
def result (x : Action σ α) (w : World σ) : Except Fault α × World σ := ((x w).1.outcome, (x w).2)

/-- A sequence fails with its first step, or goes on from what that comes to. -/
theorem result_bind_cases (x : Action σ α) (f : α → Action σ β) (w : World σ) :
    (∃ e w', x.result w = (.error e, w') ∧ (x >>= f).result w = (.error e, w')) ∨
    ∃ a w', x.result w = (.ok a, w') ∧ (x >>= f).result w = (f a).result w' := by
  show (∃ e w', x.result w = (.error e, w') ∧ (andThen x f).result w = (.error e, w')) ∨
    ∃ a w', x.result w = (.ok a, w') ∧ (andThen x f).result w = (f a).result w'
  unfold result andThen
  rcases x w with ⟨⟨e | a, events⟩, w'⟩
  · exact .inl ⟨e, w', rfl, rfl⟩
  · exact .inr ⟨a, w', rfl, rfl⟩

theorem result_bind_ok {x : Action σ α} {w w' : World σ} {a : α} (h : x.result w = (.ok a, w'))
    (f : α → Action σ β) : (x >>= f).result w = (f a).result w' := by
  rcases result_bind_cases x f w with ⟨e, w₁, hx, -⟩ | ⟨a', w₁, hx, hrun⟩
  · rw [h] at hx
    cases hx
  · rw [h] at hx
    cases hx
    exact hrun

theorem result_bind_error {x : Action σ α} {w w' : World σ} {e : Fault}
    (h : x.result w = (.error e, w')) (f : α → Action σ β) :
    (x >>= f).result w = (.error e, w') := by
  rcases result_bind_cases x f w with ⟨e', w₁, hx, hrun⟩ | ⟨a, w₁, hx, -⟩
  · rw [h] at hx
    cases hx
    exact hrun
  · rw [h] at hx
    cases hx

@[simp] theorem result_fail (e : Fault) (w : World σ) :
    (fail e : Action σ α).result w = (.error e, w) := rfl

@[simp] theorem result_ofExcept (fault : ε → Fault) (x : Except ε α) (w : World σ) :
    (ofExcept fault x).result w = (x.mapError fault, w) := rfl

@[simp] theorem result_withFiles (fault : ε → Fault)
    (f : FileSystem Store.History → Traced ε α) (w : World σ) :
    (withFiles fault f).result w = ((f w.files).outcome.mapError fault, w) := rfl

@[simp] theorem result_onMachine (fault : ε → Fault) (f : σ → Traced ε α × σ) (w : World σ) :
    (onMachine fault f).result w =
      ((f w.machine).1.outcome.mapError fault, { w with machine := (f w.machine).2 }) := rfl

/-! ## Section 2: files -/

/-- The computation keeps an invariant of the files, and what it comes to has a
    property. -/
def Ensures (I : FileSystem Store.History → Prop) (x : Action σ α) (Q : α → Prop) : Prop :=
  ∀ w, I w.files → I (x.result w).2.files ∧ ∀ a, (x.result w).1 = .ok a → Q a

section Ensures

variable {I : FileSystem Store.History → Prop} {x : Action σ α} {Q : α → Prop}

/-- A sequence keeps an invariant if its first step does, and so does the rest
    from everything that the first step can come to. -/
theorem Ensures.bind {f : α → Action σ β} {R : β → Prop} (hx : x.Ensures I Q)
    (hf : ∀ a, Q a → (f a).Ensures I R) : (x >>= f).Ensures I R := by
  intro w hw
  obtain ⟨hfiles, hresult⟩ := hx w hw
  rcases result_bind_cases x f w with ⟨e, w', hstep, hrun⟩ | ⟨a, w', hstep, hrun⟩
  · rw [hstep] at hfiles
    rw [hrun]
    exact ⟨hfiles, fun b hb => nomatch hb⟩
  · rw [hstep] at hfiles hresult
    rw [hrun]
    exact hf a (hresult a rfl) w' hfiles

end Ensures
end Action

/-! ## Section 3: endings -/

section Endings

variable {σ : Type} [Datum.CallRoom] [Numerics Binary64]

def ending (host : Host σ) (args : List String) (w : World σ) : Ending := (run host args w).1

variable {host : Host σ} {args : List String} {request : Request} {w : World σ}

theorem ending_eq (hargs : Request.ofArguments args = .ok request) :
    ending host args w = endingOf ((perform host request).result w).1 := by
  unfold ending run
  rw [hargs]
  rfl

end Endings

end CalibratedCosts.CommandLine
