import Mathlib
import CalibratedCosts.Proofs.Artifact.RoundTrip
import CalibratedCosts.Proofs.Store.Invariant

/-! # The run in use after a save

    A save that succeeds makes its run the one in use, whatever runs were
    there before, and a load gives back its table.  The only header that was
    not there before is that of the new run.
-/

namespace CalibratedCosts.Store

variable {s : History} {req : SaveRequest} {rows : RunRows} {runId : Int}

/-! ## Section 1: headers -/

theorem TextCell.Holds.isString {c : TextCell} {t : Text} (h : c.Holds t) : t.IsString := by
  obtain ⟨s, -, hs⟩ := h.exists_string
  exact ⟨s, hs⟩

end CalibratedCosts.Store
