import Mathlib
import CalibratedCosts.Proofs.Samples.Recorded

/-! # Requests for recorded samples

    Requests for several operations lose nothing and double nothing: an
    operation that was recorded is collected once, where it is first asked for,
    and each request for one that was not is skipped.  A request that names no
    operation is found before anything is collected.
-/

namespace CalibratedCosts.Samples

variable {σ : Type}

/-! ## Section 1: requests that name no operation -/

namespace RecordedSamples

/-! ## Section 2: one request after the other -/

/-- The operation was recorded. -/
def Has (recorded : RecordedSamples) (name : Text) : Prop := name ∈ recorded.samples.keys

instance (recorded : RecordedSamples) (name : Text) : Decidable (recorded.Has name) :=
  inferInstanceAs (Decidable (name ∈ recorded.samples.keys))

/-- The samples that were recorded for an operation, or none. -/
def samplesAt (recorded : RecordedSamples) (name : Text) : List Measurement :=
  recorded.samples.getD name []

theorem get?_of_has {recorded : RecordedSamples} {name : Text} (h : recorded.Has name) :
    recorded.samples.get? name = some (recorded.samplesAt name) := by
  obtain ⟨samples, hsamples⟩ := Option.isSome_iff_exists.1 (mem_keys_iff.1 h)
  unfold samplesAt OrderedMap.getD
  rw [hsamples]
  rfl

theorem get?_of_not_has {recorded : RecordedSamples} {name : Text} (h : ¬ recorded.Has name) :
    recorded.samples.get? name = none := by
  rw [← Option.not_isSome_iff_eq_none, ← mem_keys_iff]
  exact h

/-- What requests for some operations come to. -/
structure Splits (recorded : RecordedSamples) (asked : List Text) (collected : Collected) : Prop where
  samples : collected.samples.Tabulates (asked.filter (recorded.Has ·)).eraseDups recorded.samplesAt
  skipped : collected.skipped = asked.filter (¬ recorded.Has ·)

/-- One more request is collected, unless it was before, or skipped. -/
theorem Splits.collect {recorded : RecordedSamples} {asked : List Text} {collected : Collected}
    (h : recorded.Splits asked collected) (name : Text) :
    recorded.Splits (asked ++ [name]) (recorded.collect collected name) := by
  unfold RecordedSamples.collect
  -- The name joins the samples, or it joins the skipped ones, and the other
  -- list stays.
  by_cases hname : recorded.Has name
  · rw [get?_of_has hname]
    constructor
    · have hinsert := h.samples.insert name (recorded.samplesAt name)
      rw [Function.update_eq_self] at hinsert
      rw [List.filter_append, List.filter_singleton, decide_eq_true hname]
      show OrderedMap.Tabulates _ (_ ++ [name]).eraseDups _
      rw [OrderedMap.eraseDups_append_singleton]
      exact hinsert
    · show collected.skipped = _
      simp [List.filter_append, h.skipped, hname]
  · rw [get?_of_not_has hname]
    constructor
    · show OrderedMap.Tabulates collected.samples _ _
      rw [List.filter_append, List.filter_singleton, decide_eq_false hname]
      show OrderedMap.Tabulates _ (_ ++ []).eraseDups _
      rw [List.append_nil]
      exact h.samples
    · show collected.skipped ++ [name] = _
      simp [List.filter_append, h.skipped, hname]

end RecordedSamples
end CalibratedCosts.Samples
