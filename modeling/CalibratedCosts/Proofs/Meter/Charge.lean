import Mathlib
import CalibratedCosts.Meter
import CalibratedCosts.Proofs.CostModel.Charge
import CalibratedCosts.Proofs.Outcome
import CalibratedCosts.Proofs.Table.Lookup

/-! # What a charge does

    A charge has a price if its datum names an operation of the table and its
    size is a 64-bit one.  Without a price it is refused.  With a price it is
    recorded, or refused by the budget.
-/

namespace CalibratedCosts

/-- The table prices a charge at `cost`, for the operation `name`. -/
def CostModelTable.Prices (t : CostModelTable) (operation : Datum) (size : Int) (name : Text)
    (cost : Int) : Prop :=
  operation.identifier? = some name ∧
    ∃ model, t.entries.get? name = some model ∧ model.evaluate size = .ok cost

theorem CostModelTable.Prices.nonneg {t : CostModelTable} {operation : Datum} {size : Int}
    {name : Text} {cost : Int} (h : t.Prices operation size name cost) : 0 ≤ cost := by
  obtain ⟨_, model, _, hcost⟩ := h
  rw [(QuantizedModel.evaluate_eq_ok hcost).2]
  exact model.charge_nonneg _

/-- The price of an operation is what the table evaluates it to. -/
theorem CostModelTable.prices_iff {t : CostModelTable} {operation : Datum} {size : Int}
    {name : Text} {cost : Int} :
    t.Prices operation size name cost ↔
      operation.identifier? = some name ∧ (t.evaluate operation size).outcome = .ok cost := by
  unfold Prices
  apply and_congr_right
  intro hname
  rw [t.outcome_evaluate hname]
  cases t.entries.get? name with
  | none => simp
  | some model => simp [mapError_eq_ok_iff]

/-- A price is what the table evaluates the operation to, and only operations
    of the table have one. -/
theorem CostModelTable.Prices.evaluate {t : CostModelTable} {operation : Datum} {size : Int}
    {name : Text} {cost : Int} (h : t.Prices operation size name cost) :
    (t.evaluate operation size).outcome = .ok cost ∧ t.contains operation = true := by
  obtain ⟨hname, hcost⟩ := prices_iff.1 h
  obtain ⟨_, model, hmodel, _⟩ := h
  exact ⟨hcost, t.contains_of_get? hname hmodel⟩

namespace CostMeter

/-! ## Section 1: the budget -/

theorem exceeded?_eq_none_iff (m : CostMeter) (total : Int) :
    m.exceeded? total = none ↔ ∀ limit ∈ m.limit, total ≤ limit.1 := by
  unfold exceeded?
  cases m.limit with
  | none => simp
  | some limit =>
    by_cases h : (limit.1 : Int) < total
    · simp [h]
    · simp [h, Int.not_lt.1 h]

theorem exceeded?_eq_some {m : CostMeter} {limit : { n : Nat // n ≤ u64Max }} {total : Int}
    (hlimit : m.limit = some limit) (h : limit.1 < total) :
    m.exceeded? total = some limit.1 := by
  unfold exceeded?
  rw [hlimit]
  exact if_pos h

/-! ## Section 2: the outcome of a charge -/

/-- A charge of an operation is what the table evaluates it to, as far as the
    budget goes. -/
theorem outcome_charge (m : CostMeter) {operation : Datum} {name : Text}
    (h : operation.identifier? = some name) (size : Int) :
    (m.charge operation size).outcome =
      match (m.table.evaluate operation size).outcome with
      | .error refusal => .error (.refused refusal)
      | .ok cost =>
        match m.exceeded? (saturatingAdd m.consumed cost) with
        | some limit => .error (.budgetExceeded name cost m.consumed limit)
        | none => .ok (cost, m.record name cost) := by
  -- The name that is looked up is the text of the one that was recognized.
  have hname := Datum.identifier?_text (Datum.identifier?_ne_empty h)
  have hsame : (m.table.evaluate (.text name) size).outcome =
      (m.table.evaluate operation size).outcome := by
    rw [m.table.outcome_evaluate hname, m.table.outcome_evaluate h]
  unfold charge
  rw [Datum.identifier_eq_ok h]
  simp only [Traced.outcome_bind, Traced.outcome_ofExcept, Traced.outcome_mapError, hsame,
    Except.mapError, Except.bind]
  cases (m.table.evaluate operation size).outcome with
  | error refusal => rfl
  | ok cost =>
    cases hfits : m.exceeded? (saturatingAdd m.consumed cost) with
    | some limit => simp [hfits, Except.bind]
    | none => simp [hfits, Except.bind]

theorem outcome_charge_of_no_identifier (m : CostMeter) {operation : Datum}
    (h : operation.identifier? = none) (size : Int) :
    (m.charge operation size).outcome = .error (.refused (.identifier ⟨operation⟩)) := by
  unfold charge
  rw [Datum.identifier_eq_error h, Traced.outcome_bind]
  rfl

/-- A charge with a price that fits the budget is recorded. -/
theorem charge_of_fits {m : CostMeter} {operation : Datum} {size : Int} {name : Text} {cost : Int}
    (h : m.table.Prices operation size name cost)
    (hfits : m.exceeded? (saturatingAdd m.consumed cost) = none) :
    (m.charge operation size).outcome = .ok (cost, m.record name cost) := by
  obtain ⟨hname, hcost⟩ := CostModelTable.prices_iff.1 h
  rw [outcome_charge m hname, hcost]
  simp only [hfits]

/-- A charge with a price that exceeds the budget is refused. -/
theorem charge_of_exceeds {m : CostMeter} {operation : Datum} {size : Int} {name : Text}
    {cost : Int} {limit : Nat} (h : m.table.Prices operation size name cost)
    (hexceeds : m.exceeded? (saturatingAdd m.consumed cost) = some limit) :
    (m.charge operation size).outcome =
      .error (.budgetExceeded name cost m.consumed limit) := by
  obtain ⟨hname, hcost⟩ := CostModelTable.prices_iff.1 h
  rw [outcome_charge m hname, hcost]
  simp only [hexceeds]

/-- A charge that the table does not price is refused for the reason of the
    table. -/
theorem charge_of_refused {m : CostMeter} {operation : Datum} {size : Int}
    {refusal : CostModelTable.Refusal}
    (h : (m.table.evaluate operation size).outcome = .error refusal) :
    (m.charge operation size).outcome = .error (.refused refusal) := by
  cases hname : operation.identifier? with
  | none =>
    rw [CostModelTable.outcome_evaluate_of_no_identifier m.table hname] at h
    cases h
    exact outcome_charge_of_no_identifier m hname size
  | some name => rw [outcome_charge m hname, h]

/-- Only a charge with a price that fits the budget returns. -/
theorem charge_eq_ok {m m' : CostMeter} {operation : Datum} {size cost : Int}
    (h : (m.charge operation size).outcome = .ok (cost, m')) :
    ∃ name, m.table.Prices operation size name cost ∧
      m.exceeded? (saturatingAdd m.consumed cost) = none ∧ m' = m.record name cost := by
  -- A charge is recorded only behind three refusals: no name, no price, over
  -- the limit.
  cases hname : operation.identifier? with
  | none =>
    rw [outcome_charge_of_no_identifier m hname] at h
    cases h
  | some name =>
    rw [outcome_charge m hname] at h
    cases hcost : (m.table.evaluate operation size).outcome with
    | error refusal =>
      rw [hcost] at h
      cases h
    | ok c =>
      cases hfits : m.exceeded? (saturatingAdd m.consumed c) with
      | some limit =>
        simp only [hcost, hfits] at h
        cases h
      | none =>
        simp only [hcost, hfits] at h
        cases h
        exact ⟨name, CostModelTable.prices_iff.2 ⟨hname, hcost⟩, hfits, rfl⟩

end CostMeter
end CalibratedCosts
