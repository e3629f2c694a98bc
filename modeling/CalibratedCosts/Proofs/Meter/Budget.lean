import Mathlib
import CalibratedCosts.Proofs.Meter.History

/-! # The budget as a bound

    A limit below the largest 64-bit integer bounds the exact sum of what has
    been charged, however long the run.  The largest limit bounds nothing:
    the total is clamped to it before the two are compared.
-/

namespace CalibratedCosts.CostMeter

/-- In every run without a reset the exact sum of the charges that returned is
    at most the limit, and a charge that would bring it above is refused by
    the budget. -/
def BoundsTotal (limit : { n : Nat // n ≤ u64Max }) : Prop :=
  ∀ table calls m₀, Call.reset ∉ calls → create table (some (limit.1 : Int)) = .ok m₀ →
    let m := m₀.after calls
    (m₀.ledger calls).total ≤ limit.1 ∧
      ∀ operation size name cost, m.table.Prices operation size name cost →
        limit.1 < (m₀.ledger calls).total + cost →
          m.call (.charge operation size) =
            (.refused (.budgetExceeded name cost m.consumed limit.1), m)

/-! ## Section 1: limits below the largest -/

/-- Where the limit is below the largest integer the consumed total has not
    been clamped. -/
theorem Shows.total_le {m : CostMeter} {l : Ledger} (h : m.Shows l)
    {limit : { n : Nat // n ≤ u64Max }} (hlimit : m.limit = some limit) (hlt : limit.1 < u64Max) :
    l.total ≤ limit.1 := by
  have hwithin : m.consumed ≤ limit.1 := h.within limit hlimit
  have hconsumed := h.consumed_eq
  -- A clamped total would be the largest integer, which is above the limit.
  omega

/-- Where the limit is below the largest integer a charge is refused as soon as
    the exact sum would exceed it. -/
theorem Shows.call_of_lt_total {m : CostMeter} {l : Ledger} (h : m.Shows l)
    {limit : { n : Nat // n ≤ u64Max }} (hlimit : m.limit = some limit) (hlt : limit.1 < u64Max)
    {operation : Datum} {size : Int} {name : Text} {cost : Int}
    (hprice : m.table.Prices operation size name cost) (hover : limit.1 < l.total + cost) :
    m.call (.charge operation size) =
      (.refused (.budgetExceeded name cost m.consumed limit.1), m) := by
  -- The clamped sum is above the limit too, since the largest integer is.
  have hclamped : limit.1 < saturatingAdd m.consumed cost := by
    rw [h.consumed_eq, saturatingAdd_clamp_left _ hprice.nonneg]
    omega
  have hcharge := charge_of_exceeds hprice (exceeded?_eq_some hlimit hclamped)
  simp only [CostMeter.call, hcharge]

/-! ## Section 2: the largest limit -/

/-- A table with one operation, which costs as much as a total can hold. -/
def dearTable : CostModelTable where
  entries :=
    ⟨[("HostMemAlloc", ⟨u64Max, 0, le_rfl, Nat.zero_le _⟩)], List.pairwise_singleton _ _,
      by decide⟩
  calibratedAt := "2024-01-01T00:00:00+00:00"
  dated := by decide

def dearMeter : CostMeter := ⟨dearTable, some ⟨u64Max, le_rfl⟩, 0, .empty, .empty⟩

def dearCharge : Call := .charge (.text "HostMemAlloc") 0

/-- Both charges return, though the second one doubles a total that is at its
    limit already. -/
theorem largest_limit_exceeded :
    create dearTable (some u64Max) = .ok dearMeter ∧
      dearMeter.answers [dearCharge, dearCharge] = [.cost u64Max, .cost u64Max] ∧
        u64Max < (dearMeter.ledger [dearCharge, dearCharge]).total :=
  ⟨rfl, rfl, by decide⟩

/-- The limit is a real bound exactly if it is not the largest one. -/
theorem boundsTotal_iff (limit : { n : Nat // n ≤ u64Max }) :
    BoundsTotal limit ↔ limit.1 < u64Max := by
  constructor
  · intro h
    by_contra hlt
    -- Only the largest limit is left, and two dear charges exceed it.
    have hlargest : limit = ⟨u64Max, le_rfl⟩ :=
      Subtype.ext (Nat.le_antisymm limit.2 (Nat.not_lt.1 hlt))
    subst hlargest
    have hbound := (h dearTable [dearCharge, dearCharge] dearMeter (by simp [dearCharge]) rfl).1
    exact absurd hbound (by decide)
  · intro hlt table calls m₀ _ hcreate
    have hm₀ := create_eq_ok table (some limit)
    rw [Option.map_some, hcreate] at hm₀
    cases hm₀
    have hshows := Shows.after (shows_nil rfl rfl rfl) calls
      (m := ⟨table, some limit, 0, .empty, .empty⟩)
    have hlimit := limit_after ⟨table, some limit, 0, .empty, .empty⟩ calls
    refine ⟨hshows.total_le hlimit hlt, ?_⟩
    intro operation size name cost hprice hover
    exact hshows.call_of_lt_total hlimit hlt hprice hover

end CalibratedCosts.CostMeter
