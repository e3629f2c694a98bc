import Mathlib
import CalibratedCosts.Proofs.Meter.Charge
import CalibratedCosts.Proofs.OrderedMap

/-! # What a meter shows of its history

    A meter is used by calls, which return or are refused.  The ledger of a
    run lists the charges that returned since the last reset, with exact
    costs.  The main result is that the state of the meter is a function of
    the ledger, of the limit it was made with and of the table put in last.

    * **Saturation**: totals are those of the ledger, clamped once.
    * **Order**: operations stand in the order of their first charge.
-/

namespace CalibratedCosts.CostMeter

/-! ## Section 1: calls -/

/-- A call on a meter. -/
inductive Call where
  | charge (operation : Datum) (size : Int)
  | replaceTable (table : CostModelTable)
  | reset
  | getMetrics

/-- What a call comes back with. -/
inductive Answer where
  | cost (cost : Int)
  | refused (error : ChargeError)
  | done
  | metrics (metrics : Metrics)

/-- The answer to a call and the meter after it.  A call that is refused
    leaves the meter as it was. -/
def call (m : CostMeter) : Call → Answer × CostMeter
  | .charge operation size =>
    match (m.charge operation size).outcome with
    | .ok (cost, charged) => (.cost cost, charged)
    | .error e => (.refused e, m)
  | .replaceTable table =>
    match (m.replaceTable table).outcome with
    | .ok replaced => (.done, replaced)
    | .error e => (.refused e, m)
  | .reset => (.done, m.reset)
  | .getMetrics => (.metrics m.metrics, m)

def after (m : CostMeter) (calls : List Call) : CostMeter :=
  calls.foldl (fun m c => (m.call c).2) m

def answers : CostMeter → List Call → List Answer
  | _, [] => []
  | m, c :: rest => (m.call c).1 :: (m.call c).2.answers rest

/-- The table that was put in last, or the first one if there was none. -/
def installed (table : CostModelTable) (calls : List Call) : CostModelTable :=
  calls.foldl (fun t c => match c with | .replaceTable t' => t' | _ => t) table

theorem after_append_singleton (m : CostMeter) (calls : List Call) (c : Call) :
    m.after (calls ++ [c]) = ((m.after calls).call c).2 := by
  unfold after
  rw [List.foldl_append]
  rfl

theorem length_answers (m : CostMeter) (calls : List Call) :
    (m.answers calls).length = calls.length := by
  induction calls generalizing m with
  | nil => rfl
  | cons c rest ih => rw [answers, List.length_cons, List.length_cons, ih]

theorem answers_append_singleton (m : CostMeter) (calls : List Call) (c : Call) :
    m.answers (calls ++ [c]) = m.answers calls ++ [((m.after calls).call c).1] := by
  induction calls generalizing m with
  | nil => rfl
  | cons c' rest ih =>
    rw [List.cons_append, answers, answers, ih, List.cons_append]
    rfl

theorem installed_append_singleton (table : CostModelTable) (calls : List Call) (c : Call) :
    installed table (calls ++ [c]) = installed (installed table calls) [c] := by
  unfold installed
  rw [List.foldl_append]

/-! ## Section 2: ledgers -/

/-- A charge that returned. -/
structure Entry where
  operation : Text
  cost : Int

/-- Charges that returned, in order. -/
abbrev Ledger := List Entry

namespace Ledger

/-- The exact sum of the costs. -/
def total (l : Ledger) : Int := (l.map Entry.cost).sum

/-- The exact sum of the costs of an operation. -/
def totalOf (l : Ledger) (operation : Text) : Int :=
  ((l.filter fun e => e.operation = operation).map Entry.cost).sum

/-- The sum of the costs of an operation, clamped to 64 bits. -/
def clampedTotalOf (l : Ledger) (operation : Text) : Int := min (l.totalOf operation) u64Max

/-- The number of charges of an operation. -/
def countOf (l : Ledger) (operation : Text) : Nat :=
  (l.filter fun e => e.operation = operation).length

/-- The operations that were charged, in the order of their first charge. -/
def operations (l : Ledger) : List Text := (l.map Entry.operation).eraseDups

/-- The ledger after a call and its answer.  Only a charge that returns is
    entered, and a reset starts anew. -/
def enter (l : Ledger) : Call × Answer → Ledger
  | (.charge operation _, .cost cost) =>
    match operation.identifier? with
    | some name => l ++ [⟨name, cost⟩]
    | none => l
  | (.reset, _) => []
  | _ => l

theorem mem_operations_iff (l : Ledger) (operation : Text) :
    operation ∈ l.operations ↔ 0 < l.countOf operation := by
  unfold operations countOf
  rw [List.mem_eraseDups, List.mem_map, List.length_pos_iff_exists_mem]
  constructor
  · rintro ⟨e, he, rfl⟩
    exact ⟨e, List.mem_filter.2 ⟨he, by simp⟩⟩
  · rintro ⟨e, he⟩
    obtain ⟨hmem, heq⟩ := List.mem_filter.1 he
    exact ⟨e, hmem, by simpa using heq⟩

theorem countOf_of_not_mem {l : Ledger} {operation : Text} (h : operation ∉ l.operations) :
    l.countOf operation = 0 := by
  have hpos := mt (mem_operations_iff l operation).2 h
  omega

theorem clampedTotalOf_of_not_mem {l : Ledger} {operation : Text} (h : operation ∉ l.operations) :
    l.clampedTotalOf operation = 0 := by
  have hnone : (l.filter fun e => e.operation = operation) = [] :=
    List.eq_nil_of_length_eq_zero (countOf_of_not_mem h)
  unfold clampedTotalOf totalOf
  rw [hnone]
  rfl

/-! ### One more charge -/

theorem total_append (l : Ledger) (e : Entry) : total (l ++ [e]) = l.total + e.cost := by
  simp [total]

theorem operations_append (l : Ledger) (e : Entry) :
    operations (l ++ [e]) =
      if e.operation ∈ l.operations then l.operations else l.operations ++ [e.operation] := by
  unfold operations
  rw [List.map_append]
  exact OrderedMap.eraseDups_append_singleton (l.map Entry.operation) e.operation

theorem countOf_append (l : Ledger) (e : Entry) :
    countOf (l ++ [e]) = Function.update l.countOf e.operation (l.countOf e.operation + 1) := by
  funext operation
  unfold countOf
  by_cases h : operation = e.operation
  · subst h
    simp
  · rw [Function.update_of_ne h]
    simp [Ne.symm h]

theorem clampedTotalOf_append (l : Ledger) (e : Entry) (hcost : 0 ≤ e.cost) :
    clampedTotalOf (l ++ [e]) =
      Function.update l.clampedTotalOf e.operation
        (saturatingAdd (l.clampedTotalOf e.operation) e.cost) := by
  -- Clamping after every entry or once at the end gives one total, as no cost
  -- is negative.
  funext operation
  by_cases h : operation = e.operation
  · subst h
    rw [Function.update_self]
    unfold clampedTotalOf
    rw [saturatingAdd_clamp_left _ hcost]
    simp [totalOf]
  · rw [Function.update_of_ne h]
    simp [clampedTotalOf, totalOf, Ne.symm h]

end Ledger

/-- The charges that returned since the start or the last reset. -/
def ledger (m : CostMeter) (calls : List Call) : Ledger :=
  (calls.zip (m.answers calls)).foldl Ledger.enter []

theorem ledger_append_singleton (m : CostMeter) (calls : List Call) (c : Call) :
    m.ledger (calls ++ [c]) = (m.ledger calls).enter (c, ((m.after calls).call c).1) := by
  unfold ledger
  rw [answers_append_singleton, List.zip_append (length_answers m calls).symm, List.foldl_append]
  rfl

/-! ## Section 3: the invariant -/

/-- The meter shows what a ledger adds up to. -/
structure Shows (m : CostMeter) (l : Ledger) : Prop where
  nonneg : ∀ e ∈ l, 0 ≤ e.cost
  consumed_eq : m.consumed = min l.total u64Max
  charges_eq : m.charges.Tabulates l.operations l.clampedTotalOf
  counts_eq : m.counts.Tabulates l.operations l.countOf
  within : ∀ limit ∈ m.limit, m.consumed ≤ limit.1

/-- A meter that has charged nothing shows the empty ledger. -/
theorem shows_nil {m : CostMeter} (hconsumed : m.consumed = 0) (hcharges : m.charges = .empty)
    (hcounts : m.counts = .empty) : m.Shows [] where
  nonneg := by simp
  consumed_eq := by
    rw [hconsumed]
    rfl
  charges_eq := by
    rw [hcharges]
    exact OrderedMap.tabulates_empty _
  counts_eq := by
    rw [hcounts]
    exact OrderedMap.tabulates_empty _
  within := by
    intro limit _
    rw [hconsumed]
    exact Int.natCast_nonneg _

/-- Recording a charge that fits the budget enters it in the ledger. -/
theorem Shows.record {m : CostMeter} {l : Ledger} (h : m.Shows l) {name : Text} {cost : Int}
    (hcost : 0 ≤ cost) (hfits : m.exceeded? (saturatingAdd m.consumed cost) = none) :
    (m.record name cost).Shows (l ++ [⟨name, cost⟩]) where
  nonneg := by
    intro e he
    rcases List.mem_append.1 he with he | he
    · exact h.nonneg e he
    · rw [List.mem_singleton.1 he]
      exact hcost
  consumed_eq := by
    -- The total may have been clamped before: clamping again makes no difference.
    show saturatingAdd m.consumed cost = _
    rw [h.consumed_eq, Ledger.total_append]
    exact saturatingAdd_clamp_left _ hcost
  charges_eq := by
    -- An operation that is not in the map yet counts as charged with nothing.
    have hold := h.charges_eq.getD_eq (k := name) Ledger.clampedTotalOf_of_not_mem
    rw [Ledger.operations_append, Ledger.clampedTotalOf_append _ _ hcost, ← hold]
    exact h.charges_eq.insert name _
  counts_eq := by
    have hold := h.counts_eq.getD_eq (k := name) Ledger.countOf_of_not_mem
    rw [Ledger.operations_append, Ledger.countOf_append, ← hold]
    exact h.counts_eq.insert name _
  within := (m.exceeded?_eq_none_iff _).1 hfits

/-! ## Section 4: runs -/

/-- The answers are those of the single calls, each on the meter that the
    calls before it have left. -/
theorem getElem?_answers (m : CostMeter) (calls : List Call) (i : Nat) :
    (m.answers calls)[i]? = calls[i]?.map fun c => ((m.after (calls.take i)).call c).1 := by
  induction calls generalizing m i with
  | nil => rfl
  | cons c rest ih =>
    cases i with
    | zero => rfl
    | succ i =>
      rw [answers, List.getElem?_cons_succ, List.getElem?_cons_succ, ih]
      rfl

/-- What a charge can do: it is refused and changes nothing, or it has a price
    that fits the budget and is recorded. -/
theorem call_charge_cases (m : CostMeter) (operation : Datum) (size : Int) :
    (∃ e, m.call (.charge operation size) = (.refused e, m)) ∨
    (∃ name cost, m.table.Prices operation size name cost ∧
      m.exceeded? (saturatingAdd m.consumed cost) = none ∧
      m.call (.charge operation size) = (.cost cost, m.record name cost)) := by
  cases hcharge : (m.charge operation size).outcome with
  | error e =>
    left
    refine ⟨e, ?_⟩
    simp only [call, hcharge]
  | ok result =>
    right
    obtain ⟨cost, charged⟩ := result
    obtain ⟨name, hprice, hfits, rfl⟩ := charge_eq_ok hcharge
    refine ⟨name, cost, hprice, hfits, ?_⟩
    simp only [call, hcharge]

/-- A charge that returns has a price in the table of the meter. -/
theorem prices_of_answer {m : CostMeter} {operation : Datum} {size cost : Int}
    (h : (m.call (.charge operation size)).1 = .cost cost) :
    ∃ name, m.table.Prices operation size name cost := by
  rcases call_charge_cases m operation size with ⟨e, hcall⟩ | ⟨name, c, hprice, _, hcall⟩
  · rw [hcall] at h
    cases h
  · rw [hcall] at h
    cases h
    exact ⟨name, hprice⟩

/-- Every call keeps the meter in step with the ledger. -/
theorem Shows.call {m : CostMeter} {l : Ledger} (h : m.Shows l) (c : Call) :
    (m.call c).2.Shows (l.enter (c, (m.call c).1)) := by
  cases c with
  | charge operation size =>
    rcases call_charge_cases m operation size with ⟨e, hcall⟩ | ⟨name, cost, hprice, hfits, hcall⟩
    -- A refused charge is not entered and leaves the meter alone.
    · rw [hcall]
      exact h
    · have henter : l.enter (.charge operation size, .cost cost) = l ++ [⟨name, cost⟩] := by
        simp only [Ledger.enter, hprice.1]
      rw [hcall, henter]
      exact h.record hprice.nonneg hfits
  | replaceTable table =>
    exact ⟨h.nonneg, h.consumed_eq, h.charges_eq, h.counts_eq, h.within⟩
  | reset => exact shows_nil rfl rfl rfl
  | getMetrics => exact h

/-- Only putting in a table changes the table. -/
theorem table_call (m : CostMeter) (c : Call) : (m.call c).2.table = installed m.table [c] := by
  cases c with
  | charge operation size =>
    rcases call_charge_cases m operation size with ⟨e, hcall⟩ | ⟨name, cost, _, _, hcall⟩
    · rw [hcall]
      rfl
    · rw [hcall]
      rfl
  | replaceTable table => rfl
  | reset => rfl
  | getMetrics => rfl

/-- No call changes the limit. -/
theorem limit_call (m : CostMeter) (c : Call) : (m.call c).2.limit = m.limit := by
  cases c with
  | charge operation size =>
    rcases call_charge_cases m operation size with ⟨e, hcall⟩ | ⟨name, cost, _, _, hcall⟩
    · rw [hcall]
    · rw [hcall]
      rfl
  | replaceTable table => rfl
  | reset => rfl
  | getMetrics => rfl

theorem Shows.after {m : CostMeter} (h : m.Shows []) (calls : List Call) :
    (m.after calls).Shows (m.ledger calls) := by
  -- On the last call, since the ledger of a run is entered at its end.
  induction calls using List.reverseRecOn with
  | nil => exact h
  | append_singleton calls c ih =>
    rw [after_append_singleton, ledger_append_singleton]
    exact ih.call c

theorem table_after (m : CostMeter) (calls : List Call) :
    (m.after calls).table = installed m.table calls := by
  induction calls using List.reverseRecOn with
  | nil => rfl
  | append_singleton calls c ih =>
    rw [after_append_singleton, installed_append_singleton, table_call, ih]

theorem limit_after (m : CostMeter) (calls : List Call) : (m.after calls).limit = m.limit := by
  induction calls using List.reverseRecOn with
  | nil => rfl
  | append_singleton calls c ih => rw [after_append_singleton, limit_call, ih]

/-- A meter is made with every limit of 64 bits, and with none.  It starts
    with the empty ledger. -/
theorem create_eq_ok (table : CostModelTable) (limit : Option { n : Nat // n ≤ u64Max }) :
    create table (limit.map fun n => (n.1 : Int)) = .ok ⟨table, limit, 0, .empty, .empty⟩ := by
  cases limit with
  | none => rfl
  | some n => simp [create]

/-- What is left is the limit without what has been consumed. -/
theorem Shows.remaining_eq {m : CostMeter} {l : Ledger} (h : m.Shows l) :
    m.remaining = m.limit.map fun n => (n.1 : Int) - m.consumed := by
  unfold remaining
  cases hlimit : m.limit with
  | none => rfl
  | some n =>
    -- The difference is not negative, so that it is not cut off at zero.
    have hle : m.consumed ≤ n.1 := h.within n hlimit
    have hmax : max ((n.1 : Int) - m.consumed) 0 = n.1 - m.consumed := max_eq_left (by omega)
    simp only [Option.map_some, hmax]

/-- The state of a meter is a function of its history. -/
theorem after_eq_history (table : CostModelTable) (limit : Option { n : Nat // n ≤ u64Max }) :
    ∃ m₀, create table (limit.map fun n => (n.1 : Int)) = .ok m₀ ∧ ∀ calls,
      let m := m₀.after calls
      let l := m₀.ledger calls
      m.consumed = min l.total u64Max ∧
      m.charges.entries = l.operations.map (fun op => (op, min (l.totalOf op) u64Max)) ∧
      m.counts.entries = l.operations.map (fun op => (op, l.countOf op)) ∧
      (∀ op, op ∈ l.operations ↔ 0 < l.countOf op) ∧
      m.limit = limit ∧
      (∀ n ∈ limit, m.consumed ≤ n.1) ∧
      m.remaining = limit.map (fun n => (n.1 : Int) - m.consumed) ∧
      m.table = installed table calls ∧
      ∀ i operation size cost, calls[i]? = some (.charge operation size) →
        (m₀.answers calls)[i]? = some (.cost cost) →
          ((installed table (calls.take i)).evaluate operation size).outcome = .ok cost ∧
            (installed table (calls.take i)).contains operation = true := by
  refine ⟨_, create_eq_ok table limit, fun calls => ?_⟩
  intro m l
  have hshows : m.Shows l := Shows.after (shows_nil rfl rfl rfl) calls
  have hlimit : m.limit = limit := limit_after _ calls
  have hwithin := hshows.within
  have hremaining := hshows.remaining_eq
  rw [hlimit] at hwithin hremaining
  refine ⟨hshows.consumed_eq, hshows.charges_eq, hshows.counts_eq, l.mem_operations_iff, hlimit,
    hwithin, hremaining, table_after _ calls, ?_⟩
  -- A cost that was returned is the price in the table of that moment.
  intro i operation size cost hcall hanswer
  rw [getElem?_answers, hcall, Option.map_some, Option.some.injEq] at hanswer
  obtain ⟨name, hprice⟩ := prices_of_answer hanswer
  rw [table_after] at hprice
  exact hprice.evaluate

end CalibratedCosts.CostMeter
