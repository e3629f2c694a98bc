import CalibratedCosts.Table.Canonical

/-! # Cost meter

    Charges host operations against a cost model table before they run.

    * **Totals**: the charges so far, in all and by operation, saturate at the
      largest 64-bit integer; the number of charges does not.
    * **Budget**: with a limit set, a charge that would bring the total above
      the limit is refused and changes nothing.
    * **Tables**: the table can only be replaced as a whole; totals are kept.
-/

namespace CalibratedCosts

/-- A meter with its table, its budget and what has been charged. -/
structure CostMeter where
  table : CostModelTable
  limit : Option { n : Nat // n ≤ u64Max }
  consumed : Int
  charges : OrderedMap Text Int
  counts : OrderedMap Text Nat

/-! ## Section 1: errors -/

/-- Why a budget is none: it is no 64-bit unsigned integer, or no integer at
    all. -/
inductive LimitFault where
  | outOfRange (limit : Int)
  | notANumber (kind : String)

def LimitFault.message : LimitFault → String
  | .outOfRange limit =>
    if Numeral.isWritable limit then s!"limit={limit} outside u64 range"
    else Numeral.tooLongToWrite
  | .notANumber kind => s!"'<' not supported between instances of '{kind}' and 'int'"

/-- Why an operation is not charged. -/
inductive ChargeError where
  | refused (refusal : CostModelTable.Refusal)
  | budgetExceeded (operation : Text) (cost consumed : Int) (limit : Nat)

def ChargeError.message [Datum.CallRoom] : ChargeError → String
  | .refused refusal => refusal.message
  | .budgetExceeded operation cost consumed limit =>
    s!"Charging {cost} for {operation} exceeds budget ({consumed} of {limit} consumed)"

/-! ## Section 2: operations -/

namespace CostMeter

/-- A meter that has charged nothing yet. -/
def create (table : CostModelTable) (limit : Option Int) : Except LimitFault CostMeter :=
  match limit with
  | none => .ok ⟨table, none, 0, .empty, .empty⟩
  | some n =>
    match u64OfInt? n with
    | some limit => .ok ⟨table, some limit, 0, .empty, .empty⟩
    | none => .error (.outOfRange n)

/-- A meter whose budget is given as a datum; without one it is null. -/
def ofData (table : CostModelTable) : Datum → Except LimitFault CostMeter
  | .null => create table none
  | .whole n => create table (some n)
  | .bool b => create table (some b.toInt)
  | d => .error (.notANumber d.kind)

/-- What is left of the budget. -/
def remaining (m : CostMeter) : Option Int :=
  m.limit.map fun limit => max (limit.1 - m.consumed) 0

/-- The meter after a charge of `cost` for the named operation. -/
def record (m : CostMeter) (operation : Text) (cost : Int) : CostMeter :=
  { m with
    consumed := saturatingAdd m.consumed cost
    charges := m.charges.insert operation (saturatingAdd (m.charges.getD operation 0) cost)
    counts := m.counts.insert operation (m.counts.getD operation 0 + 1) }

/-- The budget that a total would exceed. -/
def exceeded? (m : CostMeter) (total : Int) : Option Nat :=
  match m.limit with
  | some limit => if (limit.1 : Int) < total then some limit.1 else none
  | none => none

/-- Charges one run of an operation on an input of the given size. -/
def charge (m : CostMeter) (operation : Datum) (size : Int) :
    Traced ChargeError (Int × CostMeter) := do
  let name ← Traced.ofExcept (operation.identifier.mapError fun f => .refused (.identifier f))
  let cost ← (m.table.evaluate (.text name) size).mapError .refused
  -- The total is compared after it has been saturated.
  match m.exceeded? (saturatingAdd m.consumed cost) with
  | some limit =>
    Traced.report .budgetExceeded
    Traced.fail (.budgetExceeded name cost m.consumed limit)
  | none =>
    Traced.report .operationCharged
    pure (cost, m.record name cost)

/-- Swaps the table and keeps the totals. -/
def replaceTable (m : CostMeter) (table : CostModelTable) : Traced ChargeError CostMeter := do
  Traced.report .tableReplaced
  pure { m with table }

/-- Forgets what has been charged. -/
def reset (m : CostMeter) : CostMeter :=
  { m with consumed := 0, charges := .empty, counts := .empty }

/-! ## Section 3: metrics -/

/-- What a meter shows of itself. -/
structure Metrics where
  consumed : Int
  limit : Option Nat
  remaining : Option Int
  charges : OrderedMap Text Int
  counts : OrderedMap Text Nat
  tableFingerprint : String

def metrics (m : CostMeter) : Metrics :=
  { consumed := m.consumed
    limit := m.limit.map (·.1)
    remaining := m.remaining
    charges := m.charges
    counts := m.counts
    tableFingerprint := m.table.fingerprint }

end CostMeter
end CalibratedCosts
