import CalibratedCosts.CostModel.Error

/-! # Sample sets

    A sample is a measured pair of input size and cost.  A sample set is what
    a fit starts from: at least one sample, sizes and costs of 64 bits, in
    the order of measurement.
-/

namespace CalibratedCosts

/-- A measured pair of input size and cost. -/
structure Sample where
  size : Nat
  cost : Nat
  size_le : size ≤ u64Max
  cost_le : cost ≤ u64Max

instance : DecidableEq Sample := fun a b =>
  decidable_of_iff (a.size = b.size ∧ a.cost = b.cost) (by cases a; cases b; simp)

/-- A sequence of samples with a first one. -/
structure SampleSet where
  first : Sample
  rest : List Sample
  deriving DecidableEq

namespace SampleSet

def toList (s : SampleSet) : List Sample := s.first :: s.rest

def sizes (s : SampleSet) : List Nat := s.toList.map (·.size)

def costs (s : SampleSet) : List Nat := s.toList.map (·.cost)

/-! ## Section 1: checking -/

variable {α : Type} [Datum.CallRoom]

/-- The value of one entry of a column. -/
def checkEntry (column : Column) (index : Nat) (d : Datum) :
    Except (CostModelError α) { n : Nat // n ≤ u64Max } :=
  match d with
  | .whole n =>
    match u64OfInt? n with
    | some value => .ok value
    | none =>
      if Numeral.isWritable n then .error (.invalidSampleSet (.outOfRange column index n))
      else .error (.unshown .tooLong)
  | d =>
    match d.shown? with
    | .ok shown => .error (.invalidSampleSet (.notAnInteger column index shown))
    | .error fault => .error (.unshown fault)

/-- The values of a column from the given index on. -/
def checkColumn (column : Column) :
    (index : Nat) → List Datum → Except (CostModelError α) (List { n : Nat // n ≤ u64Max })
  | _, [] => .ok []
  | index, d :: rest => do
    let n ← checkEntry column index d
    let ns ← checkColumn column (index + 1) rest
    .ok (n :: ns)

/-- The sample of a checked size and cost. -/
def pair : (size cost : { n : Nat // n ≤ u64Max }) → Sample
  | ⟨size, size_le⟩, ⟨cost, cost_le⟩ => ⟨size, cost, size_le, cost_le⟩

/-- The sample set with the given sizes and costs.  The lengths are checked
    first, then the sizes, then the costs. -/
def ofColumns (sizes costs : List Datum) : Except (CostModelError α) SampleSet := do
  if sizes.length ≠ costs.length then
    throw (.invalidSampleSet (.lengthMismatch sizes.length costs.length))
  let xs ← checkColumn .sizes 0 sizes
  let ys ← checkColumn .costs 0 costs
  match xs, ys with
  | x :: xs, y :: ys => .ok ⟨pair x y, List.zipWith pair xs ys⟩
  | _, _ => throw (.invalidSampleSet .empty)

/-! ## Section 2: samples of unchecked shape -/

/-- The two parts of a sample. -/
def splitPair : Datum → Except ShapeFault (Datum × Datum)
  | .sample size cost => .ok (size, cost)
  | d =>
    match d.elements? with
    | none => .error (.pairNotIterable d.kind)
    | some [size, cost] => .ok (size, cost)
    | some elements =>
      if elements.length < 2 then .error (.pairTooShort elements.length)
      else .error (.pairTooLong elements.length)

/-- The pairs of a sequence of samples. -/
def splitPairs (d : Datum) : Except ShapeFault (List (Datum × Datum)) :=
  match d.elements? with
  | none => .error (.notIterable d.kind)
  | some elements => elements.mapM splitPair

/-- The sample set of a sequence of pairs. -/
def ofPairs (d : Datum) : Except (CostModelError α) SampleSet :=
  match splitPairs d with
  | .error shape => .error (.invalidSampleSet (.malformed shape))
  | .ok pairs => ofColumns (pairs.map Prod.fst) (pairs.map Prod.snd)

end SampleSet

/-! ## Section 3: columns of unchecked shape -/

/-- Why two data are no sample set. -/
inductive ColumnsFault (α : Type) where
  | noLength (kind : String)
  | invalid (error : CostModelError α)

def ColumnsFault.message {α : Type} (text : α → String) : ColumnsFault α → String
  | .noLength kind => s!"object of type '{kind}' has no len()"
  | .invalid error => error.message text

/-- The sample set with the given sizes and costs, which may be anything that
    has a length. -/
def SampleSet.ofData {α : Type} [Datum.CallRoom] (sizes costs : Datum) :
    Except (ColumnsFault α) SampleSet :=
  match sizes.elements?, costs.elements? with
  | none, _ => .error (.noLength sizes.kind)
  | some _, none => .error (.noLength costs.kind)
  | some xs, some ys => (SampleSet.ofColumns xs ys).mapError .invalid

end CalibratedCosts
