import CalibratedCosts.Datum
import CalibratedCosts.Event
import CalibratedCosts.Numeral.Quantity

/-! # Cost models

    A cost model takes the cost of an operation to be an affine function of
    the size of its input: `constParam + linParam * size`.

    * `CostModel`: the fitted form, over either reading of the real numbers;
    * `QuantizedModel`: the integer form that the runtime charges by.  Both
      parameters fit in 64 bits.
-/

namespace CalibratedCosts

/-- The largest 64-bit unsigned integer. -/
def u64Max : Nat := 0xffffffffffffffff

/-- The integer, if it is a 64-bit unsigned one. -/
def u64OfInt? (n : Int) : Option { n : Nat // n ≤ u64Max } :=
  if h : 0 ≤ n ∧ n.toNat ≤ u64Max then some ⟨n.toNat, h.2⟩ else none

@[simp] theorem u64OfInt?_natCast (n : { n : Nat // n ≤ u64Max }) :
    u64OfInt? (n.1 : Int) = some n := by
  unfold u64OfInt?
  rw [dif_pos ⟨Int.natCast_nonneg _, n.2⟩]
  rfl

/-! ## Section 1: fitted models -/

/-- A fitted cost model.  `rSquared` says how well it fits; it is zero for a
    constant model, which has no variance to explain. -/
structure CostModel (α : Type) where
  constParam : α
  linParam : α
  rSquared : α

namespace CostModel

variable {α : Type} [Quantity α]

/-- A model whose cost does not depend on the size. -/
def isConstant (m : CostModel α) : Bool := Quantity.same m.linParam 0

/-- The predicted cost.  A size that is zero or not finite adds nothing. -/
def evaluate (m : CostModel α) (size : α) : α :=
  if (Quantity.value size).isFinite && !Quantity.same size 0 then
    m.constParam + m.linParam * size
  else m.constParam

end CostModel

/-! ## Section 2: quantized models -/

/-- An integer cost model.  Both parameters are 64-bit unsigned integers. -/
structure QuantizedModel where
  constParam : Nat
  linParam : Nat
  const_le : constParam ≤ u64Max
  lin_le : linParam ≤ u64Max
  deriving DecidableEq

/-- Why a value is no parameter of a quantized model. -/
inductive ParameterFault where
  | notAnInteger (parameter kind : String)
  | outOfRange (parameter : String) (value : Int)

def ParameterFault.message : ParameterFault → String
  | .notAnInteger parameter kind => s!"{parameter} must be an int, got {kind}"
  | .outOfRange parameter value =>
    if Numeral.isWritable value then s!"{parameter}={value} outside u64 range"
    else Numeral.tooLongToWrite

/-- The value of a parameter that is an integer of 64 bits. -/
def checkParameter (parameter : String) (d : Datum) :
    Except ParameterFault { n : Nat // n ≤ u64Max } :=
  match d with
  | .whole n =>
    match u64OfInt? n with
    | some value => .ok value
    | none => .error (.outOfRange parameter n)
  | d => .error (.notAnInteger parameter d.kind)

namespace QuantizedModel

/-- The model with the given parameters. -/
def ofParameters (const lin : { n : Nat // n ≤ u64Max }) : QuantizedModel :=
  ⟨const.1, lin.1, const.2, lin.2⟩

/-- A model from its parameters, which are checked in order. -/
def ofData (const lin : Datum) : Except ParameterFault QuantizedModel := do
  let c ← checkParameter "const_param" const
  let l ← checkParameter "lin_param" lin
  .ok (ofParameters c l)

/-- A model from integers. -/
def ofInts (const lin : Int) : Except ParameterFault QuantizedModel :=
  ofData (.whole const) (.whole lin)

end QuantizedModel
end CalibratedCosts
