import CalibratedCosts.CostModel.Basic

/-! # Charging

    Evaluates a quantized model in 64-bit arithmetic that saturates: a cost
    beyond the largest 64-bit integer is that integer.
-/

namespace CalibratedCosts

/-! ## Section 1: saturating arithmetic -/

/-- The sum, or the largest 64-bit integer if that is smaller. -/
def saturatingAdd (a b : Int) : Int := min (a + b) u64Max

/-- The product, or the largest 64-bit integer if that is smaller. -/
def saturatingMul (a b : Int) : Int := min (a * b) u64Max

/-! ## Section 2: evaluation -/

/-- A size that is no 64-bit unsigned integer. -/
structure SizeFault where
  size : Int
  deriving DecidableEq

def SizeFault.message (fault : SizeFault) : String :=
  if Numeral.isWritable fault.size then s!"size={fault.size} outside u64 range"
  else Numeral.tooLongToWrite

namespace QuantizedModel

/-- The charge for an input of 64-bit size: the constant alone for an empty
    input, and the saturated affine cost otherwise. -/
def charge (m : QuantizedModel) (size : Nat) : Int :=
  if size = 0 then m.constParam
  else saturatingAdd m.constParam (saturatingMul m.linParam size)

/-- The charge for an input of the given size. -/
def evaluate (m : QuantizedModel) (size : Int) : Except SizeFault Int :=
  if 0 ≤ size ∧ size ≤ u64Max then .ok (m.charge size.toNat) else .error ⟨size⟩

end QuantizedModel
end CalibratedCosts
