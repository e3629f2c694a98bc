import CalibratedCosts.CostModel.Error

/-! # Quantizing

    Turns fitted parameters into the integers that the runtime charges by.
    Each parameter is rounded to one decimal digit, which filters the noise
    of the fit, and then up to an integer, so that the runtime never charges
    less than the rounded model predicts.
-/

namespace CalibratedCosts

variable {α : Type} [Quantity α]

/-- The integer of a parameter: its tenths rounded up. -/
def quantizeParameter (parameter : String) (x : α) :
    Except (CostModelError α) { n : Nat // n ≤ u64Max } :=
  if !(Quantity.value x).isFinite then .error (.parameterNotFinite parameter x)
  else if Quantity.less x 0 then .error (.negativeParameter parameter x)
  else
    let n := (Quantity.ceiling (Quantity.roundToTenth x)).toNat
    if h : n ≤ u64Max then .ok ⟨n, h⟩ else .error (.parameterTooLarge parameter x)

/-- The integer form of a fitted model. -/
def CostModel.quantize (m : CostModel α) : Traced (CostModelError α) QuantizedModel := do
  let const ← Traced.ofExcept (quantizeParameter "const_param" m.constParam)
  let lin ← Traced.ofExcept (quantizeParameter "lin_param" m.linParam)
  Traced.report .modelQuantized
  pure (.ofParameters const lin)

/-- Why a number of either kind has no quantized form. -/
inductive NumberFault where
  | beyondDouble
  | invalid (error : CostModelError Number)

def NumberFault.message : NumberFault → String
  | .beyondDouble => "int too large to convert to float"
  | .invalid error => error.message Number.text

/-- The integer of a parameter that is a number of either kind.  It is
    rounded in double precision; messages show it as it is. -/
def quantizeNumber (parameter : String) (x : Number) : Except NumberFault Nat :=
  match x.toDouble? with
  | none => .error .beyondDouble
  | some d =>
    match quantizeParameter parameter d with
    | .ok n => .ok n.1
    | .error e => .error (.invalid (e.map fun _ => x))

end CalibratedCosts
