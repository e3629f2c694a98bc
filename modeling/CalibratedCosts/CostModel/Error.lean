import CalibratedCosts.CostModel.Basic

/-! # Calibration errors

    What can go wrong between an operation's samples and its quantized model.
    Every cause has a name, under which reports list it, and a message.
-/

namespace CalibratedCosts

/-! ## Section 1: sample sets -/

/-- One of the two columns of a sample set. -/
inductive Column where
  | sizes
  | costs
  deriving DecidableEq

def Column.name : Column → String
  | .sizes => "x"
  | .costs => "y"

/-- Why a datum is not a sequence of pairs. -/
inductive ShapeFault where
  | notIterable (kind : String)
  | pairNotIterable (kind : String)
  | pairTooShort (elements : Nat)
  | pairTooLong (elements : Nat)
  deriving DecidableEq

def ShapeFault.message : ShapeFault → String
  | .notIterable kind => s!"'{kind}' object is not iterable"
  | .pairNotIterable kind =>
    s!"costmodel.types.Sample() argument after * must be an iterable, not {kind}"
  | .pairTooShort 0 =>
    "Sample.__new__() missing 2 required positional arguments: 'size' and 'cost'"
  | .pairTooShort _ => "Sample.__new__() missing 1 required positional argument: 'cost'"
  | .pairTooLong elements =>
    s!"Sample.__new__() takes 3 positional arguments but {elements + 1} were given"

/-- Why data is no sample set. -/
inductive SampleFault where
  | lengthMismatch (sizes costs : Nat)
  | empty
  | notAnInteger (column : Column) (index : Nat) (shown : String)
  | outOfRange (column : Column) (index : Nat) (value : Int)
  | malformed (shape : ShapeFault)
  | invalidIdentifier (shown : String)
  deriving DecidableEq

def SampleFault.message : SampleFault → String
  | .lengthMismatch sizes costs => s!"Sample length mismatch: {sizes} sizes, {costs} costs"
  | .empty => "Sample set is empty"
  | .notAnInteger column index shown => s!"{column.name}[{index}]={shown} is not an integer"
  | .outOfRange column index value => s!"{column.name}[{index}]={value} outside u64 range"
  | .malformed shape => s!"Malformed sample set: {shape.message}"
  | .invalidIdentifier shown => s!"Invalid operation identifier: {shown}"

/-! ## Section 2: errors -/

/-- Why an operation has no quantized model.  `unshown` takes the place of an
    error whose message would hold a datum that is not shown. -/
inductive CostModelError (α : Type) where
  | invalidSampleSet (fault : SampleFault)
  | slopeNotPositive (slope : α) (operation : Option Text)
  | fitQualityUndefined (residual : α)
  | negativeParameter (parameter : String) (value : α)
  | parameterNotFinite (parameter : String) (value : α)
  | parameterTooLarge (parameter : String) (value : α)
  | unshown (fault : Datum.ShowFault)

namespace CostModelError

variable {α β : Type}

/-- The name under which an error is reported. -/
def name : CostModelError α → String
  | .invalidSampleSet _ => "InvalidSampleSetError"
  | .slopeNotPositive _ _ => "NonMonotoneCostFitError"
  | .fitQualityUndefined _ => "UndefinedFitQualityError"
  | .negativeParameter _ _ => "NegativeParameterError"
  | .parameterNotFinite _ _ => "QuantizationError"
  | .parameterTooLarge _ _ => "QuantizationError"
  | .unshown fault => fault.name

def message (text : α → String) : CostModelError α → String
  | .invalidSampleSet fault => fault.message
  | .slopeNotPositive slope operation =>
    let target :=
      match operation with
      | none => ""
      | some name => if name = "" then "" else s!" for {name}"
    s!"Non-positive slope {text slope} detected{target}; "
      ++ "examine the data or measure a constant model"
  | .fitQualityUndefined residual =>
    s!"Fit quality undefined: total variance is zero but residual sum is {text residual}"
  | .negativeParameter parameter value =>
    s!"Cost model parameter {parameter}={text value} is negative"
  | .parameterNotFinite parameter value =>
    s!"Cost model parameter {parameter}={text value} is not finite"
  | .parameterTooLarge parameter value =>
    s!"Cost model parameter {parameter}={text value} exceeds u64 range"
  | .unshown fault => fault.message

/-- The same error with its quantities changed. -/
def map (f : α → β) : CostModelError α → CostModelError β
  | .invalidSampleSet fault => .invalidSampleSet fault
  | .slopeNotPositive slope operation => .slopeNotPositive (f slope) operation
  | .fitQualityUndefined residual => .fitQualityUndefined (f residual)
  | .negativeParameter parameter value => .negativeParameter parameter (f value)
  | .parameterNotFinite parameter value => .parameterNotFinite parameter (f value)
  | .parameterTooLarge parameter value => .parameterTooLarge parameter (f value)
  | .unshown fault => .unshown fault

end CostModelError
end CalibratedCosts
