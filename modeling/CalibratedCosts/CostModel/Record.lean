import CalibratedCosts.CostModel.Basic
import CalibratedCosts.Datum.Conversion

/-! # Quantized models as records

    A quantized model as a record of its two parameters, and back.  A record
    may give a parameter as anything that denotes an integer.
-/

namespace CalibratedCosts

/-- Why a datum is no record of a quantized model. -/
inductive ModelRecordFault where
  | field (fault : FieldFault)
  | integer (fault : IntegerFault)
  | parameter (fault : ParameterFault)

def ModelRecordFault.message : ModelRecordFault → String
  | .field fault => fault.message
  | .integer fault => fault.message
  | .parameter fault => fault.message

/-- The integer in a field of a record. -/
def Datum.integerField (name : String) (d : Datum) : Except ModelRecordFault Int := do
  let value ← (d.field name).mapError .field
  value.toInteger.mapError .integer

namespace QuantizedModel

/-- The parameters by name. -/
def toFields (m : QuantizedModel) : List (String × Nat) :=
  [("const_param", m.constParam), ("lin_param", m.linParam)]

/-- The model that a record describes. -/
def ofRecord (d : Datum) : Except ModelRecordFault QuantizedModel := do
  let const ← d.integerField "const_param"
  let lin ← d.integerField "lin_param"
  (ofInts const lin).mapError .parameter

end QuantizedModel
end CalibratedCosts
