import CalibratedCosts.CostModel.Record
import CalibratedCosts.Store.Basic

/-! # Store records

    Headers, models and failures as they travel between the store and its
    users.  A row is a record of columns and may come from anywhere, so that
    the columns other than the parameters hold whatever the row holds.
-/

namespace CalibratedCosts.Store

/-! ## Section 1: rows -/

/-- Why a row is no record. -/
inductive RowFault where
  | notARow (kind : String)
  | column (fault : FieldFault)
  | integer (fault : IntegerFault)

def RowFault.message : RowFault → String
  | .notARow kind => s!"'{kind}' object has no attribute 'get'"
  | .column fault => fault.message
  | .integer fault => fault.message

/-- A column that every row has. -/
def column (row : Datum) (name : String) : Except RowFault Datum :=
  (row.field name).mapError .column

/-- A column that a row may lack. -/
def optionalColumn (row : Datum) (name : String) (absent : Datum) : Except RowFault Datum :=
  match row with
  | .record fields => .ok ((Datum.field? name fields).getD absent)
  | d => .error (.notARow d.kind)

/-- The integer in a column. -/
def integerColumn (row : Datum) (name : String) : Except RowFault Int := do
  let value ← column row name
  value.toInteger.mapError .integer

/-! ## Section 2: headers -/

/-- The header of a run. -/
structure RunRecord where
  runId : Datum
  fingerprint : Datum
  calibratedAt : Datum
  storedAt : Datum
  operationCount : Datum
  active : Bool

namespace RunRecord

/-- The header in a row.  A row without an `active` column is active. -/
def ofRow (row : Datum) : Except RowFault RunRecord := do
  let runId ← optionalColumn row "run_id" .null
  let fingerprint ← column row "fingerprint"
  let calibratedAt ← column row "calibrated_at"
  let storedAt ← column row "stored_at"
  let operationCount ← column row "operation_count"
  let active ← optionalColumn row "active" (.whole 1)
  .ok ⟨runId, fingerprint, calibratedAt, storedAt, operationCount, active.isSet⟩

/-- The header by field names. -/
def toFields (r : RunRecord) : List (String × Datum) :=
  [("run_id", r.runId), ("fingerprint", r.fingerprint), ("calibrated_at", r.calibratedAt),
   ("stored_at", r.storedAt), ("operation_count", r.operationCount), ("active", .bool r.active)]

/-- The values that go into a new row. -/
def toColumns (r : RunRecord) : List Datum :=
  [r.fingerprint, r.calibratedAt, r.storedAt, r.operationCount,
   .whole (if r.active then 1 else 0)]

end RunRecord

/-- The row of a header as it is fetched. -/
def RunRow.fetch (r : RunRow) : Except TextFault Datum := do
  let fingerprint ← r.fingerprint.fetch "fingerprint"
  let calibratedAt ← r.calibratedAt.fetch "calibrated_at"
  let storedAt ← r.storedAt.fetch "stored_at"
  let operationCount ← r.operationCount.fetch "operation_count"
  let active ← r.active.fetch "active"
  .ok <| .object
    [("run_id", .whole r.runId), ("fingerprint", fingerprint), ("calibrated_at", calibratedAt),
     ("stored_at", storedAt), ("operation_count", operationCount), ("active", active)]

/-! ## Section 3: models -/

/-- The model of an operation in a run. -/
structure ModelRecord where
  runId : Datum
  operation : Datum
  constParam : Int
  linParam : Int
  rSquared : Datum

namespace ModelRecord

/-- The model in a row. -/
def ofRow (row : Datum) : Except RowFault ModelRecord := do
  let runId ← optionalColumn row "run_id" .null
  let operation ← column row "operation"
  let constParam ← integerColumn row "const_param"
  let linParam ← integerColumn row "lin_param"
  let rSquared ← optionalColumn row "r_squared" .null
  .ok ⟨runId, operation, constParam, linParam, rSquared⟩

def toModel (r : ModelRecord) : Except ParameterFault QuantizedModel :=
  QuantizedModel.ofInts r.constParam r.linParam

/-- The model by field names. -/
def toFields (r : ModelRecord) : List (String × Datum) :=
  [("run_id", r.runId), ("operation", r.operation), ("const_param", .whole r.constParam),
   ("lin_param", .whole r.linParam), ("r_squared", r.rSquared)]

/-- The values that go into a new row, with the parameters as text. -/
def toColumns (r : ModelRecord) : List Datum :=
  [r.runId, r.operation, .text (toString r.constParam), .text (toString r.linParam), r.rSquared]

end ModelRecord

/-- The row of a model as it is fetched. -/
def ModelRow.fetch (r : ModelRow) : Except TextFault Datum := do
  let operation ← r.operation.fetch "operation"
  let constParam ← r.constParam.fetch "const_param"
  let linParam ← r.linParam.fetch "lin_param"
  let rSquared ←
    match r.rSquared with
    | none => .ok .null
    | some cell => cell.fetch "r_squared"
  .ok <| .object
    [("run_id", .whole r.runId), ("operation", operation), ("const_param", constParam),
     ("lin_param", linParam), ("r_squared", rSquared)]

/-! ## Section 4: failures -/

/-- An operation that failed in a run. -/
structure FailureRecord where
  runId : Datum
  operation : Datum
  errorType : Datum
  message : Datum

namespace FailureRecord

/-- The failure in a row. -/
def ofRow (row : Datum) : Except RowFault FailureRecord := do
  let runId ← optionalColumn row "run_id" .null
  let operation ← column row "operation"
  let errorType ← column row "error_type"
  let message ← column row "message"
  .ok ⟨runId, operation, errorType, message⟩

/-- The failure by field names, without its run. -/
def toFields (r : FailureRecord) : List (String × Datum) :=
  [("operation", r.operation), ("error_type", r.errorType), ("message", r.message)]

/-- The values that go into a new row. -/
def toColumns (r : FailureRecord) : List Datum :=
  [r.runId, r.operation, r.errorType, r.message]

end FailureRecord

/-- The row of a failure as it is fetched. -/
def FailureRow.fetch (r : FailureRow) : Except TextFault Datum := do
  let operation ← r.operation.fetch "operation"
  let errorType ← r.errorType.fetch "error_type"
  let message ← r.message.fetch "message"
  .ok <| .object
    [("run_id", .whole r.runId), ("operation", operation), ("error_type", errorType),
     ("message", message)]

end CalibratedCosts.Store
