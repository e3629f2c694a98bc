import CalibratedCosts.CostModel.Basic
import CalibratedCosts.Store.Cell

/-! # Calibration store

    The history of calibration runs: a header for each run, the quantized
    models of the run and the operations that failed in it.

    * **Rows**: 64-bit parameters are kept as decimal text, so that they come
      back exactly.
    * **Identifiers**: each run gets an identifier above all earlier ones.
    * **Editing**: other programs may change single rows, as far as the schema
      lets them.
-/

namespace CalibratedCosts.Store

/-! ## Section 1: rows -/

/-- The header of a run.  The run that is in use has one as its `active`
    field. -/
structure RunRow where
  runId : Int
  fingerprint : TextCell
  calibratedAt : TextCell
  storedAt : TextCell
  operationCount : Cell
  active : Cell
  deriving DecidableEq

/-- The header is the one in use. -/
def RunRow.isActive (r : RunRow) : Bool := r.active = .integer 1

/-- The quantized model of an operation in a run, and how well it fitted. -/
structure ModelRow where
  runId : Int
  operation : TextCell
  constParam : TextCell
  linParam : TextCell
  rSquared : Option Cell
  deriving DecidableEq

/-- An operation that failed in a run. -/
structure FailureRow where
  runId : Int
  operation : TextCell
  errorType : TextCell
  message : TextCell
  deriving DecidableEq

/-- All rows, and the identifier that was given out last. -/
structure History where
  runs : List RunRow
  models : List ModelRow
  failures : List FailureRow
  lastRun : Int
  deriving DecidableEq

/-- A store without runs. -/
def History.empty : History := ⟨[], [], [], 0⟩

instance : Inhabited History := ⟨.empty⟩

/-- The largest identifier that has been given out or is in use.  There is
    none below 1 that is given out. -/
def History.highestRun (s : History) : Int := (s.runs.map (·.runId)).foldl max (max 0 s.lastRun)

/-- The model of an operation in a run is there. -/
def History.hasModel (s : History) (runId : Int) (operation : TextCell) : Bool :=
  s.models.any fun r => r.runId = runId && r.operation = operation

/-! ## Section 2: editing rows -/

/-- Why a single row is not changed. -/
inductive EditFault where
  | noColumn (name : String)
  | binding (fault : BindFault)
  | null (table column : String)
  | duplicateModel

def EditFault.message : EditFault → String
  | .noColumn name => s!"no such column: {name}"
  | .binding fault => fault.message
  | .null table column => s!"NOT NULL constraint failed: {table}.{column}"
  | .duplicateModel => "UNIQUE constraint failed: cost_models.run_id, cost_models.operation"

/-- A column of the headers. -/
inductive RunColumn where
  | fingerprint
  | calibratedAt
  | storedAt
  | operationCount
  | active
  deriving DecidableEq

def RunColumn.name : RunColumn → String
  | .fingerprint => "fingerprint"
  | .calibratedAt => "calibrated_at"
  | .storedAt => "stored_at"
  | .operationCount => "operation_count"
  | .active => "active"

def RunColumn.all : List RunColumn :=
  [.fingerprint, .calibratedAt, .storedAt, .operationCount, .active]

/-- The header with a cell in a column. -/
def RunRow.set (r : RunRow) (cell : Cell) : RunColumn → RunRow
  | .fingerprint => { r with fingerprint := cell.preferText }
  | .calibratedAt => { r with calibratedAt := cell.preferText }
  | .storedAt => { r with storedAt := cell.preferText }
  | .operationCount => { r with operationCount := cell.preferInteger }
  | .active => { r with active := cell.preferInteger }

/-- A column of the models. -/
inductive ModelColumn where
  | operation
  | constParam
  | linParam
  | rSquared
  deriving DecidableEq

def ModelColumn.name : ModelColumn → String
  | .operation => "operation"
  | .constParam => "const_param"
  | .linParam => "lin_param"
  | .rSquared => "r_squared"

def ModelColumn.all : List ModelColumn := [.operation, .constParam, .linParam, .rSquared]

/-- The model with a cell in a column, of which only the quality may be
    null. -/
def ModelRow.set (r : ModelRow) (cell : Option Cell) (column : ModelColumn) : ModelRow :=
  match column, cell with
  | .rSquared, cell => { r with rSquared := cell.map Cell.preferReal }
  | .operation, some cell => { r with operation := cell.preferText }
  | .constParam, some cell => { r with constParam := cell.preferText }
  | .linParam, some cell => { r with linParam := cell.preferText }
  | _, none => r

namespace History

/-- Sets a column of the header of a run.  Only a header that is there can
    refuse a null. -/
def setRun (s : History) (runId : Int) (name : String) (value : Datum) :
    Except EditFault History :=
  match RunColumn.all.find? (·.name = name) with
  | none => .error (.noColumn name)
  | some column =>
    match Cell.ofDatum value with
    | .error fault => .error (.binding fault)
    | .ok none =>
      if s.runs.any (·.runId = runId) then .error (.null "calibration_runs" column.name) else .ok s
    | .ok (some cell) =>
      .ok { s with runs := s.runs.map fun r => if r.runId = runId then r.set cell column else r }

/-- Why a column of a model refuses a cell: only the quality may be null, and
    an operation has at most one model in a run. -/
def modelEditFault? (s : History) (runId : Int) (operation : TextCell) (column : ModelColumn)
    (cell : Option Cell) : Option EditFault :=
  match column, cell with
  | .rSquared, _ => none
  | column, none => some (.null "cost_models" column.name)
  | .operation, some cell =>
    if cell.preferText ≠ operation ∧ s.hasModel runId cell.preferText then some .duplicateModel else none
  | _, _ => none

/-- Sets a column of a model of a run.  Only a model that is there can refuse
    a cell. -/
def setModel (s : History) (runId : Int) (operation : TextCell) (name : String)
    (value : Datum) : Except EditFault History :=
  match ModelColumn.all.find? (·.name = name) with
  | none => .error (.noColumn name)
  | some column =>
    match Cell.ofDatum value with
    | .error fault => .error (.binding fault)
    | .ok cell =>
      if s.hasModel runId operation then
        match s.modelEditFault? runId operation column cell with
        | some fault => .error fault
        | none =>
          .ok
            { s with
              models := s.models.map fun r =>
                if r.runId = runId && r.operation = operation then r.set cell column else r }
      else .ok s

/-- Deletes a model of a run. -/
def deleteModel (s : History) (runId : Int) (operation : TextCell) : History :=
  { s with models := s.models.filter fun r => !(r.runId = runId && r.operation = operation) }

end History
end CalibratedCosts.Store
