import CalibratedCosts.Calibration
import CalibratedCosts.Store.Connection
import CalibratedCosts.Store.Record

/-! # Storing and loading tables

    * **Saving** stores a table with its fits and failures as a new run, which
      becomes the active one.  It is a single block of statements.
    * **Loading** gives back the table of the active run or of a given one.
      A table is handed out only if its fingerprint is the stored one.
-/

namespace CalibratedCosts.Store

/-! ## Section 1: saving -/

/-- What is known of an operation's fit. -/
inductive Fitted where
  | model (rSquared : Option Number)
  | withoutQuality

/-- A failure to be stored. -/
structure FailureNote where
  operation : Text
  errorType : String
  message : Text

/-- What may be raised between two statements: an error, or what ends the
    program. -/
inductive Interruption where
  | error (message : String)
  | exit
  deriving DecidableEq

/-- Why a table is not stored. -/
inductive SaveError where
  | withoutQuality
  | binding (fault : BindFault)
  | duplicateModel
  | duplicateFailure
  | full
  | interrupted (cause : Interruption)
  deriving DecidableEq

namespace SaveError

def message : SaveError → String
  | .withoutQuality => "'object' object has no attribute 'r_squared'"
  | .binding fault => fault.message
  | .duplicateModel => "UNIQUE constraint failed: cost_models.run_id, cost_models.operation"
  | .duplicateFailure =>
    "UNIQUE constraint failed: calibration_failures.run_id, calibration_failures.operation"
  | .full => "database or disk is full"
  | .interrupted (.error message) => message
  | .interrupted .exit => ""

/-- Is an error, after which a block rolls back. -/
def isError (e : SaveError) : Bool := e ≠ .interrupted .exit

end SaveError

/-- The string that a column of text holds. -/
def columnString (t : Text) : Except SaveError String := (bindText t).mapError .binding

/-- The quality of an operation's fit, if there is one. -/
def qualityOf (fits : OrderedMap Text Fitted) (operation : Text) : Option Number :=
  match fits.get? operation with
  | some (.model quality) => quality
  | _ => none

/-- The quality that a column holds; an undefined one is null. -/
def columnQuality (quality : Option Number) : Except SaveError (Option Cell) :=
  let value : Datum :=
    match quality with
    | none => .null
    | some (.double x) => .double x
    | some (.whole n) => .whole n
  ((Cell.ofDatum value).mapError .binding).map (Option.map Cell.preferReal)

/-- Retires the active run. -/
def retire (s : History) : History :=
  { s with runs := s.runs.map fun r => if r.isActive then { r with active := .integer 0 } else r }

/-- Adds the header of a new active run.  Identifiers are never used again, so
    that there comes no run after the one with the largest. -/
def insertRun (t : CostModelTable) (now : Timestamp) : Statement SaveError := fun s => do
  let calibratedAt ← columnString t.calibratedAt
  if integerLimit ≤ s.highestRun then throw .full
  let runId := s.highestRun + 1
  let row : RunRow := ⟨runId, t.fingerprint, calibratedAt, now.text, .integer t.size, .integer 1⟩
  .ok { s with runs := s.runs ++ [row], lastRun := runId }

/-- There is a fit of the operation, and it has no quality. -/
def lacksQuality (fits : OrderedMap Text Fitted) (operation : Text) : Bool :=
  match fits.get? operation with
  | some .withoutQuality => true
  | _ => false

/-- Looks at the fits of some operations, of which none may be without a
    quality. -/
def lookAtFits (fits : OrderedMap Text Fitted) (operations : List Text) : Statement SaveError :=
  fun s => if operations.any (lacksQuality fits) then .error .withoutQuality else .ok s

/-- Adds the row of a model to the newest run. -/
def insertModel (fits : OrderedMap Text Fitted) (entry : Text × QuantizedModel) :
    Statement SaveError := fun s => do
  let operation ← columnString entry.1
  let rSquared ← columnQuality (qualityOf fits entry.1)
  if s.hasModel s.lastRun operation then throw .duplicateModel
  let row : ModelRow :=
    ⟨s.lastRun, operation, toString entry.2.constParam, toString entry.2.linParam, rSquared⟩
  .ok { s with models := s.models ++ [row] }

/-- Adds the row of a failure to the newest run.  An operation can fail only
    once in a run. -/
def insertFailure (note : FailureNote) : Statement SaveError := fun s => do
  let operation ← columnString note.operation
  let message ← columnString note.message
  if s.failures.any fun r => r.runId = s.lastRun && r.operation = operation then
    throw .duplicateFailure
  let row : FailureRow := ⟨s.lastRun, operation, note.errorType, message⟩
  .ok { s with failures := s.failures ++ [row] }

/-- The statements that store a run with its models and failures. -/
def saveStatements (t : CostModelTable) (fits : OrderedMap Text Fitted)
    (failures : List FailureNote) (now : Timestamp) : List (Statement SaveError) :=
  -- All fits are looked at before the first model is added.
  [fun s => .ok (retire s), insertRun t now, lookAtFits fits t.operations]
    ++ t.entries.toList.map (insertModel fits) ++ failures.map insertFailure

/-- Stores a run by a block of statements, and gives back the run's
    identifier. -/
def Connection.save (c : Connection) (statements : List (Statement SaveError)) :
    Traced SaveError Int × Connection :=
  match c.block SaveError.isError statements with
  | (.ok (), c) => (⟨.ok c.current.lastRun, [.tableStored]⟩, c)
  | (.error e, c) => (Traced.fail e, c)

/-- Stores a table as a new run, where no transaction is open and nothing
    interrupts the block. -/
def saveTable (t : CostModelTable) (fits : OrderedMap Text Fitted)
    (failures : List FailureNote) (now : Timestamp) (s : History) : Traced SaveError Int × History :=
  let (run, c) := (Connection.settled s).save (saveStatements t fits failures now)
  (run, c.committed)

/-- The fits of a calibration report. -/
def fitsOf (r : Calibration.Report Binary64) : OrderedMap Text Fitted :=
  .ofList (r.models.entries.map fun e => (e.1, .model (some (.double e.2.rSquared))))

/-- The failures of a calibration report. -/
def notesOf (r : Calibration.Report Binary64) : List FailureNote :=
  r.failures.entries.map fun e => ⟨e.1, e.2.name, e.2.message Binary64.text⟩

/-- Stores the table of a calibration report with its fits and failures. -/
def saveReport (r : Calibration.Report Binary64) (now : Timestamp) (s : History) :
    Traced SaveError Int × History :=
  saveTable r.table (fitsOf r) (notesOf r) now s

/-! ## Section 2: records -/

/-- Why a query has no answer. -/
inductive QueryFault where
  | binding (fault : BindFault)
  | text (fault : TextFault)
  | row (fault : RowFault)

def QueryFault.message : QueryFault → String
  | .binding fault => fault.message
  | .text fault => fault.message
  | .row fault => fault.message

/-- Lets an integer into a query. -/
def bind (n : Int) : Except QueryFault Int := (bindInteger n).mapError .binding

/-- The headers with the newest first. -/
def newestFirst (s : History) : List RunRow := s.runs.mergeSort fun a b => decide (b.runId ≤ a.runId)

/-- The header that is in use. -/
def activeRow? (s : History) : Option RunRow := (newestFirst s).find? RunRow.isActive

/-- The header of a run. -/
def runRow? (s : History) (runId : Int) : Option RunRow := s.runs.find? (·.runId = runId)

/-- The record of a header. -/
def recordOf (r : RunRow) : Except QueryFault RunRecord := do
  let row ← r.fetch.mapError .text
  (RunRecord.ofRow row).mapError .row

/-- The record of the run in use. -/
def getActiveRun (s : History) : Except QueryFault (Option RunRecord) :=
  match activeRow? s with
  | none => .ok none
  | some r => (recordOf r).map some

/-- The record of a run. -/
def getRun (s : History) (runId : Int) : Except QueryFault (Option RunRecord) := do
  let runId ← bind runId
  match runRow? s runId with
  | none => .ok none
  | some r => (recordOf r).map some

/-- The number of runs that are listed if no other is asked for. -/
def defaultListing : Int := 100

/-- The records of the newest runs, at most `limit` of them; a negative limit
    is none. -/
def listRuns (s : History) (limit : Int) : Except QueryFault (List RunRecord) := do
  let limit ← bind limit
  let headers := newestFirst s
  -- All rows are fetched before the first record is made.
  let rows ← (if limit < 0 then headers else headers.take limit.toNat).mapM fun r =>
    r.fetch.mapError .text
  rows.mapM fun row => (RunRecord.ofRow row).mapError .row

/-- The rows of a run's models, in the order of their operations. -/
def modelRows (s : History) (runId : Int) : List ModelRow :=
  (s.models.filter (·.runId = runId)).mergeSort fun a b => a.operation.upTo b.operation

/-- The records of a run's models. -/
def getModels (s : History) (runId : Int) : Except QueryFault (List ModelRecord) := do
  let runId ← bind runId
  let rows ← (modelRows s runId).mapM fun r => r.fetch.mapError .text
  rows.mapM fun row => (ModelRecord.ofRow row).mapError .row

/-- The records of a run's failures, in the order of their operations. -/
def getFailures (s : History) (runId : Int) : Except QueryFault (List FailureRecord) := do
  let runId ← bind runId
  let rows := (s.failures.filter (·.runId = runId)).mergeSort
    fun a b => a.operation.upTo b.operation
  let rows ← rows.mapM fun r => r.fetch.mapError .text
  rows.mapM fun row => (FailureRecord.ofRow row).mapError .row

/-! ## Section 3: loading -/

/-- Why a model of a stored run cannot be used. -/
inductive StoredModelFault where
  | row (fault : RowFault)
  | parameter (fault : ParameterFault)

def StoredModelFault.message : StoredModelFault → String
  | .row fault => fault.message
  | .parameter fault => fault.message

/-- Why a stored table is not loaded. -/
inductive LoadError where
  | query (fault : QueryFault)
  | malformed (runId : Int) (fault : StoredModelFault)
  | fingerprintMismatch (runId : Int)
  | identifier (fault : IdentifierFault)

def LoadError.message [Datum.CallRoom] : LoadError → String
  | .query fault => fault.message
  | .malformed runId fault => s!"Stored table for run {runId} is malformed: {fault.message}"
  | .fingerprintMismatch runId =>
    s!"Stored table for run {runId} does not match its fingerprint"
  | .identifier fault => fault.message

/-- A table as it is handed out.  Its time is what a column holds: text, or
    bytes that another program has put there. -/
structure StoredTable where
  entries : Entries
  calibratedAt : Datum

/-- Entries with their time.  Without one they are calibrated `now`. -/
def StoredTable.stamped (entries : Entries) (calibratedAt : Datum) (now : Timestamp) :
    StoredTable :=
  ⟨entries, if calibratedAt.isSet then calibratedAt else .text now.text⟩

/-- The form in which a table comes back from a store. -/
def StoredTable.ofTable (t : CostModelTable) : StoredTable :=
  ⟨t.entries, .text t.calibratedAt⟩

/-- The operations and models of a run.  All rows are read before the first
    model is made. -/
def storedModels (s : History) (runId : Int) : Except LoadError (List (Datum × QuantizedModel)) :=
  match getModels s runId with
  | .error (.row fault) => .error (.malformed runId (.row fault))
  | .error fault => .error (.query fault)
  | .ok records =>
    records.mapM fun r =>
      (r.toModel.mapError fun fault => .malformed runId (.parameter fault)).map fun model =>
        (r.operation, model)

/-- Entries with the model of an operation. -/
def withModel (entries : Entries) (entry : Datum × QuantizedModel) :
    Except IdentifierFault Entries :=
  match h : entry.1.identifier? with
  | none => .error ⟨entry.1⟩
  | some name => .ok (entries.insert name entry.2 (Datum.identifier?_ne_empty h))

/-- Entries under the given operations. -/
def entriesOf (models : List (Datum × QuantizedModel)) : Except IdentifierFault Entries :=
  models.foldlM withModel Entries.empty

/-- The table of a run. -/
def tableOf (s : History) (run : RunRow) (now : Timestamp) : Traced LoadError StoredTable := do
  let header ← Traced.ofExcept ((recordOf run).mapError .query)
  let models ← Traced.ofExcept (storedModels s run.runId)
  let entries ← Traced.ofExcept ((entriesOf models).mapError .identifier)
  if header.fingerprint == .text entries.fingerprint then
    Traced.report .tableLoaded
    pure (StoredTable.stamped entries header.calibratedAt now)
  else
    Traced.report .fingerprintMismatch
    Traced.fail (.fingerprintMismatch run.runId)

/-- The table of the run in use, or of a given one; nothing if there is no
    such run. -/
def loadTable (s : History) (runId : Option Int) (now : Timestamp) :
    Traced LoadError (Option StoredTable) := do
  let row ←
    match runId with
    | none => pure (activeRow? s)
    | some runId =>
      Traced.ofExcept (((bind runId).mapError LoadError.query).map (runRow? s))
  match row with
  | none => pure none
  | some run =>
    -- A table that is not the stored one is never handed out.
    let table ← tableOf s run now
    pure (some table)

end CalibratedCosts.Store
