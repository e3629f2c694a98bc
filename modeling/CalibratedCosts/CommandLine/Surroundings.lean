import CalibratedCosts.CommandLine.Program
import CalibratedCosts.Samples.Workload
import CalibratedCosts.Store.Archive

/-! # Surroundings of a request

    What has to be known of the outside world before a request is performed,
    and what has to be done to it afterwards.

    * **Files**: the paths that the request may follow.
    * **Runs**: the benchmark runs that the request will time, in order.
    * **Changes**: the nodes that are not as they were.
-/

namespace CalibratedCosts.CommandLine

/-! ## Section 1: variables -/

/-- The variables of the environment that have a meaning. -/
def variableNames : List String :=
  ["DATABASE_URL", "COST_TABLE_PATH", "CALIBRATION_WORKERS", "CALIBRATION_REVIEW_THRESHOLD",
   "CALIBRATION_ITERATIONS", "CALIBRATION_SIZES"]

/-! ## Section 2: files -/

/-- The path of a store, unless it is kept in memory. -/
def storePath? (env : Environment) (database : String) : Option String :=
  match Store.DatabaseUrl.resolve (some database) env with
  | .ok url => if url.path = Store.memoryPath then none else some url.path
  | .error _ => none

/-- The paths that a table can come from. -/
def TableOrigin.paths (env : Environment) (origin : TableOrigin) (settings : Settings) :
    List String :=
  match nonempty origin.database with
  | some database => (storePath? env database).toList
  | none => [(nonempty origin.table).getD settings.tablePath]

/-- The paths that a request may follow. -/
def Request.paths (env : Environment) (request : Request) : List String :=
  match Settings.ofEnvironment env with
  | .error _ => []
  | .ok settings =>
    match request with
    | .fit _ _ => []
    | .calibrate order =>
      (nonempty order.samples).toList ++ [(nonempty order.output).getD settings.tablePath]
        ++ (storePath? env ((nonempty order.database).getD settings.databaseUrl)).toList
    | .display origin _ => origin.paths env settings
    | .evaluate _ _ origin => origin.paths env settings

/-- The locations that lie on the way to a path, itself included. -/
def locationsTo (working : Location) (path : String) : List Location :=
  let fs : FileSystem Store.History := .emptyAt working
  let target := fs.lexical (.ofText path)
  (List.range (target.length + 1)).map target.take

/-- The node that a file with the given bytes is. -/
def nodeOf (bytes : List UInt8) : Node Store.History :=
  match Text.Utf8.decode bytes with
  | .error _ => .file bytes
  | .ok text =>
    match Store.History.ofArchive? text with
    | some store => .store store
    | none => .file bytes

/-- The bytes of the file that a node is, if it is one. -/
def bytesOf : Node Store.History → Option (List UInt8)
  | .file bytes => some bytes
  | .store store => some (Text.Utf8.encode store.archive)
  | .directory => none

/-- The files that are not as they were, with their new bytes. -/
def changes (before after : FileSystem Store.History) : List (Location × List UInt8) :=
  after.nodes.entries.filterMap fun (location, node) =>
    let old := (before.nodes.get? location).bind bytesOf
    match bytesOf node with
    | some bytes => if old = some bytes then none else some (location, bytes)
    | none => none

/-! ## Section 3: benchmark runs -/

/-- The runs that a request will time. -/
def Request.plannedRuns (env : Environment) : Request → List (HostOperation × Nat)
  | .calibrate order =>
    match settingsFor env order, nonempty order.samples with
    | .ok settings, none =>
      Samples.plannedRuns order.operations settings.sizes settings.iterations.toNat
    | _, _ => []
  | _ => []

/-- A machine whose state is the readings of the clock that are to come. -/
def nextReading : Samples.Attempt (List Int) Int
  | [] => (.ok 0, [])
  | reading :: rest => (.ok reading, rest)

/-- A host whose clock has been read beforehand. -/
def recordedHost (environment : Environment) (now : Timestamp) : Host (List Int) where
  environment := environment
  now := now
  clock := nextReading
  work _ _ s := (.ok (), s)

end CalibratedCosts.CommandLine
