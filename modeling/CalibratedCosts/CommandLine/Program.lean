import CalibratedCosts.Artifact.Files
import CalibratedCosts.CommandLine.Request
import CalibratedCosts.Samples.Benchmark
import CalibratedCosts.Samples.Recorded
import CalibratedCosts.Store.Database
import CalibratedCosts.Store.Repository

/-! # The program

    What each command does to the world and what it prints.

    * **Reported faults** end a command with a line of their own and status 1.
    * **Interruptions** are the faults that no command reports: they end the
      program before it has printed anything.
    * **Status**: 0 when all went well, 2 when a calibration has stored its
      results but some operations failed, and 2 also for a command line that
      is refused.
-/

namespace CalibratedCosts.CommandLine

/-! ## Section 1: the world -/

/-- What a command knows about the machine it runs on, whose states are
    `σ`. -/
structure Host (σ : Type) where
  environment : Environment
  now : Timestamp
  clock : Samples.Attempt σ Int
  work : HostOperation → Int → Samples.Attempt σ Unit

/-- What a command can change. -/
structure World (σ : Type) where
  files : FileSystem Store.History
  machine : σ

/-- Why a command does not do what it was asked to. -/
inductive Fault where
  | settings (fault : SettingsFault)
  | sizes (fault : IntegerFault)
  | ladder (fault : Samples.LadderFault)
  | samples (error : Samples.LoadError)
  | request (error : Samples.CollectError)
  | calibration (fault : Calibration.Fault)
  | writing (fault : Artifact.Fault)
  | reading (fault : Artifact.Fault)
  | url (fault : Store.UrlFault)
  | opening (error : Store.OpenError)
  | saving (error : Store.SaveError)
  | loading (error : Store.LoadError)
  | noRun
  | refusal (reason : CostModelTable.Refusal)
  | notSerializable (kind : String)
  | blankSize

namespace Fault

def message [Datum.CallRoom] : Fault → String
  | .settings fault => fault.message
  | .sizes fault => fault.message
  | .ladder fault => fault.message
  | .samples error => error.message
  | .request error => error.message
  | .calibration fault => fault.message
  | .writing fault => fault.message
  | .reading fault => fault.message
  | .url fault => fault.message
  | .opening error => error.message
  | .saving error => error.message
  | .loading error => error.message
  | .noRun => "no calibration run stored"
  | .refusal reason => reason.message
  | .notSerializable kind => s!"Object of type {kind} is not JSON serializable"
  | .blankSize => "'<' not supported between instances of 'list' and 'int'"

/-- The fault is reported by the command that meets it. -/
def isReported : Fault → Bool
  | .settings _ | .sizes _ | .request _ | .calibration _ | .notSerializable _ | .blankSize => false
  | .reading (.artifact _) => true
  | .reading _ => false
  | .saving .withoutQuality | .saving (.binding .integerTooLarge) => false
  | .saving (.interrupted _) | .loading (.query (.binding _)) => false
  | .samples (.unusableKey _) | .samples (.tooDeep _) => false
  | .ladder (.incomparable _ _) => false
  | .ladder _ | .samples _ | .writing _ | .url _ | .opening _ | .saving _ | .loading _ | .noRun
  | .refusal _ => true

end Fault

/-- A computation of a command: it may fail, it reports events, and it changes
    the world. -/
def Action (σ α : Type) : Type := World σ → Traced Fault α × World σ

namespace Action

variable {σ ε α β : Type}

/-- One computation after the other. -/
def andThen (x : Action σ α) (f : α → Action σ β) : Action σ β := fun w =>
  match x w with
  | (⟨.error e, events⟩, w) => (⟨.error e, events⟩, w)
  | (⟨.ok a, events⟩, w) =>
    let (run, w) := f a w
    (⟨run.outcome, events ++ run.events⟩, w)

instance : Monad (Action σ) where
  pure a := fun w => (pure a, w)
  bind := andThen

/-- A computation that leaves the world as it is. -/
def ofTraced (fault : ε → Fault) (x : Traced ε α) : Action σ α := fun w => (x.mapError fault, w)

def ofExcept (fault : ε → Fault) (x : Except ε α) : Action σ α := ofTraced fault (.ofExcept x)

def fail (fault : Fault) : Action σ α := fun w => (Traced.fail fault, w)

/-- A computation that looks at the files. -/
def withFiles (fault : ε → Fault) (f : FileSystem Store.History → Traced ε α) : Action σ α :=
  fun w => ((f w.files).mapError fault, w)

/-- A computation that changes the files. -/
def onFiles (fault : ε → Fault)
    (f : FileSystem Store.History → Traced ε α × FileSystem Store.History) : Action σ α := fun w =>
  let (run, files) := f w.files
  (run.mapError fault, { w with files })

/-- A computation that changes the machine. -/
def onMachine (fault : ε → Fault) (f : σ → Traced ε α × σ) : Action σ α := fun w =>
  let (run, machine) := f w.machine
  (run.mapError fault, { w with machine })

end Action

/-- The lines that a command prints, and the status it ends with. -/
structure Reply where
  lines : List String
  status : Nat
  deriving DecidableEq

/-- The text that was given, unless it is empty. -/
def nonempty (s : Option String) : Option String := s.filter (· ≠ "")

variable {σ : Type} [Datum.CallRoom] [Numerics Binary64]

/-! ## Section 2: fitting one operation -/

/-- Why two lists of numerals are not fitted. -/
inductive FitFault where
  | numeral (fault : IntegerFault)
  | model (error : CostModelError Binary64)

def FitFault.message : FitFault → String
  | .numeral fault => fault.message
  | .model error => error.message Binary64.text

/-- The model of two lists of numerals, and its quantized form. -/
def fitLists (sizes costs : String) : Traced FitFault (CostModel Binary64 × QuantizedModel) := do
  let xs ← (Traced.ofExcept (integerList sizes)).mapError .numeral
  let ys ← (Traced.ofExcept (integerList costs)).mapError .numeral
  let set ← (Traced.ofExcept (SampleSet.ofColumns (xs.map .whole) (ys.map .whole))).mapError .model
  let model ← (set.fit none).mapError .model
  let quantized ← model.quantize.mapError .model
  pure (model, quantized)

/-- The lines that show a model. -/
def modelLines (m : CostModel Binary64) (q : QuantizedModel) : List String :=
  [s!"const_param: {m.constParam.text}",
   s!"lin_param:   {m.linParam.text}",
   s!"r_squared:   {m.rSquared.text}",
   s!"quantized:   const={q.constParam} lin={q.linParam}"]

/-- Fits a cost model to lists of sizes and costs. -/
def fit (sizes costs : String) : Traced Fault Reply :=
  let run := fitLists sizes costs
  match run.outcome with
  | .ok (m, q) => ⟨.ok ⟨modelLines m q, 0⟩, run.events⟩
  | .error fault => ⟨.ok ⟨[s!"Fit failed: {fault.message}"], 1⟩, run.events⟩

/-! ## Section 3: calibrating -/

/-- The integer that was given, unless it is zero. -/
def nonzero (n : Option Int) : Option Int := n.filter (· ≠ 0)

/-- The settings for a calibration: what the order leaves open, the
    environment decides. -/
def settingsFor (env : Environment) (order : CalibrationOrder) : Except Fault Settings := do
  let settings ← (Settings.ofEnvironment env).mapError .settings
  let sizes ←
    match nonempty order.sizes with
    | none => .ok settings.sizes
    | some list => ((integerList list).map sortIntegers).mapError .sizes
  .ok
    { settings with
      sizes
      iterations := (nonzero order.iterations).getD settings.iterations
      workers := (nonzero order.workers).or settings.workers }

/-- Where the samples of a calibration come from: a file if one is named, or
    else measurements. -/
def sourceFor (host : Host σ) (settings : Settings) (order : CalibrationOrder) :
    Action σ (Samples.SampleSource σ) :=
  match nonempty order.samples with
  | some path =>
    .withFiles .samples fun files => do
      let recorded ← Samples.RecordedSamples.ofFile files (.ofText path)
      pure (recorded.source σ)
  | none =>
    .ofExcept .ladder
      ((Samples.BenchmarkSource.create (settings.sizes.map .whole) settings.iterations host.clock
        (Samples.hostBenchmarks host.work)).map fun bench => bench.source)

/-- Measurements as the samples of a calibration. -/
def samplesOf (measurements : List Samples.Measurement) : Datum :=
  .list (measurements.map fun m => .sample (.whole m.size) (.whole m.cost))

/-- The samples of all operations as the jobs of a calibration. -/
def jobsOf (collected : Samples.Collected) : Calibration.Jobs :=
  .ofList (collected.samples.entries.map fun e => (.text e.1, samplesOf e.2))

/-- Opens the store that a URL names, or the one that the environment names if
    there is no URL. -/
def openStore (host : Host σ) (database : String) : Action σ Store.Session := do
  let url ← .ofExcept .url (Store.DatabaseUrl.resolve (some database) host.environment)
  .onFiles .opening fun files => Store.Session.initialize? files url.path

/-- Stores a report as a new run. -/
def storeReport (host : Host σ) (database : String) (report : Calibration.Report Binary64) :
    Action σ Int := do
  let session ← openStore host database
  .onFiles .saving fun files =>
    let (run, store) := Store.saveReport report host.now session.store
    (run, { session with store }.commit files)

/-- The lines that show the outcome of a calibration. -/
def summaryLines (output : String) (skipped : List Text)
    (report : Calibration.Report Binary64) : List String :=
  s!"Calibrated: {report.table.size} operations -> {output}"
    :: skipped.map (fun name => s!"  skipped: {name}")
    ++ report.needsReview.filterMap (fun name =>
      (report.models.get? name).map fun m =>
        s!"  needs review: {name} (r_squared={m.rSquared.fixed 4})")
    ++ report.failures.entries.map (fun (name, error) =>
      s!"  FAILED: {name}: {error.name}: {error.message Binary64.text}")

/-- Calibrates operations, writes the artifact of the table and then stores
    the run. -/
def calibrate (host : Host σ) (order : CalibrationOrder) : Action σ Reply := do
  let settings ← .ofExcept id (settingsFor host.environment order)
  let source ← sourceFor host settings order
  let collected ← .onMachine .request (source.collectAll (order.operations.map fun name : String => .text name))
  let report ← .ofTraced .calibration
    (Calibration.calibrate (jobsOf collected) (.double settings.reviewThreshold) host.now)
  let output := (nonempty order.output).getD settings.tablePath
  -- The artifact is there before the run is stored.
  .onFiles .writing (Artifact.save report.table (.ofText output))
  let stored ←
    if order.withoutStore then pure []
    else do
      let runId ← storeReport host ((nonempty order.database).getD settings.databaseUrl) report
      pure [s!"Stored calibration run {runId}"]
  pure
    { lines := stored ++ summaryLines output collected.skipped report
      status := if report.succeeded then 0 else 2 }

/-! ## Section 4: using a table -/

/-- The table of the run in use in a store. -/
def storedTable (host : Host σ) (database : String) : Action σ Store.StoredTable := do
  let session ← openStore host database
  let table ← .ofTraced .loading (Store.loadTable session.store none host.now)
  match table with
  | none => .fail .noRun
  | some table => pure table

/-- The table of an artifact. -/
def writtenTable (host : Host σ) (path : String) : Action σ Store.StoredTable :=
  .withFiles .reading fun files => do
    let table ← Artifact.load files (.ofText path) host.now
    pure (.ofTable table)

/-- The table that a command works on. -/
def tableFor (host : Host σ) (origin : TableOrigin) : Action σ Store.StoredTable := do
  let settings ← .ofExcept .settings (Settings.ofEnvironment host.environment)
  match nonempty origin.database with
  | some database => storedTable host database
  | none => writtenTable host ((nonempty origin.table).getD settings.tablePath)

/-- A text with spaces behind it, `width` characters in all at least. -/
def padded (width : Nat) (s : String) : String :=
  s ++ String.ofList (List.replicate (width - s.length) ' ')

/-- A line of sixty equal characters. -/
def rule (c : Char) : String := String.ofList (List.replicate 60 c)

/-- The lines that show a table. -/
def tableLines (t : Store.StoredTable) : List String :=
  ["Cost Model Table", rule '=', s!"Calibrated at: {t.calibratedAt.plain}",
   s!"Fingerprint:   {t.entries.fingerprint}", rule '-']
    ++ t.entries.toList.map fun (name, model) =>
      let const := padded 12 (toString model.constParam)
      s!"{padded 32 name.toString} const={const} lin={model.linParam}"

/-- A table as a JSON document.  There is none for a time that is no text. -/
def tableDocument (t : Store.StoredTable) : Except Fault Json.Value :=
  match t.calibratedAt with
  | .text time =>
    .ok <| .object
      [("calibrated_at", .text time), ("fingerprint", .text t.entries.fingerprint),
       ("entries", t.entries.toJson)]
  | time => .error (.notSerializable time.kind)

/-- Shows a table. -/
def display (host : Host σ) (origin : TableOrigin) (asJson : Bool) : Action σ Reply := do
  let table ← tableFor host origin
  if asJson then
    let document ← .ofExcept id (tableDocument table)
    pure ⟨[document.indented], 0⟩
  else pure ⟨tableLines table, 0⟩

/-- Computes the charge of an operation.  Without a size there is a charge for
    no operation. -/
def evaluate (host : Host σ) (operation : String) (size : Option Int) (origin : TableOrigin) :
    Action σ Reply := do
  let table ← tableFor host origin
  match size with
  | some size =>
    let cost ← .ofTraced .refusal (table.entries.evaluate (.text operation) size)
    pure ⟨[toString cost], 0⟩
  | none =>
    -- An operation without a model is the first thing to be reported.
    let _ ← .ofTraced .refusal (table.entries.lookup (.text operation))
    .fail .blankSize

/-! ## Section 5: command lines -/

/-- Does what a request asks for. -/
def perform (host : Host σ) : Request → Action σ Reply
  | .fit sizes costs => .ofTraced id (fit sizes costs)
  | .calibrate order => calibrate host order
  | .display origin asJson => display host origin asJson
  | .evaluate operation size origin => evaluate host operation size origin

/-- How the program ends: with a status and what it has written, or through a
    fault that it does not report. -/
inductive Ending where
  | finished (status : Nat) (out err : String)
  | interrupted (fault : Fault)

/-- The ending of a program whose command line asks for nothing to be done. -/
def Stop.ending : Stop → Ending
  | .help g => .finished 0 g.help ""
  | .misuse g problem => .finished 2 "" (g.complaint problem)

/-- The ending of a command. -/
def endingOf : Except Fault Reply → Ending
  | .ok reply => .finished reply.status (textOfLines reply.lines) ""
  | .error fault =>
    if fault.isReported then .finished 1 (textOfLines [s!"Error: {fault.message}"]) ""
    else .interrupted fault

/-- Runs the program on the words of a command line. -/
def run (host : Host σ) (args : List String) (w : World σ) : Ending × List Event × World σ :=
  match Request.ofArguments args with
  | .error stop => (stop.ending, [], w)
  | .ok request =>
    let (reply, w) := perform host request w
    (endingOf reply.outcome, reply.events, w)

end CalibratedCosts.CommandLine
