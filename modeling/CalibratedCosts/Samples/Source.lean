import CalibratedCosts.Datum.Conversion
import CalibratedCosts.Event
import CalibratedCosts.Files.System
import CalibratedCosts.Json.Reader
import CalibratedCosts.Table.Identifier

/-! # Sample sources

    A sample source produces the measurements of named operations.

    * **Collecting**: one operation at a time, or several, where an operation
      that cannot be sampled is skipped and does not stop the others.
    * **State**: a source may change the state of the machine it measures;
      the state after a failure is the one the failure left.
    * **Limits**: an error that cannot be put into words, since its message
      would hold an integer beyond the digit limit, skips nothing and ends
      the collection.
-/

namespace CalibratedCosts.Samples

/-- One recorded or measured pair of input size and cost. -/
structure Measurement where
  size : Int
  cost : Int
  deriving DecidableEq

/-! ## Section 1: errors -/

/-- The two parts of a measurement. -/
inductive Part where
  | size
  | cost
  deriving DecidableEq

def Part.name : Part → String
  | .size => "size"
  | .cost => "cost"

/-- A part of a measurement that is no integer. -/
structure PartFault where
  part : Part
  datum : Datum

def PartFault.message [Datum.CallRoom] (fault : PartFault) : String :=
  match fault.datum.shown? with
  | .ok shown => s!"{fault.part.name}={shown} is not an integer"
  | .error fault => fault.message

/-- Why a datum is no sequence of measurements of an operation. -/
inductive PairsFault where
  | notIterable (kind : String)
  | pairNotIterable (kind : String)
  | pairTooShort (elements : Nat)
  | pairTooLong
  | part (fault : PartFault)
  | identifier (fault : IdentifierFault)

def PairsFault.message [Datum.CallRoom] : PairsFault → String
  | .notIterable kind => s!"'{kind}' object is not iterable"
  | .pairNotIterable kind => s!"cannot unpack non-iterable {kind} object"
  | .pairTooShort elements => s!"not enough values to unpack (expected 2, got {elements})"
  | .pairTooLong => "too many values to unpack (expected 2)"
  | .part fault => fault.message
  | .identifier fault => fault.message

/-- Why a line is no record of a measurement. -/
inductive RecordFault where
  | json (line : List Char) (fault : Json.Fault)
  | field (fault : FieldFault)
  | unusableKey (fault : Datum.KeyFault)
  | part (fault : PartFault)

def RecordFault.message [Datum.CallRoom] : RecordFault → String
  | .json line fault => fault.message line
  | .field fault => fault.message
  | .unusableKey fault => fault.message
  | .part fault => fault.message

/-- Why there are no samples. -/
inductive SourceError where
  | unsupported (operation : Text)
  | invalidSamples (key : Datum) (fault : PairsFault)
  | unreadable (path : String) (error : SystemError)
  | invalidJson (path : String) (text : List Char) (fault : Json.Fault)
  | notAnObject (path : String)
  | invalidRecord (path : String) (line : Nat) (fault : RecordFault)
  | benchmarkFailed (operation : Text) (size : Int) (reason : String)

def SourceError.message [Datum.CallRoom] : SourceError → String
  | .unsupported operation => s!"No samples available for operation: {operation}"
  | .invalidSamples key fault =>
    match key.plain? with
    | .ok plain => s!"Invalid samples for {plain}: {fault.message}"
    | .error showFault => showFault.message
  | .unreadable path error =>
    s!"Cannot read samples from {path}: {error.message}: {Text.quoted path}"
  | .invalidJson path text fault => s!"Invalid JSON in {path}: {fault.message text}"
  | .notAnObject path => s!"Expected a JSON object in {path}"
  | .invalidRecord path line fault => s!"{path}:{line}: invalid sample record: {fault.message}"
  | .benchmarkFailed operation size reason =>
    s!"Benchmark for {operation} failed at size {size}: {reason}"

/-- Why a request is not answered with samples.  `unwritable` takes the place
    of an error whose message would hold an integer beyond the digit limit. -/
inductive CollectError where
  | identifier (fault : IdentifierFault)
  | source (error : SourceError)
  | unwritable

def CollectError.message [Datum.CallRoom] : CollectError → String
  | .identifier fault => fault.message
  | .source error => error.message
  | .unwritable => Numeral.tooLongToWrite

/-! ## Section 2: sources -/

/-- A producer of samples on a machine with states `σ`. -/
structure SampleSource (σ : Type) where
  operations : List Text
  collect : Text → σ → Traced CollectError (List Measurement) × σ

/-- What several operations gave, and which ones were skipped. -/
structure Collected where
  samples : OrderedMap Text (List Measurement)
  skipped : List Text

namespace SampleSource

variable {σ : Type}

/-- The samples of the operation that a datum names. -/
def collectOne (source : SampleSource σ) (operation : Datum) (s : σ) :
    Traced CollectError (List Measurement) × σ :=
  match operation.identifier with
  | .error fault => (Traced.fail (.identifier fault), s)
  | .ok name => source.collect name s

/-- The event that reports a skipped operation. -/
def skipEvent : SourceError → Event
  | .unsupported _ => .operationNotSampled
  | _ => .samplingFailed

/-- Collects some operations in order, and adds to what has been collected.
    An error of the source skips an operation; any other ends it. -/
def gather (source : SampleSource σ) :
    List Text → Collected → σ → Traced CollectError Collected × σ
  | [], collected, s => (pure collected, s)
  | name :: rest, collected, s =>
    let (run, s) := source.collect name s
    match run.outcome with
    | .ok samples =>
      let (later, s) :=
        source.gather rest { collected with samples := collected.samples.insert name samples } s
      (⟨later.outcome, run.events ++ later.events⟩, s)
    | .error (.source e) =>
      let (later, s) :=
        source.gather rest { collected with skipped := collected.skipped ++ [name] } s
      (⟨later.outcome, run.events ++ skipEvent e :: later.events⟩, s)
    | .error e => (⟨.error e, run.events⟩, s)

/-- The operations that requests name.  No request asks for everything. -/
def targets (source : SampleSource σ) (requests : List Datum) :
    Except IdentifierFault (List Text) := do
  let names ← requests.mapM Datum.identifier
  .ok (if names.isEmpty then source.operations else names)

/-- Collects the requested operations. -/
def collectAll (source : SampleSource σ) (requests : List Datum) (s : σ) :
    Traced CollectError Collected × σ :=
  match source.targets requests with
  | .error fault => (Traced.fail (.identifier fault), s)
  | .ok names => source.gather names ⟨.empty, []⟩ s

end SampleSource
end CalibratedCosts.Samples
