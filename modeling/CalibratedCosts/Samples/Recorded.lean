import CalibratedCosts.Json.Reader
import CalibratedCosts.Samples.Source

/-! # Recorded samples

    Samples that an earlier run wrote down, in memory or in a file.

    * **JSON**: an object that gives each operation its list of pairs;
    * **JSON lines**: one record a line, with operation, size and cost.  A
      file with the suffix `.jsonl` has this form.

    Recorded costs are never rounded: samples are taken whole and unaltered,
    or not at all.
-/

namespace CalibratedCosts.Samples

/-- The recorded measurements of each operation. -/
structure RecordedSamples where
  samples : OrderedMap Text (List Measurement)

/-- Why recorded samples are not loaded.  `unwritableKey` takes the place of
    an error whose message would hold an integer beyond the digit limit. -/
inductive LoadError where
  | source (error : SourceError)
  | nulInPath
  | undecodable (fault : Text.Utf8.Fault)
  | integerTooLong (digits : Nat)
  | tooDeep (container : Json.Container)
  | unusableKey (fault : Datum.KeyFault)
  | unwritableKey

def LoadError.message [Datum.CallRoom] : LoadError → String
  | .source error => error.message
  | .nulInPath => "embedded null byte"
  | .undecodable fault => fault.message
  | .integerTooLong digits => (Json.Problem.integerTooLong digits).message
  | .tooDeep container => (Json.Problem.tooDeep container).message
  | .unusableKey fault => fault.message
  | .unwritableKey => Numeral.tooLongToWrite

/-! ## Section 1: pairs -/

/-- The integer that is a part of a measurement. -/
def partOf (part : Part) (d : Datum) : Except PartFault Int :=
  match d with
  | .whole n => .ok n
  | d => .error ⟨part, d⟩

/-- The measurement that a datum gives. -/
def measurementOf (d : Datum) : Except PairsFault Measurement :=
  match d.elements? with
  | none => .error (.pairNotIterable d.kind)
  | some [size, cost] => do
    let size ← (partOf .size size).mapError .part
    let cost ← (partOf .cost cost).mapError .part
    .ok ⟨size, cost⟩
  | some elements =>
    if elements.length < 2 then .error (.pairTooShort elements.length) else .error .pairTooLong

/-- The measurements that a datum gives. -/
def measurementsOf (d : Datum) : Except PairsFault (List Measurement) :=
  match d.elements? with
  | none => .error (.notIterable d.kind)
  | some elements => elements.mapM measurementOf

/-- Name and measurements of an operation.  The measurements are looked at
    first. -/
def entryOf (key pairs : Datum) : Except PairsFault (Text × List Measurement) := do
  let measurements ← measurementsOf pairs
  let name ← key.identifier.mapError .identifier
  .ok (name, measurements)

namespace RecordedSamples

/-- Adds the samples of one key. -/
def add (recorded : RecordedSamples) (key pairs : Datum) : Except LoadError RecordedSamples :=
  match entryOf key pairs with
  | .ok (name, measurements) => .ok ⟨recorded.samples.insert name measurements⟩
  | .error fault =>
    if key.isWritable then .error (.source (.invalidSamples key fault))
    else .error .unwritableKey

/-- The samples of keys and their pairs. -/
def ofEntries (entries : List (Datum × Datum)) : Except LoadError RecordedSamples :=
  entries.foldlM (fun recorded (key, pairs) => recorded.add key pairs) ⟨.empty⟩

/-- The samples of keys and their pairs, of which the last one given counts
    for each key. -/
def ofPairs (pairs : List (Datum × Datum)) : Except LoadError RecordedSamples :=
  match Datum.mapOf pairs with
  | .error fault => .error (.unusableKey fault)
  | .ok m => ofEntries m.entries

/-! ## Section 2: texts -/

/-- The measurements of each operation key, in record order. -/
abbrev Grouped := OrderedMap Datum (List Measurement)

/-- Adds the record on a line. -/
def addRecord (grouped : Grouped) (line : List Char) : Except RecordFault Grouped :=
  match Json.read .lenient line with
  | .error fault => .error (.json line fault)
  | .ok v => do
    let record := Datum.ofJson v
    let key ← (record.field "operation").mapError .field
    let earlier := grouped.getD key []
    let grouped ← (Datum.insertKey grouped key earlier).mapError .unusableKey
    let size ← (record.field "size").mapError .field
    let size ← (partOf .size size).mapError .part
    let cost ← (record.field "cost").mapError .field
    let cost ← (partOf .cost cost).mapError .part
    .ok (grouped.insert key (earlier ++ [⟨size, cost⟩]))

/-- The error of a line.  Nesting that is too deep is no fault of the record. -/
def lineError (path : String) (number : Nat) : RecordFault → LoadError
  | .json _ ⟨.tooDeep container, _⟩ => .tooDeep container
  | fault => .source (.invalidRecord path number fault)

/-- Adds the records on lines, of which the first one has the given number.
    Blank lines count but hold no record. -/
def addRecords (path : String) :
    (number : Nat) → List (List Char) → Grouped → Except LoadError Grouped
  | _, [], grouped => .ok grouped
  | number, line :: rest, grouped =>
    let line := Text.trimBoth Text.isBlank line
    if line.isEmpty then addRecords path (number + 1) rest grouped
    else
      match addRecord grouped line with
      | .error fault => .error (lineError path number fault)
      | .ok grouped => addRecords path (number + 1) rest grouped

/-- Measurements as a list of pairs. -/
def pairsOf (measurements : List Measurement) : Datum :=
  .list (measurements.map fun m => .list [.whole m.size, .whole m.cost])

/-- The samples of a text of JSON lines. -/
def ofLines (path : String) (text : List Char) : Traced LoadError RecordedSamples := do
  let grouped ← Traced.ofExcept (addRecords path 1 (Text.lines text) OrderedMap.empty)
  Traced.report .samplesLoaded
  Traced.ofExcept (ofEntries (grouped.entries.map fun e => (e.1, pairsOf e.2)))

/-- The samples of a JSON text. -/
def ofJson (path : String) (text : List Char) : Traced LoadError RecordedSamples :=
  match Json.read .lenient text with
  | .error ⟨.integerTooLong digits, _⟩ => Traced.fail (.integerTooLong digits)
  | .error ⟨.tooDeep container, _⟩ => Traced.fail (.tooDeep container)
  | .error fault => Traced.fail (.source (.invalidJson path text fault))
  | .ok v =>
    match Datum.ofJson v with
    | .record fields => do
      Traced.report .samplesLoaded
      Traced.ofExcept (ofEntries fields)
    | _ => Traced.fail (.source (.notAnObject path))

/-- The samples of a file. -/
def ofFile {σ : Type} (fs : FileSystem σ) (p : FilePath) : Traced LoadError RecordedSamples :=
  match fs.readText p with
  | .error .nulInPath => Traced.fail .nulInPath
  | .error (.undecodable fault) => Traced.fail (.undecodable fault)
  | .error (.system e _) => Traced.fail (.source (.unreadable p.text e))
  | .ok text => if p.suffix = ".jsonl" then ofLines p.text text else ofJson p.text text

/-! ## Section 3: the source -/

/-- The recorded samples as a source, for a machine of any kind. -/
def source (recorded : RecordedSamples) (σ : Type) : SampleSource σ where
  operations := recorded.samples.keys
  collect name s :=
    match recorded.samples.get? name with
    | some measurements => (pure measurements, s)
    | none => (Traced.fail (.source (.unsupported name)), s)

end RecordedSamples
end CalibratedCosts.Samples
