import CalibratedCosts.Artifact.Schema
import CalibratedCosts.Files.System

/-! # Artifact files

    The file form of a cost model table, which the calibration run hands to
    the host.

    * **Writing**: the artifact replaces the file at its path as a whole.
    * **Reading**: a table is handed out only if the version is the one of
      this format and the entries have the fingerprint that the artifact
      states, if it states one.
-/

namespace CalibratedCosts

namespace Artifact

open Json (Value)

/-- The format version that is written and read. -/
def formatVersion : Int := 1

/-! ## Section 1: errors -/

/-- Why an artifact is not read or written. -/
inductive Error where
  | invalid (issues : List Issue)
  | unsupportedVersion (version : Int)
  | fingerprintMismatch (stated actual : String)
  | unreadable (path : String) (error : SystemError)
  | unwritten (path : String) (error : SystemError)

def Error.message : Error → String
  | .invalid issues =>
    let lines := issues.map fun i => s!"{i.location}: {i.complaint.message}"
    "Invalid cost model table artifact: " ++ "; ".intercalate lines
  | .unsupportedVersion version => s!"Unsupported artifact format version: {version}"
  | .fingerprintMismatch stated actual =>
    s!"Fingerprint mismatch: artifact says {stated}, entries hash to {actual}"
  | .unreadable path error =>
    s!"Cannot read cost model table from {path}: {error.message}: {Text.quoted path}"
  | .unwritten path error => s!"Cannot write cost model table to {path}: {error.message}"

/-- Why no table comes out of a file or text, or none goes into a file: an
    error of the artifact, or a fault that is not its own. -/
inductive Fault where
  | artifact (error : Error)
  | identifier (fault : IdentifierFault)
  | nulInPath
  | undecodable (fault : Text.Utf8.Fault)

def Fault.message [Datum.CallRoom] : Fault → String
  | .artifact error => error.message
  | .identifier fault => fault.message
  | .nulInPath => "embedded null byte"
  | .undecodable fault => fault.message

/-! ## Section 2: texts -/

/-- A table as a JSON document, with its fields in order. -/
def documentOf (t : CostModelTable) : Value :=
  .object
    [("calibrated_at", .text t.calibratedAt),
     ("entries", t.entries.toJson),
     ("fingerprint", .text t.fingerprint),
     ("format_version", .whole formatVersion)]

/-- The text of a table's artifact. -/
def dump (t : CostModelTable) : String := (documentOf t).indented

/-- Entries under the given names, of which the last one counts for each. -/
def entriesOf (models : List (Text × QuantizedModel)) : Except IdentifierFault Entries :=
  (OrderedMap.ofList models).entries.foldlM
    (fun entries (name, model) =>
      if h : name = "" then .error ⟨.text name⟩ else .ok (entries.insert name model h))
    Entries.empty

/-- The table of a document.  Without a time it is calibrated `now`. -/
def tableOf (d : Document) (now : Timestamp) : Except Fault CostModelTable :=
  match entriesOf d.entries with
  | .error fault => .error (.identifier fault)
  | .ok entries =>
    let table := CostModelTable.stamped entries (some (d.calibratedAt : Text)) now
    match d.fingerprint with
    | none => .ok table
    | some stated =>
      if stated = table.fingerprint then .ok table
      else .error (.artifact (.fingerprintMismatch stated table.fingerprint))

/-- The table that an artifact's text describes. -/
def parse (text : List Char) (now : Timestamp) : Except Fault CostModelTable :=
  match Document.ofText text with
  | .error issues => .error (.artifact (.invalid issues))
  | .ok d =>
    if d.formatVersion ≠ formatVersion then
      .error (.artifact (.unsupportedVersion d.formatVersion))
    else tableOf d now

/-! ## Section 3: files -/

variable {σ : Type}

/-- Writes the artifact of a table to a path, where steps may be interfered
    with. -/
def saveUnder (trouble : FileSystem.Interference) (t : CostModelTable) (p : FilePath)
    (fs : FileSystem σ) : Traced Fault Unit × FileSystem σ :=
  if p.hasNul then (Traced.fail .nulInPath, fs)
  else
    match fs.writeWhole p (Text.Utf8.encode (dump t)) trouble with
    | (.error e, fs) => (Traced.fail (.artifact (.unwritten p.text e)), fs)
    | (.ok _, fs) => (Traced.report .artifactWritten, fs)

/-- Writes the artifact of a table to a path. -/
def save (t : CostModelTable) (p : FilePath) (fs : FileSystem σ) :
    Traced Fault Unit × FileSystem σ :=
  saveUnder .absent t p fs

/-- The table of the artifact at a path. -/
def load (fs : FileSystem σ) (p : FilePath) (now : Timestamp) : Traced Fault CostModelTable := do
  let text ← Traced.ofExcept
    ((fs.readText p).mapError fun
      | .nulInPath => .nulInPath
      | .system e _ => .artifact (.unreadable p.text e)
      | .undecodable fault => .undecodable fault)
  let table ← Traced.ofExcept (parse text now)
  Traced.report .artifactLoaded
  pure table

end Artifact
end CalibratedCosts
