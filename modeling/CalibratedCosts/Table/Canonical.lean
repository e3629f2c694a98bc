import CalibratedCosts.Digest.Sha256
import CalibratedCosts.Table.Basic
import CalibratedCosts.Text.Utf8

/-! # Texts of a table

    * **Canonical text**: the entries as compact JSON in the order of their
      names.  It leaves the time of calibration out.
    * **Fingerprint**: the SHA-256 digest of the canonical text.
    * **Report**: time, fingerprint and entries as a JSON object.
-/

namespace CalibratedCosts

open Json (Value)

/-- A model as a JSON object. -/
def QuantizedModel.toJson (m : QuantizedModel) : Value :=
  .object [("const_param", .whole m.constParam), ("lin_param", .whole m.linParam)]

/-- Entries as a JSON object. -/
def Entries.toJson (entries : Entries) : Value :=
  .object (entries.toList.map fun e => (e.1, e.2.toJson))

/-- The canonical text of entries. -/
def Entries.canonical (entries : Entries) : String := entries.toJson.compact

/-- The digest of the canonical text. -/
def Entries.fingerprint (entries : Entries) : String :=
  Digest.Sha256.hexDigest (Text.Utf8.encode entries.canonical)

namespace CostModelTable

def canonical (t : CostModelTable) : String := t.entries.canonical

/-- The digest of the canonical text of the entries. -/
def fingerprint (t : CostModelTable) : String := t.entries.fingerprint

/-- Time of calibration, fingerprint and entries. -/
def report (t : CostModelTable) : Value :=
  .object
    [("calibrated_at", .text t.calibratedAt),
     ("fingerprint", .text t.fingerprint),
     ("entries", t.entries.toJson)]

/-- A short description. -/
def description (t : CostModelTable) : String :=
  s!"CostModelTable(operations={t.size}, fingerprint=" ++
    String.ofList (t.fingerprint.toList.take 12) ++ ")"

end CostModelTable
end CalibratedCosts
