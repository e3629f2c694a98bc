import CalibratedCosts.Json.Reader
import CalibratedCosts.Store.Basic

/-! # Store archives

    The text in which a store is kept between two runs of the program: a
    title line and the rows as JSON.  What is read back from the JSON value of
    a store is that store.
-/

namespace CalibratedCosts.Store

open Json (Value)

/-! ## Section 1: rows -/

/-- Bytes as JSON. -/
def bytesToJson (content : List UInt8) : Value := .list (content.map fun b => .whole b.toNat)

/-- The bytes that a JSON value describes. -/
def bytesOfJson? : Value → Option (List UInt8)
  | .list items => items.mapM fun
    | .whole n => some (UInt8.ofNat n.toNat)
    | _ => none
  | _ => none

@[simp] theorem bytesOfJson?_bytesToJson (content : List UInt8) :
    bytesOfJson? (bytesToJson content) = some content := by
  induction content with
  | nil => rfl
  | cons b rest ih =>
    unfold bytesOfJson? bytesToJson at ih ⊢
    simp [ih]

namespace TextCell

/-- A text cell as JSON: a string as it is, bytes in a list with one item
    more if they are no text. -/
def toJson : TextCell → Value
  | .text s => .text s
  | .malformed content _ => .list [bytesToJson content]
  | .blob content => .list [bytesToJson content, .null]

def ofJson? : Value → Option TextCell
  | .text t => t.string?.map .text
  | .list [v] => do
    let content ← bytesOfJson? v
    if h : (Text.Utf8.decode content).isOk = false then some (.malformed content h) else none
  | .list [v, .null] => (bytesOfJson? v).map .blob
  | _ => none

@[simp] theorem ofJson?_toJson (c : TextCell) : ofJson? c.toJson = some c := by
  cases c with
  | text s => simp [toJson, ofJson?]
  | malformed content h => simp [toJson, ofJson?, h]
  | blob content => simp [toJson, ofJson?]

end TextCell

def Cell.toJson : Cell → Value
  | .integer n => .whole n
  | .real x => .double x
  | .other c => c.toJson

def Cell.ofJson? : Value → Option Cell
  | .whole n => some (.integer n)
  | .double x => some (.real x)
  | v => (TextCell.ofJson? v).map .other

@[simp] theorem Cell.ofJson?_toJson (c : Cell) : ofJson? c.toJson = some c := by
  cases c with
  | integer n => rfl
  | real x => rfl
  | other c =>
    have hother : ofJson? c.toJson = (TextCell.ofJson? c.toJson).map .other := by cases c <;> rfl
    show ofJson? c.toJson = _
    rw [hother, TextCell.ofJson?_toJson]
    rfl

def RunRow.toJson (r : RunRow) : Value :=
  .list
    [.whole r.runId, r.fingerprint.toJson, r.calibratedAt.toJson, r.storedAt.toJson,
     r.operationCount.toJson, r.active.toJson]

def RunRow.ofJson? : Value → Option RunRow
  | .list [.whole runId, fingerprint, calibratedAt, storedAt, operationCount, active] => do
    some ⟨runId, ← TextCell.ofJson? fingerprint, ← TextCell.ofJson? calibratedAt,
      ← TextCell.ofJson? storedAt, ← Cell.ofJson? operationCount, ← Cell.ofJson? active⟩
  | _ => none

theorem RunRow.ofJson?_toJson (r : RunRow) : ofJson? r.toJson = some r := by
  simp [toJson, ofJson?]

/-- The quality of a fit as JSON. -/
def qualityToJson : Option Cell → Value
  | some c => c.toJson
  | none => .null

/-- The quality of a fit that a JSON value describes. -/
def qualityOfJson? : Value → Option (Option Cell)
  | .null => some none
  | v => (Cell.ofJson? v).map some

@[simp] theorem qualityOfJson?_toJson (quality : Option Cell) :
    qualityOfJson? (qualityToJson quality) = some quality := by
  cases quality with
  | none => rfl
  | some c =>
    have hcell : qualityOfJson? c.toJson = (Cell.ofJson? c.toJson).map some := by
      rcases c with n | x | (s | ⟨content, h⟩ | content) <;> rfl
    show qualityOfJson? c.toJson = _
    rw [hcell, Cell.ofJson?_toJson]
    rfl

def ModelRow.toJson (r : ModelRow) : Value :=
  .list
    [.whole r.runId, r.operation.toJson, r.constParam.toJson, r.linParam.toJson,
     qualityToJson r.rSquared]

def ModelRow.ofJson? : Value → Option ModelRow
  | .list [.whole runId, operation, constParam, linParam, quality] => do
    some ⟨runId, ← TextCell.ofJson? operation, ← TextCell.ofJson? constParam,
      ← TextCell.ofJson? linParam, ← qualityOfJson? quality⟩
  | _ => none

theorem ModelRow.ofJson?_toJson (r : ModelRow) : ofJson? r.toJson = some r := by
  simp [toJson, ofJson?]

def FailureRow.toJson (r : FailureRow) : Value :=
  .list [.whole r.runId, r.operation.toJson, r.errorType.toJson, r.message.toJson]

def FailureRow.ofJson? : Value → Option FailureRow
  | .list [.whole runId, operation, errorType, message] => do
    some ⟨runId, ← TextCell.ofJson? operation, ← TextCell.ofJson? errorType,
      ← TextCell.ofJson? message⟩
  | _ => none

theorem FailureRow.ofJson?_toJson (r : FailureRow) : ofJson? r.toJson = some r := by
  simp [toJson, ofJson?]

/-! ## Section 2: stores -/

/-- Rows that are read back one by one are read back together. -/
theorem mapM_ofJson {α : Type} {toJson : α → Value} {ofJson? : Value → Option α}
    (h : ∀ a, ofJson? (toJson a) = some a) (rows : List α) :
    (rows.map toJson).mapM ofJson? = some rows := by
  induction rows with
  | nil => rfl
  | cons a rest ih => simp [h, ih]

namespace History

def toJson (s : History) : Value :=
  .list
    [.list (s.runs.map RunRow.toJson), .list (s.models.map ModelRow.toJson),
     .list (s.failures.map FailureRow.toJson), .whole s.lastRun]

def ofJson? : Value → Option History
  | .list [.list runs, .list models, .list failures, .whole lastRun] => do
    let runs ← runs.mapM RunRow.ofJson?
    let models ← models.mapM ModelRow.ofJson?
    let failures ← failures.mapM FailureRow.ofJson?
    some ⟨runs, models, failures, lastRun⟩
  | _ => none

theorem ofJson?_toJson (s : History) : ofJson? s.toJson = some s := by
  simp [toJson, ofJson?, mapM_ofJson RunRow.ofJson?_toJson, mapM_ofJson ModelRow.ofJson?_toJson,
    mapM_ofJson FailureRow.ofJson?_toJson]

/-- The first line of an archive. -/
def archiveTitle : List Char := "calibration store, format 1\n".toList

def archive (s : History) : String := String.ofList (archiveTitle ++ s.toJson.compact.toList)

def ofArchive? (text : List Char) : Option History :=
  if archiveTitle.isPrefixOf text then
    match Json.read .lenient (text.drop archiveTitle.length) with
    | .ok v => ofJson? v
    | .error _ => none
  else none

end History
end CalibratedCosts.Store
