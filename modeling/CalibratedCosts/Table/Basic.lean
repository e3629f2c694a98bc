import CalibratedCosts.CostModel.Charge
import CalibratedCosts.Event
import CalibratedCosts.Table.Identifier
import CalibratedCosts.Timestamp

/-! # Cost model tables

    A table gives each calibrated operation its quantized model.  It is built
    once and never changed: a new calibration makes a new table.

    * **Order**: the entries stand in strictly increasing order of their
      names, by code point.
    * **Missing operations**: asking for an operation without a model is an
      error of the host's configuration and never a cost of zero.
-/

namespace CalibratedCosts

/-- The entries of a table: names in strictly increasing order, none of them
    empty. -/
structure Entries where
  toList : List (Text × QuantizedModel)
  sorted : (toList.map Prod.fst).Pairwise (· < ·)
  named : ∀ e ∈ toList, e.1 ≠ ""
  deriving DecidableEq

/-- Cost models by operation, and when they were calibrated.  The time is
    free text, but there is one. -/
structure CostModelTable where
  entries : Entries
  calibratedAt : Text
  dated : calibratedAt ≠ ""
  deriving DecidableEq

/-! ## Section 1: entries -/

namespace Entries

/-- Puts an entry in its place among sorted ones, where it replaces an entry
    of its name. -/
def insertSorted (name : Text) (model : QuantizedModel) :
    List (Text × QuantizedModel) → List (Text × QuantizedModel)
  | [] => [(name, model)]
  | (name', model') :: rest =>
    if name < name' then (name, model) :: (name', model') :: rest
    else if name' < name then (name', model') :: insertSorted name model rest
    else (name, model) :: rest

theorem mem_map_insertSorted {name : Text} {model : QuantizedModel}
    {entries : List (Text × QuantizedModel)} {x : Text}
    (h : x ∈ (insertSorted name model entries).map Prod.fst) :
    x = name ∨ x ∈ entries.map Prod.fst := by
  induction entries with
  | nil => simpa [insertSorted] using h
  | cons e rest ih =>
    obtain ⟨name', model'⟩ := e
    simp only [insertSorted] at h
    split at h
    · simpa using h
    · split at h
      · simp only [List.map_cons, List.mem_cons] at h ⊢
        rcases h with h | h
        · exact .inr (.inl h)
        · rcases ih h with h | h
          · exact .inl h
          · exact .inr (.inr h)
      · simp only [List.map_cons, List.mem_cons] at h ⊢
        rcases h with h | h
        · exact .inl h
        · exact .inr (.inr h)

theorem sorted_insertSorted (name : Text) (model : QuantizedModel)
    (entries : List (Text × QuantizedModel)) (h : (entries.map Prod.fst).Pairwise (· < ·)) :
    ((insertSorted name model entries).map Prod.fst).Pairwise (· < ·) := by
  induction entries with
  | nil => simp [insertSorted]
  | cons e rest ih =>
    obtain ⟨name', model'⟩ := e
    simp only [List.map_cons, List.pairwise_cons] at h
    simp only [insertSorted]
    split
    · rename_i hlt
      simp only [List.map_cons, List.pairwise_cons, List.mem_cons]
      refine ⟨?_, h.1, h.2⟩
      rintro x (rfl | hx)
      · exact hlt
      · exact Text.lt_trans hlt (h.1 x hx)
    · split
      · rename_i hlt
        simp only [List.map_cons, List.pairwise_cons]
        refine ⟨?_, ih h.2⟩
        intro x hx
        rcases mem_map_insertSorted hx with rfl | hx
        · exact hlt
        · exact h.1 x hx
      · rename_i hge hle
        have : name = name' := Text.eq_of_not_lt hge hle
        subst this
        simpa [List.pairwise_cons] using h

theorem named_insertSorted {name : Text} (model : QuantizedModel)
    {entries : List (Text × QuantizedModel)} (hname : name ≠ "")
    (h : ∀ e ∈ entries, e.1 ≠ "") : ∀ e ∈ insertSorted name model entries, e.1 ≠ "" := by
  intro e he
  have hmem : e.1 ∈ (insertSorted name model entries).map Prod.fst := List.mem_map_of_mem he
  rcases mem_map_insertSorted hmem with heq | hx
  · exact heq ▸ hname
  · obtain ⟨e', he', heq⟩ := List.mem_map.1 hx
    exact heq ▸ h e' he'

def empty : Entries := ⟨[], List.Pairwise.nil, by simp⟩

/-- The entries with a model for the named operation. -/
def insert (entries : Entries) (name : Text) (model : QuantizedModel) (h : name ≠ "") :
    Entries :=
  ⟨insertSorted name model entries.toList,
    sorted_insertSorted name model entries.toList entries.sorted,
    named_insertSorted model h entries.named⟩

/-- The model of an operation. -/
def get? (entries : Entries) (name : Text) : Option QuantizedModel :=
  (entries.toList.find? fun e => e.1 == name).map Prod.snd

/-- The names in order. -/
def names (entries : Entries) : List Text := entries.toList.map Prod.fst

end Entries

/-! ## Section 2: building -/

/-- Why data is no table. -/
inductive TableFault where
  | unusableKey (fault : Datum.KeyFault)
  | parameter (fault : ParameterFault)
  | notAModel (key : Datum)
  | identifier (fault : IdentifierFault)

def TableFault.message [Datum.CallRoom] : TableFault → String
  | .unusableKey fault => fault.message
  | .parameter fault => fault.message
  | .notAModel key =>
    match key.plain? with
    | .ok plain => s!"Entry for {plain} is not a QuantizedCostModel"
    | .error fault => fault.message
  | .identifier fault => fault.message

/-- Adds the entry of a key, which must name an operation and have a model. -/
def Entries.insertKey (entries : Entries) (key : Datum) (model : Option QuantizedModel) :
    Except TableFault Entries :=
  match model with
  | none => .error (.notAModel key)
  | some model =>
    match h : key.identifier? with
    | none => .error (.identifier ⟨key⟩)
    | some name => .ok (entries.insert name model (Datum.identifier?_ne_empty h))

/-- The entries of keys and models, taken from the left. -/
def Entries.ofPairs (pairs : List (Datum × Option QuantizedModel)) : Except TableFault Entries :=
  pairs.foldlM (fun entries (key, model) => entries.insertKey key model) empty

theorem Timestamp.ofString_text_ne_empty (now : Timestamp) : (now.text : Text) ≠ "" :=
  fun h => now.text_ne_empty (Text.ofString_injective h)

namespace CostModelTable

/-- A table of entries.  Without a time of calibration it is calibrated
    `now`. -/
def stamped (entries : Entries) (calibratedAt : Option Text) (now : Timestamp) :
    CostModelTable :=
  match calibratedAt with
  | none => ⟨entries, now.text, now.ofString_text_ne_empty⟩
  | some time =>
    if h : time = "" then ⟨entries, now.text, now.ofString_text_ne_empty⟩ else ⟨entries, time, h⟩

/-- The table of keys and models.  Keys that are one name one entry, whose
    model is the last one given. -/
def ofMap (models : OrderedMap Datum (Option QuantizedModel)) (calibratedAt : Option Text)
    (now : Timestamp) : Except TableFault CostModelTable := do
  let entries ← Entries.ofPairs models.entries
  .ok (stamped entries calibratedAt now)

/-- What a row of a table specification gives for a key: the parameters of a
    model, or something that is none. -/
inductive Row where
  | parameters (const lin : Datum)
  | other

/-- The model of a row. -/
def Row.model : Row → Except TableFault (Option QuantizedModel)
  | .parameters const lin => ((QuantizedModel.ofData const lin).map some).mapError .parameter
  | .other => .ok none

/-- The table of rows.  The models are made in the order of the rows, and only
    then are their keys looked at. -/
def ofRows (rows : List (Datum × Row)) (calibratedAt : Option Text) (now : Timestamp) :
    Except TableFault CostModelTable := do
  let models ← rows.foldlM
    (fun models (key, row) => do
      let model ← row.model
      (Datum.insertKey models key model).mapError .unusableKey)
    OrderedMap.empty
  ofMap models calibratedAt now

/-! ## Section 3: use -/

/-- Why a table gives no model or no charge. -/
inductive Refusal where
  | identifier (fault : IdentifierFault)
  | uncalibrated (operation : Text)
  | size (fault : SizeFault)

def Refusal.message [Datum.CallRoom] : Refusal → String
  | .identifier fault => fault.message
  | .uncalibrated operation => s!"Operation not calibrated: {operation}"
  | .size fault => fault.message

end CostModelTable

namespace Entries

/-- The model of the operation that a datum names. -/
def lookup (entries : Entries) (operation : Datum) :
    Traced CostModelTable.Refusal QuantizedModel := do
  let name ← Traced.ofExcept (operation.identifier.mapError .identifier)
  match entries.get? name with
  | some model => pure model
  | none =>
    Traced.report .operationUncalibrated
    Traced.fail (.uncalibrated name)

/-- The charge of an operation for an input of the given size. -/
def evaluate (entries : Entries) (operation : Datum) (size : Int) :
    Traced CostModelTable.Refusal Int := do
  let model ← entries.lookup operation
  Traced.ofExcept ((model.evaluate size).mapError .size)

end Entries

namespace CostModelTable

/-- The operations in order. -/
def operations (t : CostModelTable) : List Text := t.entries.names

def size (t : CostModelTable) : Nat := t.entries.toList.length

/-- A loop over a table takes its entries in order and gives their names. -/
instance {m : Type → Type} [Monad m] : ForIn m CostModelTable Text where
  forIn t init step := forIn t.entries.toList init fun e state => step e.1 state

/-- The model of the operation that a datum names. -/
def lookup (t : CostModelTable) (operation : Datum) : Traced Refusal QuantizedModel :=
  t.entries.lookup operation

/-- The charge of an operation for an input of the given size. -/
def evaluate (t : CostModelTable) (operation : Datum) (size : Int) : Traced Refusal Int :=
  t.entries.evaluate operation size

/-- The datum names an operation of the table. -/
def contains (t : CostModelTable) (operation : Datum) : Bool :=
  match operation.identifier? with
  | some name => t.operations.contains name
  | none => false

/-- The same models for the same operations, whatever the time of
    calibration. -/
def sameEntries (t u : CostModelTable) : Bool := decide (t.entries = u.entries)

end CostModelTable
end CalibratedCosts
