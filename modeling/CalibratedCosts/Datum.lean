import CalibratedCosts.HostOperation
import CalibratedCosts.Json.Value
import CalibratedCosts.Numeral.Integer
import CalibratedCosts.OrderedMap
import CalibratedCosts.Text.Quoted

/-! # Unchecked data

    Samples, keys and settings come from files and callers that promise
    nothing about their shape.  A `Datum` is such a value before it has been
    checked.

    * **Views**: what a datum is when asked for its elements, for an
      operation identifier, or for an integer.
    * **Text**: the form in which messages show a datum (`shown`), and the
      plain form (`plain`).  Neither exists for a datum that holds an integer
      beyond the digit limit (`isWritable`), or that is nested deeper than
      there is room for calls (`depth`).
    * **Keys**: a datum can be a key unless it holds a list or a record;
      `sameKey` says when two keys are one.
-/

namespace CalibratedCosts

/-- A value of unchecked shape.  A record has keys of any kind; those that
    come from outside have texts. -/
inductive Datum where
  | null
  | bool (b : Bool)
  | whole (n : Int)
  | double (x : Binary64)
  | text (t : Text)
  | bytes (content : List UInt8)
  | operation (o : HostOperation)
  | list (items : List Datum)
  | tuple (items : List Datum)
  | record (fields : List (Datum × Datum))
  | sample (size cost : Datum)

namespace Datum

instance : Inhabited Datum := ⟨.null⟩

/-- A record whose keys are texts. -/
def object (fields : List (Text × Datum)) : Datum := .record (fields.map fun f => (.text f.1, f.2))

/-! ## Section 1: from JSON -/

mutual

/-- A JSON value as a datum.  Of fields with one name the last one gives the
    value and the first one the place. -/
def ofJson : Json.Value → Datum
  | .null => .null
  | .bool b => .bool b
  | .whole n => .whole n
  | .double x => .double x
  | .text t => .text t
  | .list items => .list (ofJsonItems items)
  | .object fields => object (OrderedMap.ofList (ofJsonFields fields)).entries

/-- The items of a JSON list. -/
def ofJsonItems : List Json.Value → List Datum
  | [] => []
  | v :: rest => ofJson v :: ofJsonItems rest

/-- The fields of a JSON object. -/
def ofJsonFields : List (Text × Json.Value) → List (Text × Datum)
  | [] => []
  | (name, v) :: rest => (name, ofJson v) :: ofJsonFields rest

end

/-! ## Section 2: kinds -/

/-- The name of a datum's kind, for messages. -/
def kind : Datum → String
  | .null => "NoneType"
  | .bool _ => "bool"
  | .whole _ => "int"
  | .double _ => "float"
  | .text _ => "str"
  | .bytes _ => "bytes"
  | .operation _ => "CostType"
  | .list _ => "list"
  | .tuple _ => "tuple"
  | .record _ => "dict"
  | .sample _ _ => "Sample"

/-- The text of a datum that is text; a host operation is its identifier. -/
def asText? : Datum → Option Text
  | .text t => some t
  | .operation o => some (o.identifier : Text)
  | _ => none

/-- The elements of a datum: a text has its codes, bytes their values, a
    record its keys. -/
def elements? : Datum → Option (List Datum)
  | .text t => some (t.parts.map .text)
  | .bytes content => some (content.map fun b => .whole b.toNat)
  | .operation o => some ((o.identifier : Text).parts.map .text)
  | .list items => some items
  | .tuple items => some items
  | .record fields => some (fields.map Prod.fst)
  | .sample size cost => some [size, cost]
  | _ => none

/-- A datum without elements. -/
structure IterationFault where
  kind : String

def IterationFault.message (fault : IterationFault) : String :=
  s!"'{fault.kind}' object is not iterable"

/-- The elements of a datum, or a fault. -/
def elements (d : Datum) : Except IterationFault (List Datum) :=
  match d.elements? with
  | some items => .ok items
  | none => .error ⟨d.kind⟩

/-- Holds something: the values that count as unset are null, false, zero and
    everything empty. -/
def isSet : Datum → Bool
  | .null => false
  | .bool b => b
  | .whole n => n ≠ 0
  | .double x => !x.same 0
  | .text t => t ≠ ""
  | .bytes content => !content.isEmpty
  | .operation _ => true
  | .list items => !items.isEmpty
  | .tuple items => !items.isEmpty
  | .record fields => !fields.isEmpty
  | .sample _ _ => true

/-! ## Section 3: text -/

mutual

/-- The form in which messages show a datum. -/
def shown : Datum → String
  | .null => "None"
  | .bool b => if b then "True" else "False"
  | .whole n => toString n
  | .double x => x.text
  | .text t => Text.quoted t
  | .bytes content => Text.quotedBytes content
  | .operation o => "<CostType." ++ o.label ++ ": " ++ Text.quoted o.identifier ++ ">"
  | .list items => "[" ++ ", ".intercalate (shownItems items) ++ "]"
  | .tuple [d] => "(" ++ shown d ++ ",)"
  | .tuple items => "(" ++ ", ".intercalate (shownItems items) ++ ")"
  | .record fields => "\x7b" ++ ", ".intercalate (shownFields fields) ++ "\x7d"
  | .sample size cost => "Sample(size=" ++ shown size ++ ", cost=" ++ shown cost ++ ")"

def shownItems : List Datum → List String
  | [] => []
  | d :: rest => shown d :: shownItems rest

def shownFields : List (Datum × Datum) → List String
  | [] => []
  | (key, d) :: rest => (shown key ++ ": " ++ shown d) :: shownFields rest

end

/-- The plain form, in which text stands for itself. -/
def plain (d : Datum) : Text := d.asText?.getD d.shown

mutual

/-- Holds no integer beyond the digit limit. -/
def isWritable : Datum → Bool
  | .whole n => Numeral.isWritable n
  | .list items => areWritable items
  | .tuple items => areWritable items
  | .record fields => fieldsWritable fields
  | .sample size cost => isWritable size && isWritable cost
  | _ => true

/-- No item holds an integer beyond the digit limit. -/
def areWritable : List Datum → Bool
  | [] => true
  | d :: rest => isWritable d && areWritable rest

/-- No field holds an integer beyond the digit limit. -/
def fieldsWritable : List (Datum × Datum) → Bool
  | [] => true
  | (key, d) :: rest => isWritable key && isWritable d && fieldsWritable rest

end

mutual

/-- How many calls are nested when a datum is shown: one for each level, two
    for a sample and three for a host operation, which have methods for it. -/
def depth : Datum → Nat
  | .operation _ => 3
  | .list items => 1 + depthOfItems items
  | .tuple items => 1 + depthOfItems items
  | .record fields => 1 + depthOfFields fields
  | .sample size cost => 2 + max (depth size) (depth cost)
  | _ => 1

/-- How many calls are nested when one of some items is shown. -/
def depthOfItems : List Datum → Nat
  | [] => 0
  | d :: rest => max (depth d) (depthOfItems rest)

/-- How many calls are nested when one of some fields is shown. -/
def depthOfFields : List (Datum × Datum) → Nat
  | [] => 0
  | (key, d) :: rest => max (max (depth key) (depth d)) (depthOfFields rest)

end

/-- Why a datum is not shown. -/
inductive ShowFault where
  | tooLong
  | tooDeep
  deriving DecidableEq

/-- The name under which a show fault is reported. -/
def ShowFault.name : ShowFault → String
  | .tooLong => "ValueError"
  | .tooDeep => "RecursionError"

def ShowFault.message : ShowFault → String
  | .tooLong => Numeral.tooLongToWrite
  | .tooDeep => "maximum recursion depth exceeded while getting the repr of an object"

mutual

/-- The first fault that is met when a datum is shown where there is room for
    so many nested calls. -/
def showFault? : Datum → (room : Nat) → Option ShowFault
  | .whole n, room =>
    if room = 0 then some .tooDeep else if Numeral.isWritable n then none else some .tooLong
  | .operation _, room => if room < 3 then some .tooDeep else none
  | .list items, room => if room = 0 then some .tooDeep else itemsFault? items (room - 1)
  | .tuple items, room => if room = 0 then some .tooDeep else itemsFault? items (room - 1)
  | .record fields, room => if room = 0 then some .tooDeep else fieldsFault? fields (room - 1)
  | .sample size cost, room =>
    if room < 2 then some .tooDeep
    else (showFault? size (room - 2)).or (showFault? cost (room - 2))
  | _, room => if room = 0 then some .tooDeep else none

/-- The first fault of some items. -/
def itemsFault? : List Datum → (room : Nat) → Option ShowFault
  | [], _ => none
  | d :: rest, room => (showFault? d room).or (itemsFault? rest room)

/-- The first fault of some fields. -/
def fieldsFault? : List (Datum × Datum) → (room : Nat) → Option ShowFault
  | [], _ => none
  | (key, d) :: rest, room =>
    ((showFault? key room).or (showFault? d room)).or (fieldsFault? rest room)

end

/-- The room for nested calls that is left where a message is put together.
    It depends on the interpreter and on what has called the program, and is
    enough for what has no parts. -/
class CallRoom where
  levels : Nat
  three_le : 3 ≤ levels

namespace CallRoom

/-- The room where an interpreter that allows 1000 calls runs the program. -/
scoped instance usual : CallRoom := ⟨990, Nat.le_of_ble_eq_true rfl⟩

end CallRoom

/-- The shown form, or why there is none. -/
def shown? [CallRoom] (d : Datum) : Except ShowFault String :=
  match d.showFault? CallRoom.levels with
  | none => .ok d.shown
  | some fault => .error fault

/-- Why a datum has no plain form.  Text stands for itself at any room. -/
def plainFault? [CallRoom] (d : Datum) : Option ShowFault :=
  match d.asText? with
  | some _ => none
  | none => d.showFault? CallRoom.levels

/-- The plain form, or why there is none. -/
def plain? [CallRoom] (d : Datum) : Except ShowFault Text :=
  match d.plainFault? with
  | none => .ok d.plain
  | some fault => .error fault

/-! ## Section 4: keys -/

mutual

/-- The kind of the first part that keeps a datum from being a key. -/
def unusableKey? : Datum → Option String
  | .list _ => some "list"
  | .record _ => some "dict"
  | .tuple items => unusableItem? items
  | .sample size cost => (unusableKey? size).or (unusableKey? cost)
  | _ => none

/-- The kind of the first part of some items that cannot be part of a key. -/
def unusableItem? : List Datum → Option String
  | [] => none
  | d :: rest => (unusableKey? d).or (unusableItem? rest)

end

/-- The exact value of a datum that counts as a number. -/
def number? : Datum → Option Rat
  | .bool b => some (if b then 1 else 0)
  | .whole n => some n
  | .double x => if x.isFinite then some x.toRat else none
  | _ => none

mutual

/-- One key: numbers by value, text and host operations by identifier, pairs
    and tuples by their parts. -/
def sameKey : Datum → Datum → Bool
  | .null, .null => true
  | .double (.infinite a), .double (.infinite b) => a == b
  | .bytes a, .bytes b => a == b
  | .tuple as, .tuple bs => sameKeys as bs
  | .tuple as, .sample c d => sameKeys as [c, d]
  | .sample a b, .tuple [c, d] => sameKey a c && sameKey b d
  | .sample a b, .sample c d => sameKey a c && sameKey b d
  | a, b =>
    match a.asText?, b.asText? with
    | some s, some t => s == t
    | none, none =>
      match a.number?, b.number? with
      | some p, some q => decide (p = q)
      | _, _ => false
    | _, _ => false

/-- The same keys in the same order. -/
def sameKeys : List Datum → List Datum → Bool
  | [], [] => true
  | a :: as, b :: bs => sameKey a b && sameKeys as bs
  | _, _ => false

end

instance : BEq Datum := ⟨sameKey⟩

/-- A datum that cannot be a key, by the kind of its unusable part. -/
structure KeyFault where
  kind : String

def KeyFault.message (fault : KeyFault) : String := s!"unhashable type: '{fault.kind}'"

/-- The map with a value at a key. -/
def insertKey {β : Type} (m : OrderedMap Datum β) (key : Datum) (value : β) :
    Except KeyFault (OrderedMap Datum β) :=
  match key.unusableKey? with
  | some kind => .error ⟨kind⟩
  | none => .ok (m.insert key value)

/-- The map of some pairs, taken from the left. -/
def mapOf {β : Type} (pairs : List (Datum × β)) : Except KeyFault (OrderedMap Datum β) :=
  pairs.foldlM (fun m (key, value) => insertKey m key value) OrderedMap.empty

/-! ## Section 5: fields -/

/-- The field of a record, or nothing if there is no such field. -/
def field? (name : Text) (fields : List (Datum × Datum)) : Option Datum :=
  (fields.find? fun f => f.1 == .text name).map Prod.snd

end Datum
end CalibratedCosts
