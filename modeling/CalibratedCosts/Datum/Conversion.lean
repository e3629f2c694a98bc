import CalibratedCosts.Binary64.Numeral
import CalibratedCosts.Datum

/-! # Conversions of unchecked data

    Reading a datum as an integer, as a number, or as a record with a given
    field, with the fault that says why it is not one.
-/

namespace CalibratedCosts

/-! ## Section 1: integers -/

/-- Why a datum is not converted to an integer. -/
inductive IntegerFault where
  | notANumber (kind : String)
  | nan
  | infinite
  | notANumeral (shown : String)
  | tooLong (digits : Nat)

def IntegerFault.message : IntegerFault → String
  | .notANumber kind =>
    s!"int() argument must be a string, a bytes-like object or a real number, not '{kind}'"
  | .nan => "cannot convert float NaN to integer"
  | .infinite => "cannot convert float infinity to integer"
  | .notANumeral shown =>
    "invalid literal for int() with base 10: " ++ String.ofList (shown.toList.take 200)
  | .tooLong digits => Numeral.tooLongToRead digits

/-- The integer that a text denotes, shown in messages as given. -/
def integerOfText (shown s : String) : Except IntegerFault Int :=
  match Numeral.readInteger s with
  | .ok n => .ok n
  | .error .notANumeral => .error (.notANumeral shown)
  | .error (.tooLong digits) => .error (.tooLong digits)

/-- The ASCII character of a byte.  All other bytes are like no character of a
    numeral. -/
def asciiOfByte (b : UInt8) : Char := if b < 0x80 then Char.ofNat b.toNat else '\ufffd'

/-- The integer that bytes denote as an ASCII numeral. -/
def integerOfBytes (content : List UInt8) : Except IntegerFault Int :=
  integerOfText (Text.quotedBytes (content.take 200)) (String.ofList (content.map asciiOfByte))

namespace Datum

/-- The integer that a datum denotes; a number is cut off at the point. -/
def toInteger (d : Datum) : Except IntegerFault Int :=
  match d with
  | .bool b => .ok (if b then 1 else 0)
  | .whole n => .ok n
  | .double .nan => .error .nan
  | .double (.infinite _) => .error .infinite
  | .double x =>
    let q := x.toRat
    .ok (if q < 0 then q.ceil else q.floor)
  | .text t => integerOfText d.shown t.toString
  | .bytes content => integerOfBytes content
  | .operation o => integerOfText d.shown o.identifier
  | d => .error (.notANumber d.kind)

end Datum

/-! ## Section 2: numbers -/

/-- A text that denotes no number. -/
structure NumeralFault where
  text : String

def NumeralFault.message (fault : NumeralFault) : String :=
  s!"could not convert string to float: {Text.quoted fault.text}"

/-- The double precision number that a text denotes. -/
def doubleOfText (s : String) : Except NumeralFault Binary64 :=
  match Binary64.ofText? s with
  | some x => .ok x
  | none => .error ⟨s⟩

/-! ## Section 3: fields -/

/-- Why a datum has no field of a given name: it is a record without it, a
    value without parts, or a sequence, whose parts have no names. -/
inductive FieldFault where
  | missing (name : String)
  | noParts (kind : String)
  | listParts
  | pairParts
  | textParts
  | byteParts

def FieldFault.message : FieldFault → String
  | .missing name => Text.quoted name
  | .noParts kind => s!"'{kind}' object is not subscriptable"
  | .listParts => "list indices must be integers or slices, not str"
  | .pairParts => "tuple indices must be integers or slices, not str"
  | .textParts => "string indices must be integers, not 'str'"
  | .byteParts => "byte indices must be integers or slices, not str"

/-- The field of a given name. -/
def Datum.field (name : String) : Datum → Except FieldFault Datum
  | .record fields =>
    match Datum.field? name fields with
    | some d => .ok d
    | none => .error (.missing name)
  | .list _ => .error .listParts
  | .sample _ _ | .tuple _ => .error .pairParts
  | .text _ | .operation _ => .error .textParts
  | .bytes _ => .error .byteParts
  | d => .error (.noParts d.kind)

end CalibratedCosts
