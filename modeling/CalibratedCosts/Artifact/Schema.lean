import CalibratedCosts.CostModel.Basic
import CalibratedCosts.Json.Reader
import CalibratedCosts.Table.Canonical

/-! # The schema of table artifacts

    A table artifact is a JSON object with a format version, the time of
    calibration, the fingerprint of the entries and the entries themselves.

    * **Strict parameters**: a parameter is a JSON integer of 64 bits and
      nothing that merely denotes one.
    * **Lenient version**: the format version may be anything that denotes an
      integer.
    * **Complaints**: all violations are reported, each with its place, in
      the order of the fields.
-/

namespace CalibratedCosts.Artifact

open Json (Value)

/-! ## Section 1: complaints -/

/-- What is wrong at a place of an artifact. -/
inductive Complaint where
  | notJson
  | rootNotAnObject
  | missing
  | notAString
  | notAnInteger
  | fractional
  | notFinite
  | notANumeral
  | tooLarge
  | entriesNotAnObject
  | negative
  | exceedsU64 (value : Int)

def Complaint.name : Complaint → String
  | .notJson => "json_invalid"
  | .rootNotAnObject => "model_type"
  | .missing => "missing"
  | .notAString => "string_type"
  | .notAnInteger => "int_type"
  | .fractional => "int_from_float"
  | .notFinite => "finite_number"
  | .notANumeral => "int_parsing"
  | .tooLarge => "int_parsing_size"
  | .entriesNotAnObject => "dict_type"
  | .negative => "greater_than_equal"
  | .exceedsU64 _ => "value_error"

def Complaint.message : Complaint → String
  | .notJson => "Invalid JSON"
  | .rootNotAnObject => "Input should be an object"
  | .missing => "Field required"
  | .notAString => "Input should be a valid string"
  | .notAnInteger => "Input should be a valid integer"
  | .fractional => "Input should be a valid integer, got a number with a fractional part"
  | .notFinite => "Input should be a finite number"
  | .notANumeral => "Input should be a valid integer, unable to parse string as an integer"
  | .tooLarge => "Unable to parse input string as an integer, exceeded maximum size"
  | .entriesNotAnObject => "Input should be an object"
  | .negative => "Input should be greater than or equal to 0"
  | .exceedsU64 value => s!"Value error, {value} exceeds u64 range"

/-- A complaint and its place. -/
structure Issue where
  complaint : Complaint
  place : List String

/-- The place of an issue as text. -/
def Issue.location (i : Issue) : String := ".".intercalate i.place

/-- A value, or what is wrong with it. -/
abbrev Checked (α : Type) := Except (List Issue) α

/-- Both values, or all that is wrong with them. -/
def both {α β : Type} (a : Checked α) (b : Checked β) : Checked (α × β) :=
  match a, b with
  | .ok a, .ok b => .ok (a, b)
  | .error issues, .ok _ => .error issues
  | .ok _, .error issues => .error issues
  | .error issues, .error more => .error (issues ++ more)

/-- A single complaint. -/
def complain {α : Type} (place : List String) (complaint : Complaint) : Checked α :=
  .error [⟨complaint, place⟩]

/-! ## Section 2: fields -/

/-- The field of a given name; of several the last one counts. -/
def lastField? (name : Text) (fields : List (Text × Value)) : Option Value :=
  (fields.reverse.find? fun f => f.1 == name).map Prod.snd

/-- A text without its zeros in front and the underscores among them.  One
    character of them stays before a point and at the end of the text. -/
def dropLeadingZeros (before : Char) : List Char → Option (List Char)
  | [] => some [before]
  | c :: rest =>
    if c = '0' || c = '_' then dropLeadingZeros c rest
    else if c = '.' then some (before :: c :: rest)
    else if c.isDigit || c = '-' then some (c :: rest)
    else none

/-- A text that begins with a digit, without superfluous zeros in front. -/
def dropPadding : List Char → Option (List Char)
  | '0' :: rest => dropLeadingZeros '0' rest
  | c :: rest => if c.isDigit then some (c :: rest) else none
  | [] => none

/-- Nothing but zeros, and at least one. -/
def isZeros (cs : List Char) : Bool := !cs.isEmpty && cs.all (· = '0')

/-- A text without its first point, if nothing but zeros follows. -/
def dropZeroFraction (cs : List Char) : List Char :=
  if isZeros ((cs.dropWhile (· ≠ '.')).drop 1) then cs.takeWhile (· ≠ '.') else cs

/-- Two underscores side by side. -/
def hasDoubleUnderscore (cs : List Char) : Bool :=
  (cs.zip (cs.drop 1)).any (· == ('_', '_'))

/-- A text without underscores, if each stands alone between two characters. -/
def dropUnderscores (cs : List Char) : List Char :=
  if cs.head? = some '_' || cs.getLast? = some '_' || hasDoubleUnderscore cs then cs
  else cs.filter (· ≠ '_')

/-- The number of digits without a zero in front. -/
def plainNatural? (cs : List Char) : Option Nat :=
  if cs.isEmpty || !cs.all Char.isDigit || (cs.head? = some '0' && cs ≠ ['0']) then none
  else if Numeral.digitLimit < cs.length then none
  else some (Numeral.valueOfDigits (cs.reverse.map fun c => c.toNat - '0'.toNat))

/-- The integer of digits without a zero in front and perhaps a minus. -/
def plainInteger? : List Char → Option Int
  | '-' :: digits => (plainNatural? digits).map fun n => -(n : Int)
  | digits => (plainNatural? digits).map fun n => (n : Int)

/-- The numeral without blanks, sign, padding, zero fraction and underscores,
    but with its minus. -/
def plainNumeral? (s : String) : Option (List Char) :=
  let plain (cs : List Char) : Option (List Char) :=
    (dropPadding cs).map fun cs => dropUnderscores (dropZeroFraction cs)
  match Text.trimBoth Text.isNumeralBlank s.toList with
  | '-' :: rest => (plain rest).map ('-' :: ·)
  | '+' :: rest => plain rest
  | cs => plain cs

/-- The digits at the front of a text, which may have a minus before them, are
    too many for a numeral. -/
def startsTooLong (cs : List Char) : Bool :=
  let digits :=
    match cs with
    | '-' :: rest => rest
    | cs => cs
  digits.head? ≠ some '0' && decide (Numeral.digitLimit < (digits.takeWhile Char.isDigit).length)

/-- The integer that a text denotes: digits with single underscores, a sign
    before them, a point and zeros behind them, blanks around it. -/
def versionOfText (s : String) : Except Complaint Int :=
  if startsTooLong s.toList then .error .tooLarge
  else
    -- What is left of a numeral after the trimming is written plainly.
    match (plainNumeral? s).bind plainInteger? with
    | some n => .ok n
    | none => .error .notANumeral

/-- The integer that a JSON value denotes. -/
def versionOf : Value → Except Complaint Int
  | .bool b => .ok (if b then 1 else 0)
  | .whole n => .ok n
  | .double x =>
    match x.value with
    | .finite q =>
      if q.den ≠ 1 then .error .fractional
      else if -0x8000000000000000 < q.num ∧ q.num < 0x8000000000000000 then .ok q.num
      else .error .tooLarge
    | _ => .error .notFinite
  | .text t => versionOfText t.toString
  | _ => .error .notAnInteger

/-- The format version; one if there is none. -/
def checkVersion (fields : List (Text × Value)) : Checked Int :=
  match lastField? "format_version" fields with
  | none => .ok 1
  | some v =>
    match versionOf v with
    | .ok n => .ok n
    | .error complaint => complain ["format_version"] complaint

/-- The time of calibration. -/
def checkTime (fields : List (Text × Value)) : Checked String :=
  match lastField? "calibrated_at" fields with
  | none => complain ["calibrated_at"] .missing
  | some (.text t) => .ok t.toString
  | some _ => complain ["calibrated_at"] .notAString

/-- The fingerprint, if there is one. -/
def checkFingerprint (fields : List (Text × Value)) : Checked (Option String) :=
  match lastField? "fingerprint" fields with
  | none | some .null => .ok none
  | some (.text t) => .ok (some t.toString)
  | some _ => complain ["fingerprint"] .notAString

/-! ## Section 3: entries -/

/-- A parameter of an entry. -/
def checkParameterField (name : String) (place : List String) (fields : List (Text × Value)) :
    Checked { n : Nat // n ≤ u64Max } :=
  match lastField? name fields with
  | none => complain (place ++ [name]) .missing
  | some (.whole n) =>
    if n < 0 then complain (place ++ [name]) .negative
    else if h : n.toNat ≤ u64Max then .ok ⟨n.toNat, h⟩
    else complain (place ++ [name]) (.exceedsU64 n)
  | some _ => complain (place ++ [name]) .notAnInteger

/-- The model of an entry. -/
def checkEntry (name : Text) (v : Value) : Checked QuantizedModel :=
  let place := ["entries", name.toString]
  match v with
  | .object fields =>
    (both (checkParameterField "const_param" place fields)
      (checkParameterField "lin_param" place fields)).map
      fun (const, lin) => .ofParameters const lin
  | _ => complain place .rootNotAnObject

/-- The models of all entries in text order, repeated names included. -/
def checkEntries : List (Text × Value) → Checked (List (Text × QuantizedModel))
  | [] => .ok []
  | (name, v) :: rest =>
    (both (checkEntry name v) (checkEntries rest)).map fun (model, models) =>
      (name, model) :: models

/-- The models of the field that holds the entries. -/
def checkEntriesField (fields : List (Text × Value)) : Checked (List (Text × QuantizedModel)) :=
  match lastField? "entries" fields with
  | none => complain ["entries"] .missing
  | some (.object entries) => checkEntries entries
  | some _ => complain ["entries"] .entriesNotAnObject

/-! ## Section 4: documents -/

/-- The content of an artifact. -/
structure Document where
  formatVersion : Int
  calibratedAt : String
  fingerprint : Option String
  entries : List (Text × QuantizedModel)

/-- The document that a JSON value describes. -/
def Document.ofJson (v : Value) : Checked Document :=
  match v with
  | .object fields =>
    (both (checkVersion fields)
      (both (checkTime fields)
        (both (checkFingerprint fields) (checkEntriesField fields)))).map
      fun (version, time, fingerprint, entries) => ⟨version, time, fingerprint, entries⟩
  | _ => complain [] .rootNotAnObject

/-- The document that a text describes. -/
def Document.ofText (text : List Char) : Checked Document :=
  match Json.read .strict text with
  | .error _ => complain [] .notJson
  | .ok v => Document.ofJson v

end CalibratedCosts.Artifact
