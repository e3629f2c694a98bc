import CalibratedCosts.Binary64.Decimal
import CalibratedCosts.Binary64.Numeral
import CalibratedCosts.Datum.Conversion
import CalibratedCosts.Numeral.Quantity
import CalibratedCosts.Text.Utf8

/-! # Cells

    What a column of the calibration store holds: an integer of 64 bits, a
    number of double precision, text, or bytes.

    * **Binding**: a value from outside goes into a cell only if it is of one
      of these kinds and small enough.
    * **Preference**: every column prefers one kind.  A cell takes that kind
      if it loses nothing by it, and stays as it is otherwise.
    * **Fetching**: a cell gives its value back, unless it is text that is no
      UTF-8.  The library writes no such text, but other programs can.
-/

namespace CalibratedCosts.Store

/-- The content of a column that prefers text: it has no numbers. -/
inductive TextCell where
  | text (s : String)
  | malformed (content : List UInt8) (undecodable : (Text.Utf8.decode content).isOk = false)
  | blob (content : List UInt8)
  deriving DecidableEq

/-- The content of a column that is not null. -/
inductive Cell where
  | integer (n : Int)
  | real (x : Binary64)
  | other (c : TextCell)
  deriving DecidableEq

/-- A cell that holds a string. -/
@[match_pattern]
abbrev Cell.text (s : String) : Cell := .other (.text s)

instance : Inhabited Cell := ⟨.integer 0⟩

instance : Coe String TextCell := ⟨.text⟩

/-! ## Section 1: binding -/

/-- Why a value goes into no cell. -/
inductive BindFault where
  | integerTooLarge
  | textTooLarge
  | unencodable (fault : Text.Utf8.EncodeFault)
  | unsupported (kind : String)
  deriving DecidableEq

def BindFault.message : BindFault → String
  | .integerTooLarge => "Python int too large to convert to SQLite INTEGER"
  | .textTooLarge => "string or blob too big"
  | .unencodable fault => fault.message
  | .unsupported kind => s!"Error binding parameter 1: type '{kind}' is not supported"

/-- The largest integer of a cell. -/
def integerLimit : Int := 0x7fffffffffffffff

/-- The integer fits into a cell. -/
def fitsCell (n : Int) : Bool := -integerLimit - 1 ≤ n && n ≤ integerLimit

/-- The longest text of a cell, in bytes. -/
def textLimit : Nat := 1000000000

/-- The integer, if it fits into a cell. -/
def bindInteger (n : Int) : Except BindFault Int :=
  if fitsCell n then .ok n else .error .integerTooLarge

/-- The string of a text, if it fits into a cell. -/
def bindText (t : Text) : Except BindFault String :=
  match Text.Utf8.encodable t with
  | .error fault => .error (.unencodable fault)
  | .ok s => if s.utf8ByteSize ≤ textLimit then .ok s else .error .textTooLarge

namespace Cell

/-- The cell of a value; a NaN counts as null. -/
def ofDatum : Datum → Except BindFault (Option Cell)
  | .null => .ok none
  | .bool b => .ok (some (.integer b.toInt))
  | .whole n => (bindInteger n).map fun n => some (.integer n)
  | .double .nan => .ok none
  | .double x => .ok (some (.real x))
  | .text t => (bindText t).map fun s => some (.text s)
  | .bytes content =>
    if content.length ≤ textLimit then .ok (some (.other (.blob content)))
    else .error .textTooLarge
  | .operation o => .ok (some (.text o.identifier))
  | d => .error (.unsupported d.kind)

/-! ## Section 2: numerals -/

/-- The blanks around a numeral in a cell. -/
def isSpace (c : Char) : Bool := c = ' ' || ('\t' ≤ c && c ≤ '\r')

/-- The number that a string denotes: an integer, if it has digits only and
    fits, or else one of double precision. -/
def ofNumeral? (s : String) : Option Cell :=
  let (negative, body) := Numeral.splitSign (Text.trimBoth isSpace s.toList)
  -- The underscores of other numerals have no place here.
  match if body.contains '_' then none else Binary64.readParts Text.asciiDigit? body with
  | some (parts, []) =>
    let magnitude : Int := Numeral.valueOfDigits parts.whole
    let n := if negative then -magnitude else magnitude
    if body.all Char.isDigit && fitsCell n then some (.integer n)
    else some (.real (parts.toBinary64 negative))
  | _ => none

/-- The integer that a number is, if it is one inside the limits. -/
def wholeOf? (x : Binary64) : Option Int :=
  let q := x.toRat
  if x.isFinite && q.den = 1 && decide (-integerLimit - 1 < q.num) && decide (q.num < integerLimit) then
    some q.num
  else none

/-- The nearest integer; a half goes up. -/
def roundHalfUp (q : Rat) : Int := (q + 1 / 2).floor

/-- The text of a number: fifteen significant digits, with an exponent for
    magnitudes outside of `10 ^ -4` to `10 ^ 15`. -/
def realText : Binary64 → String
  | .nan => ""
  | .infinite negative => if negative then "-Inf" else "Inf"
  | .finite negative m e h =>
    if m = 0 then "0.0"
    else
      let (digits, leading) :=
        Binary64.roundedDigits roundHalfUp 14 (Binary64.finite false m e h).toRat
      let shown := ((Nat.repr digits).toList.reverse.dropWhile (· = '0')).reverse
      let s : Binary64.Significand := ⟨shown, leading⟩
      -- A single digit has a zero behind its point, also before an exponent.
      let padded : Binary64.Significand := ⟨if shown.length = 1 then shown ++ ['0'] else shown, leading⟩
      (if negative then "-" else "") ++
        if -4 ≤ leading ∧ leading < 15 then s.positional else padded.withExponent

/-! ## Section 3: preferences -/

/-- The number of a cell whose column prefers double precision.  There is one
    zero only. -/
def preferReal : Cell → Cell
  | .integer n => .real (Binary64.ofInt n)
  | .real x => .real (if x.same 0 then 0 else x)
  | .text s =>
    match ofNumeral? s with
    | some (.integer n) => .real (Binary64.ofInt n)
    | some (.real x) => .real (if x.same 0 then 0 else x)
    | _ => .text s
  | c => c

/-- A number as an integer, if it is one. -/
def integerOrReal (x : Binary64) : Cell :=
  match wholeOf? x with
  | some n => .integer n
  | none => .real x

/-- A cell whose column prefers integers. -/
def preferInteger : Cell → Cell
  | .integer n => .integer n
  | .real x => integerOrReal x
  | .text s =>
    match ofNumeral? s with
    | some (.integer n) => .integer n
    | some (.real x) => integerOrReal x
    | _ => .text s
  | c => c

/-- A cell whose column prefers text. -/
def preferText : Cell → TextCell
  | .integer n => .text (toString n)
  | .real x => .text (realText x)
  | .other c => c

end Cell

/-! ## Section 4: fetching -/

/-- A column whose text is no UTF-8. -/
structure TextFault where
  column : String
  content : List UInt8
  deriving DecidableEq

def TextFault.message (fault : TextFault) : String :=
  let content := (fault.content.takeWhile (· ≠ 0)).map asciiOfByte
  let message := s!"Could not decode to UTF-8 column '{fault.column}' with text '"
    ++ String.ofList content ++ "'"
  String.ofList (message.toList.take 510)

namespace TextCell

/-- The value that the cell of a column gives back. -/
def fetch (column : String) : TextCell → Except TextFault Datum
  | .text s => .ok (.text s)
  | .malformed content _ => .error ⟨column, content⟩
  | .blob content => .ok (.bytes content)

/-- The bytes of a cell. -/
def content : TextCell → List UInt8
  | .text s => Text.Utf8.encode s
  | .malformed content _ => content
  | .blob content => content

/-- The order of cells: text comes before bytes.  Among strings the bytes are
    in the order of the code points. -/
def upTo : TextCell → TextCell → Bool
  | .text s, .text t => decide (s ≤ t)
  | .blob a, .blob b => decide (a ≤ b)
  | .blob _, _ => false
  | _, .blob _ => true
  | c, d => decide (c.content ≤ d.content)

end TextCell

/-- The value that the cell of a column gives back. -/
def Cell.fetch (column : String) : Cell → Except TextFault Datum
  | .integer n => .ok (.whole n)
  | .real x => .ok (.double x)
  | .other c => c.fetch column

end CalibratedCosts.Store
