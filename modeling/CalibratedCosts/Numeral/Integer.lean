import CalibratedCosts.Text.Blank
import CalibratedCosts.Text.Digit

/-! # Integer numerals

    Integers are written in decimal.  A numeral that is read may be
    surrounded by blanks, may have a sign, may use the digits of any script
    and may have single underscores between digits.  Conversion between text
    and integers is limited to `digitLimit` digits in both directions.
-/

namespace CalibratedCosts.Numeral

/-! ## Section 1: the digit limit -/

/-- The longest decimal numeral that is converted. -/
def digitLimit : Nat := 4300

/-- Writable as a decimal numeral within the digit limit. -/
def isWritable (n : Int) : Bool := n.natAbs < Nat.pow 10 digitLimit

/-- The wording of the limit. -/
def limitText : String := s!"Exceeds the limit ({digitLimit} digits) for integer string conversion"

/-- The wording of the way out. -/
def limitAdvice : String := "use sys.set_int_max_str_digits() to increase the limit"

/-- The wording for a numeral of `count` digits that is too long to read. -/
def tooLongToRead (count : Nat) : String :=
  s!"{limitText}: value has {count} digits; {limitAdvice}"

/-- The wording for an integer that is too long to write. -/
def tooLongToWrite : String := s!"{limitText}; {limitAdvice}"

/-! ## Section 2: reading -/

/-- Why a text is not read as an integer. -/
inductive ReadingFault where
  | notANumeral
  | tooLong (digits : Nat)
  deriving DecidableEq

/-- The digits at the front of a text, the last one first, and what follows
    them.  A single underscore may stand between two digits; an underscore
    anywhere else is left in what follows. -/
def digitRun (digit? : Char → Option Nat) (passed : List Nat) : List Char → List Nat × List Char
  | '_' :: c :: rest =>
    match digit? c with
    | some d => if passed.isEmpty then ([], '_' :: c :: rest) else digitRun digit? (d :: passed) rest
    | none => (passed, '_' :: c :: rest)
  | c :: rest =>
    match digit? c with
    | some d => digitRun digit? (d :: passed) rest
    | none => (passed, c :: rest)
  | [] => (passed, [])

/-- The number that digits denote, the last digit coming first. -/
def valueOfDigits (reversed : List Nat) : Nat :=
  reversed.foldr (fun d n => n * 10 + d) 0

/-- Splits a sign off the front of a text. -/
def splitSign : List Char → Bool × List Char
  | '-' :: rest => (true, rest)
  | '+' :: rest => (false, rest)
  | cs => (false, cs)

/-- The integer that a text denotes. -/
def readInteger (s : String) : Except ReadingFault Int :=
  let (negative, body) := splitSign (s.toList.dropWhile Text.isNumeralBlank)
  let (digits, rest) := digitRun Text.digitValue? [] body
  if digits.isEmpty || rest.head? = some '_' then .error .notANumeral
  else if digitLimit < digits.length then .error (.tooLong digits.length)
  else if !rest.all Text.isNumeralBlank then .error .notANumeral
  else
    let magnitude : Int := valueOfDigits digits
    .ok (if negative then -magnitude else magnitude)

end CalibratedCosts.Numeral
