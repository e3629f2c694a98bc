import CalibratedCosts.Binary64.Basic
import CalibratedCosts.Numeral.Integer

/-! # Reading decimal numerals

    A numeral with a point or an exponent denotes an exact fraction and is
    read as the double precision number nearest to it.  Beside numerals the
    words for the infinite values and the NaN are read, in any case.
-/

namespace CalibratedCosts.Binary64

open Numeral Text

/-! ## Section 1: scaled integers -/

/-- The number nearest to `digits * 10 ^ exponent`.  Magnitudes far outside
    the format are settled without computing the power. -/
def ofDecimal (negative : Bool) (digits : Nat) (exponent : Int) : Binary64 :=
  let magnitude : Int := decimalLength digits + exponent
  if digits = 0 ∨ magnitude < -400 then signedZero negative
  else if 400 < magnitude then .infinite negative
  else
    let q := (digits : Rat) * (10 : Rat) ^ exponent
    ofSignedRat negative (if negative then -q else q)

/-! ## Section 2: the parts of a numeral -/

/-- The digits before the point, those after it, and the exponent. -/
structure Parts where
  whole : List Nat
  fraction : List Nat
  exponent : Int

/-- The number nearest to a numeral's value. -/
def Parts.toBinary64 (negative : Bool) (p : Parts) : Binary64 :=
  let digits := valueOfDigits (p.fraction ++ p.whole)
  ofDecimal negative digits (p.exponent - p.fraction.length)

/-- An exponent after its letter: a sign and at least one digit. -/
def readExponent (digit? : Char → Option Nat) (cs : List Char) : Option (Int × List Char) :=
  let (negative, body) := splitSign cs
  let (digits, rest) := digitRun digit? [] body
  if digits.isEmpty then none
  else
    let magnitude : Int := valueOfDigits digits
    some (if negative then -magnitude else magnitude, rest)

/-- An unsigned numeral at the front of a text, and what follows it.  Digits
    are needed on one side of the point at least. -/
def readParts (digit? : Char → Option Nat) (cs : List Char) : Option (Parts × List Char) :=
  let (whole, rest) := digitRun digit? [] cs
  let (fraction, rest) :=
    match rest with
    | '.' :: tail => digitRun digit? [] tail
    | _ => ([], rest)
  if whole.isEmpty && fraction.isEmpty then none
  else
    match rest with
    | 'e' :: tail | 'E' :: tail =>
      match readExponent digit? tail with
      | some (exponent, rest) => some (⟨whole, fraction, exponent⟩, rest)
      | none => some (⟨whole, fraction, 0⟩, rest)
    | _ => some (⟨whole, fraction, 0⟩, rest)

/-! ## Section 3: whole texts -/

/-- The words for values that have no numeral. -/
def ofWord? (negative : Bool) (cs : List Char) : Option Binary64 :=
  let word := String.ofList (cs.map Char.toLower)
  if word = "inf" ∨ word = "infinity" then some (.infinite negative)
  else if word = "nan" then some .nan
  else none

/-- The number that a text denotes, blanks around it aside. -/
def ofText? (s : String) : Option Binary64 :=
  let (negative, body) := splitSign (trimBoth isNumeralBlank s.toList)
  match ofWord? negative body with
  | some x => some x
  | none =>
    match readParts digitValue? body with
    | some (p, []) => some (p.toBinary64 negative)
    | _ => none

end CalibratedCosts.Binary64
