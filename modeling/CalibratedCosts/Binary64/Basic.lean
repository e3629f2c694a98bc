import CalibratedCosts.Numeral.Rounding

/-! # Double precision numbers

    The IEEE 754 binary64 format as a data type with exact meaning.

    * **Values**: a finite number is a sign, a mantissa below `2 ^ 53` and an
      exponent, in the one canonical form of the format, so that equality of
      the data is equality of the numbers (the two zeros apart).
    * **Rounding**: `ofRat` is the number nearest to a fraction, ties to the
      even mantissa; a fraction beyond the largest number is infinite.
    * **Arithmetic**: each operation on finite numbers is the exact result on
      fractions followed by `ofRat`.
-/

namespace CalibratedCosts

/-! ## Section 1: the format -/

/-- The canonical pairs of mantissa and exponent: normal numbers have all
    53 bits, and only the smallest exponent may go with fewer. -/
def IsCanonical (mantissa : Nat) (exponent : Int) : Prop :=
  mantissa < 0x20000000000000 ∧ -1074 ≤ exponent ∧ exponent ≤ 971 ∧
    (0x10000000000000 ≤ mantissa ∨ exponent = -1074)

instance (mantissa : Nat) (exponent : Int) : Decidable (IsCanonical mantissa exponent) := by
  unfold IsCanonical; infer_instance

/-- A double precision number. -/
inductive Binary64 where
  | nan
  | infinite (negative : Bool)
  | finite (negative : Bool) (mantissa : Nat) (exponent : Int)
      (canonical : IsCanonical mantissa exponent)
  deriving DecidableEq

namespace Binary64

/-- Zero, with a sign. -/
def signedZero (negative : Bool) : Binary64 :=
  .finite negative 0 (-1074) (by decide)

instance : Zero Binary64 := ⟨signedZero false⟩

instance : Inhabited Binary64 := ⟨0⟩

/-- The magnitude `mantissa * 2 ^ exponent` with a sign.  A pair outside the
    format stands for a magnitude above the largest number. -/
def ofMagnitude (negative : Bool) (mantissa : Nat) (exponent : Int) : Binary64 :=
  if h : IsCanonical mantissa exponent then .finite negative mantissa exponent h
  else .infinite negative

/-- The exact value of a finite number; the other values have none and
    count as zero. -/
def toRat : Binary64 → Rat
  | .finite negative mantissa exponent _ =>
    let magnitude := (mantissa : Rat) * (2 : Rat) ^ exponent
    if negative then -magnitude else magnitude
  | _ => 0

/-- Neither infinite nor a NaN. -/
def isFinite : Binary64 → Bool
  | .finite .. => true
  | _ => false

/-- The sign bit; a NaN has none. -/
def isNegative : Binary64 → Bool
  | .nan => false
  | .infinite negative => negative
  | .finite negative _ _ _ => negative

/-! ## Section 2: rounding -/

/-- The exponent at which a positive magnitude is rounded: 53 bits, but
    never below the smallest exponent. -/
def unitExponent (magnitude : Rat) : Int :=
  max (binaryMagnitude magnitude - 52) (-1074)

/-- Mantissa and exponent of the number nearest to a positive magnitude.
    A mantissa that rounds up to 54 bits is halved. -/
def roundMagnitude (magnitude : Rat) : Nat × Int :=
  let exponent := unitExponent magnitude
  let mantissa := (nearestInteger (magnitude / (2 : Rat) ^ exponent)).toNat
  -- Rounding up can only overflow to the next power of two.
  if mantissa = 0x20000000000000 then (0x10000000000000, exponent + 1) else (mantissa, exponent)

/-- The number nearest to `q`, ties to the even mantissa.  The sign of zero
    is given, since a fraction has none. -/
def ofSignedRat (negativeZero : Bool) (q : Rat) : Binary64 :=
  if q = 0 then signedZero negativeZero
  else
    let (mantissa, exponent) := roundMagnitude q.abs
    ofMagnitude (decide (q < 0)) mantissa exponent

/-- The number nearest to `q`, with positive zero. -/
def ofRat (q : Rat) : Binary64 := ofSignedRat false q

/-- The number nearest to an integer. -/
def ofInt (n : Int) : Binary64 := ofRat n

/-! ## Section 3: arithmetic -/

/-- The same number with the other sign. -/
def negate : Binary64 → Binary64
  | .nan => .nan
  | .infinite negative => .infinite (!negative)
  | .finite negative mantissa exponent h => .finite (!negative) mantissa exponent h

/-- The rounded sum.  An exact zero is positive unless both terms are
    negative. -/
def add : Binary64 → Binary64 → Binary64
  | .nan, _ => .nan
  | _, .nan => .nan
  | .infinite a, .infinite b => if a = b then .infinite a else .nan
  | .infinite a, .finite .. => .infinite a
  | .finite .., .infinite b => .infinite b
  | .finite a m e h, .finite b m' e' h' =>
    ofSignedRat (a && b)
      (toRat (.finite a m e h) + toRat (.finite b m' e' h'))

/-- The rounded product. -/
def mul : Binary64 → Binary64 → Binary64
  | .nan, _ => .nan
  | _, .nan => .nan
  | .infinite a, .infinite b => .infinite (a != b)
  | .infinite a, .finite b m _ _ => if m = 0 then .nan else .infinite (a != b)
  | .finite a m _ _, .infinite b => if m = 0 then .nan else .infinite (a != b)
  | .finite a m e h, .finite b m' e' h' =>
    ofSignedRat (a != b)
      (toRat (.finite a m e h) * toRat (.finite b m' e' h'))

/-- The rounded quotient. -/
def div : Binary64 → Binary64 → Binary64
  | .nan, _ => .nan
  | _, .nan => .nan
  | .infinite _, .infinite _ => .nan
  | .infinite a, .finite b .. => .infinite (a != b)
  | .finite a .., .infinite b => signedZero (a != b)
  | .finite a m e h, .finite b m' e' h' =>
    if m' = 0 then
      if m = 0 then .nan else .infinite (a != b)
    else
      ofSignedRat (a != b)
        (toRat (.finite a m e h) / toRat (.finite b m' e' h'))

instance : Neg Binary64 := ⟨negate⟩
instance : Add Binary64 := ⟨add⟩
instance : Sub Binary64 := ⟨fun x y => add x (negate y)⟩
instance : Mul Binary64 := ⟨mul⟩
instance : Div Binary64 := ⟨div⟩

/-! ## Section 4: comparison -/

/-- Strictly below; false when one side is a NaN. -/
def less : Binary64 → Binary64 → Bool
  | .nan, _ => false
  | _, .nan => false
  | .infinite a, .infinite b => a && !b
  | .infinite a, .finite .. => a
  | .finite .., .infinite b => !b
  | .finite a m e h, .finite b m' e' h' =>
    decide (toRat (.finite a m e h) < toRat (.finite b m' e' h'))

/-- The same number; the two zeros are the same and a NaN is no number. -/
def same : Binary64 → Binary64 → Bool
  | .infinite a, .infinite b => a == b
  | .finite a m e h, .finite b m' e' h' =>
    decide (toRat (.finite a m e h) = toRat (.finite b m' e' h'))
  | _, _ => false

end Binary64
end CalibratedCosts
