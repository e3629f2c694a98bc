import CalibratedCosts.Binary64.Decimal

/-! # Quantities

    Fitting and quantizing work on real numbers in two readings: exactly, on
    fractions, and in double precision.  `Quantity` is what both readings
    provide, so that each computation is written once.

    Comparisons are made on the exact value of a quantity, its `value`.
-/

namespace CalibratedCosts

/-! ## Section 1: exact values -/

/-- The exact value of a quantity, if it has one. -/
inductive Extended where
  | undefined
  | infinite (negative : Bool)
  | finite (q : Rat)

namespace Extended

/-- Strictly below; nothing is below or above an undefined value. -/
def less : Extended → Extended → Bool
  | .finite p, .finite q => decide (p < q)
  | .infinite a, .infinite b => a && !b
  | .infinite a, .finite _ => a
  | .finite _, .infinite b => !b
  | _, _ => false

/-- The same value; an undefined value is not the same as itself. -/
def same : Extended → Extended → Bool
  | .finite p, .finite q => decide (p = q)
  | .infinite a, .infinite b => a == b
  | _, _ => false

/-- Has a value that is a fraction. -/
def isFinite : Extended → Bool
  | .finite _ => true
  | _ => false

end Extended

/-! ## Section 2: quantities -/

/-- A reading of the real numbers. -/
class Quantity (α : Type) extends Zero α, Add α, Sub α, Mul α, Div α where
  /-- The quantity nearest to a fraction. -/
  ofRat : Rat → α
  /-- The exact value. -/
  value : α → Extended
  /-- The nearest quantity with one decimal digit, a tie going to the even
      digit. -/
  roundToTenth : α → α
  /-- The text in messages. -/
  text : α → String

namespace Quantity

variable {α : Type} [Quantity α]

/-- The quantity nearest to a natural number. -/
def ofNat (n : Nat) : α := ofRat (n : Rat)

/-- Strictly below. -/
def less (x y : α) : Bool := (value x).less (value y)

/-- Of the same value. -/
def same (x y : α) : Bool := (value x).same (value y)

/-- The sum from left to right. -/
def sum (xs : List α) : α := xs.foldl (· + ·) 0

/-- The smallest integer that is not below the quantity; zero for a quantity
    without a finite value. -/
def ceiling (x : α) : Int :=
  match value x with
  | .finite q => q.ceil
  | _ => 0

end Quantity

/-! ## Section 3: the two readings -/

/-- The nearest fraction with one decimal digit, a tie going to the even
    digit. -/
def nearestTenth (q : Rat) : Rat := (nearestInteger (10 * q) : Rat) / 10

instance : Quantity Rat where
  zero := 0
  ofRat q := q
  value q := .finite q
  roundToTenth := nearestTenth
  text q := if q.den = 1 then toString q.num else s!"{q.num}/{q.den}"

namespace Binary64

/-- The exact value of a number. -/
def value : Binary64 → Extended
  | .nan => .undefined
  | .infinite negative => .infinite negative
  | x => .finite x.toRat

/-- The number nearest to the decimal with one digit that is nearest to the
    exact value.  The sign stays, also that of a zero. -/
def roundToTenth : Binary64 → Binary64
  | .finite negative m e h =>
    ofSignedRat negative (nearestTenth (toRat (.finite negative m e h)))
  | x => x

end Binary64

instance : Quantity Binary64 where
  ofRat := Binary64.ofRat
  value := Binary64.value
  roundToTenth := Binary64.roundToTenth
  text := Binary64.text

/-! ## Section 4: numbers of either kind -/

/-- A number given as an exact integer or in double precision. -/
inductive Number where
  | whole (n : Int)
  | double (x : Binary64)

namespace Number

/-- The number in double precision; there is none for an integer that would
    have to be infinite. -/
def toDouble? : Number → Option Binary64
  | .double x => some x
  | .whole n => if (Binary64.ofInt n).isFinite then some (Binary64.ofInt n) else none

/-- The text in messages. -/
def text : Number → String
  | .whole n => toString n
  | .double x => x.text

end Number
end CalibratedCosts
