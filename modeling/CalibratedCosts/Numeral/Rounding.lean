/-! # Rounding exact fractions

    Every inexact step of this library is an exact fraction followed by one
    rounding.  This file holds the two ingredients that all of them share:

    * `nearestInteger`: the integer nearest to a fraction, a half going to
      the even neighbour;
    * `binaryMagnitude` and `decimalMagnitude`: the exponent of the largest
      power of two (of ten) that does not exceed a positive fraction.
-/

namespace CalibratedCosts

/-! ## Section 1: nearest integer -/

/-- The integer nearest to `q`; a half goes to the even neighbour. -/
def nearestInteger (q : Rat) : Int :=
  let below := q.floor
  let rest := q - below
  if rest < 1 / 2 then below
  else if 1 / 2 < rest then below + 1
  else if below % 2 = 0 then below
  else below + 1

/-! ## Section 2: magnitudes -/

/-- The number of decimal digits of `n`. -/
def decimalLength (n : Nat) : Nat := (Nat.repr n).length

/-- For positive `q`, the `k` with `2 ^ k ≤ q < 2 ^ (k + 1)`.  The bit lengths
    of numerator and denominator leave two candidates. -/
def binaryMagnitude (q : Rat) : Int :=
  let k : Int := (Nat.log2 q.num.natAbs : Int) - (Nat.log2 q.den : Int)
  if (2 : Rat) ^ k ≤ q then k else k - 1

/-- For positive `q`, the `k` with `10 ^ k ≤ q < 10 ^ (k + 1)`.  The digit
    counts of numerator and denominator leave two candidates. -/
def decimalMagnitude (q : Rat) : Int :=
  let k : Int := (decimalLength q.num.natAbs : Int) - (decimalLength q.den : Int)
  if (10 : Rat) ^ k ≤ q then k else k - 1

end CalibratedCosts
