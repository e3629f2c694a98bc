import CalibratedCosts.Binary64.Basic

/-! # Decimal text of double precision numbers

    Three ways of writing a number, all computed exactly on its value:

    * `text`: the fewest digits that read back as the same number, of those
      the nearest; positional for magnitudes from `10 ^ -4` up to `10 ^ 16`,
      with an exponent outside;
    * `fixed`: a given number of places after the point;
    * `scientific`: a given number of places after the first digit.
-/

namespace CalibratedCosts.Binary64

/-! ## Section 1: shortest digits -/

/-- Significant digits of a positive number and the exponent of the first:
    the value is `d.ddd * 10 ^ magnitude`. -/
structure Significand where
  digits : List Char
  magnitude : Int

/-- Of the two neighbours of `q` on the decimal grid with `count` digits, one
    that reads back as `x`; the nearer one if both do. -/
def readsBackOn (x : Binary64) (q : Rat) (count : Nat) : Option Significand :=
  let grid := decimalMagnitude q + 1 - count
  let scaled := q / (10 : Rat) ^ grid
  let below := scaled.floor.toNat
  -- The nearer neighbour is tried first.
  let candidates := [(nearestInteger scaled).toNat, below, below + 1]
  (candidates.find? fun (n : Nat) => decide (ofRat (n * (10 : Rat) ^ grid) = x)).map fun n =>
    let digits := (Nat.repr n).toList
    { digits := (digits.reverse.dropWhile (· = '0')).reverse
      magnitude := grid + digits.length - 1 }

/-- The fewest digits that read back as the positive number `x` of value `q`;
    seventeen always suffice. -/
def shortest (x : Binary64) (q : Rat) : Significand :=
  ((List.range 17).findSome? fun i => readsBackOn x q (i + 1)).getD ⟨['0'], 0⟩

/-! ## Section 2: layouts -/

/-- A decimal exponent: a sign and at least two digits. -/
def exponentText (e : Int) : String :=
  let digits := Nat.repr e.natAbs
  (if e < 0 then "-" else "+") ++ (if digits.length < 2 then "0" ++ digits else digits)

/-- `d.ddde+xx`, without the point if there is one digit. -/
def Significand.withExponent (s : Significand) : String :=
  let rest := s.digits.drop 1
  String.ofList (s.digits.take 1 ++ (if rest.isEmpty then [] else '.' :: rest)) ++ "e"
    ++ exponentText s.magnitude

/-- All digits in place, with at least one after the point. -/
def Significand.positional (s : Significand) : String :=
  if s.magnitude < 0 then
    String.ofList ('0' :: '.' :: List.replicate (-s.magnitude - 1).toNat '0' ++ s.digits)
  else
    let whole := (s.magnitude + 1).toNat
    if s.digits.length ≤ whole then
      String.ofList (s.digits ++ List.replicate (whole - s.digits.length) '0' ++ ['.', '0'])
    else
      String.ofList (s.digits.take whole ++ '.' :: s.digits.drop whole)

/-- The layout of shortest digits. -/
def Significand.text (s : Significand) : String :=
  if -4 ≤ s.magnitude ∧ s.magnitude < 16 then s.positional else s.withExponent

/-- The text of an infinite number. -/
def infiniteText (negative : Bool) : String := if negative then "-inf" else "inf"

/-- The shortest text that reads back as the number. -/
def text : Binary64 → String
  | .nan => "nan"
  | .infinite negative => infiniteText negative
  | .finite negative m e h =>
    (if negative then "-" else "") ++
      if m = 0 then "0.0"
      else
        let x := Binary64.finite false m e h
        (shortest x x.toRat).text

/-! ## Section 3: rounded text -/

/-- `n` as a decimal with `places` digits after the point. -/
def pointed (n places : Nat) : String :=
  let digits := (Nat.repr n).toList
  let padded := List.replicate (places + 1 - digits.length) '0' ++ digits
  let whole := padded.length - places
  String.ofList (padded.take whole ++ '.' :: padded.drop whole)

/-- The number with `places` digits after the point, the exact value rounded
    to the nearest such decimal and ties to even. -/
def fixed (places : Nat) : Binary64 → String
  | .nan => "nan"
  | .infinite negative => infiniteText negative
  | .finite negative m e h =>
    let magnitude := (Binary64.finite false m e h).toRat
    (if negative then "-" else "") ++
      pointed (nearestInteger (magnitude * (10 : Rat) ^ places)).toNat places

/-- For positive `q`, the digits of the number with `places` digits after the
    first one that a rule of rounding gives, and the exponent of the first. -/
def roundedDigits (round : Rat → Int) (places : Nat) (q : Rat) : Nat × Int :=
  let leading := decimalMagnitude q
  let rounded := (round (q / (10 : Rat) ^ (leading - places))).toNat
  -- Nines all the way round up to one digit more.
  if rounded = Nat.pow 10 (places + 1) then (Nat.pow 10 places, leading + 1) else (rounded, leading)

/-- One digit, the point, `places` digits and an exponent, the exact value
    rounded to the nearest such decimal and ties to even. -/
def scientific (places : Nat) : Binary64 → String
  | .nan => "nan"
  | .infinite negative => infiniteText negative
  | .finite negative m e h =>
    let magnitude := (Binary64.finite false m e h).toRat
    let sign := if negative then "-" else ""
    if m = 0 then sign ++ pointed 0 places ++ "e+00"
    else
      let (digits, leading) := roundedDigits nearestInteger places magnitude
      sign ++ pointed digits places ++ "e" ++ exponentText leading

end CalibratedCosts.Binary64
