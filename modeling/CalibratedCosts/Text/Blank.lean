/-! # Blank characters

    The white space of Unicode.  Two classes are in use: `isBlank` for text in
    general, and `isNumeralBlank` for what may surround a numeral, which
    leaves the four information separators out.
-/

namespace CalibratedCosts.Text

/-- Runs of blank characters, as first and last code point. -/
def blankRuns : List (Nat × Nat) :=
  [(0x09, 0x0d), (0x1c, 0x20), (0x85, 0x85), (0xa0, 0xa0), (0x1680, 0x1680),
   (0x2000, 0x200a), (0x2028, 0x2029), (0x202f, 0x202f), (0x205f, 0x205f), (0x3000, 0x3000)]

/-- White space, the information separators included. -/
def isBlank (c : Char) : Bool :=
  blankRuns.any fun (first, last) => first ≤ c.toNat && c.toNat ≤ last

/-- White space that may surround a numeral. -/
def isNumeralBlank (c : Char) : Bool :=
  isBlank c && !(0x1c ≤ c.toNat && c.toNat ≤ 0x1f)

/-- Drops the characters of a class from both ends. -/
def trimBoth (dropped : Char → Bool) (cs : List Char) : List Char :=
  ((cs.dropWhile dropped).reverse.dropWhile dropped).reverse

/-- Nothing but blanks. -/
def allBlank (s : String) : Bool := s.toList.all isBlank

end CalibratedCosts.Text
