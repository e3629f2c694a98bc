/-! # Lines

    Text read from a file has `'\n'` for every line end.  It is cut into
    lines at every character that Unicode counts as a line boundary.
-/

namespace CalibratedCosts.Text

/-- Writes each line end, `\r\n` or `\r`, as `\n`. -/
def unifyLineEnds : List Char → List Char
  | '\r' :: '\n' :: rest => '\n' :: unifyLineEnds rest
  | '\r' :: rest => '\n' :: unifyLineEnds rest
  | c :: rest => c :: unifyLineEnds rest
  | [] => []

/-- The characters that end a line. -/
def isLineBreak (c : Char) : Bool :=
  let code := c.toNat
  (0x0a ≤ code && code ≤ 0x0d) || (0x1c ≤ code && code ≤ 0x1e) || code = 0x85
    || code = 0x2028 || code = 0x2029

/-- The lines of a text, where `line` is the part of the first one that has
    already been passed, in reverse.  A text that ends with a line break has
    no further empty line. -/
def linesAfter (line : List Char) : List Char → List (List Char)
  | [] => if line.isEmpty then [] else [line.reverse]
  | c :: rest =>
    if isLineBreak c then line.reverse :: linesAfter [] rest
    else linesAfter (c :: line) rest

/-- The lines of a text whose line ends are single characters. -/
def lines (cs : List Char) : List (List Char) := linesAfter [] cs

/-- Cuts a text at every occurrence of a separator; there is always one part
    more than there are separators. -/
def splitAt (separator : Char) : List Char → List (List Char)
  | [] => [[]]
  | c :: rest =>
    if c = separator then [] :: splitAt separator rest
    else
      match splitAt separator rest with
      | part :: parts => (c :: part) :: parts
      | [] => [[c]]

end CalibratedCosts.Text
