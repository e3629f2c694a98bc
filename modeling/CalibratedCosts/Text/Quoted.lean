import CalibratedCosts.Text.Basic
import CalibratedCosts.Text.Digit
import CalibratedCosts.Text.Printable

/-! # Quoted text

    The quoted form in which messages show text: single quotes, or double
    quotes around text that holds a single quote and no double one.  The
    quote itself, the backslash and everything unprintable is escaped, and so
    is half of a surrogate pair.  Bytes are quoted as the ASCII text they are,
    with all others escaped.
-/

namespace CalibratedCosts.Text

/-- The quote that goes around a text. -/
def quoteFor (codes : List Code) : Char :=
  if codes.contains (.char '\'') && !codes.contains (.char '"') then '"' else '\''

/-- An unprintable character by its code, in two, four or eight digits. -/
def codeEscape (c : Char) : List Char :=
  if c.toNat ≤ 0xff then '\\' :: 'x' :: hexDigits 2 c.toNat
  else if c.toNat ≤ 0xffff then '\\' :: 'u' :: hexDigits 4 c.toNat
  else '\\' :: 'U' :: hexDigits 8 c.toNat

/-- One character between the given quotes. -/
def quotedChar (quote c : Char) : List Char :=
  if c = quote ∨ c = '\\' then ['\\', c]
  else if c = '\n' then ['\\', 'n']
  else if c = '\r' then ['\\', 'r']
  else if c = '\t' then ['\\', 't']
  else if isPrintable c then [c]
  else codeEscape c

/-- One code between the given quotes. -/
def quotedCode (quote : Char) : Code → List Char
  | .char c => quotedChar quote c
  | .half distance => '\\' :: 'u' :: hexDigits 4 (Code.half distance).number

/-- The quoted form of a text. -/
def quoted (t : Text) : String :=
  let quote := quoteFor t.codes
  String.ofList (quote :: t.codes.flatMap (quotedCode quote) ++ [quote])

/-- One byte between the given quotes. -/
def quotedByte (quote : Char) (b : UInt8) : List Char :=
  if b < 0x80 then quotedChar quote (Char.ofNat b.toNat) else '\\' :: 'x' :: hexDigits 2 b.toNat

/-- The quoted form of bytes. -/
def quotedBytes (content : List UInt8) : String :=
  let quote := quoteFor (content.map fun b => .char (Char.ofNat b.toNat))
  String.ofList ('b' :: quote :: content.flatMap (quotedByte quote) ++ [quote])

end CalibratedCosts.Text
