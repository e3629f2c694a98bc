import CalibratedCosts.Json.Value
import CalibratedCosts.Binary64.Numeral

/-! # Reading JSON

    A reader for JSON text that stops at the first fault and says where it
    is.

    * **Dialects**: `strict` refuses halves of surrogate pairs, which `lenient`
      takes as they are.  They differ also in how deep values can be nested
      and in which numerals can be too long.  Both read the words `NaN`,
      `Infinity` and `-Infinity`.
    * **Faults**: a fault carries the text from the faulty place on, from
      which line and column follow.
-/

namespace CalibratedCosts.Json

open Binary64 (Parts)

/-! ## Section 1: faults -/

/-- The rules in which readers of JSON differ. -/
inductive Dialect where
  | lenient
  | strict
  deriving DecidableEq

/-- How many containers can stand one inside the other. -/
def Dialect.depthLimit : Dialect → Nat
  | .lenient => 990
  | .strict => 200

/-- A value with parts. -/
inductive Container where
  | array
  | object
  deriving DecidableEq

def Container.name : Container → String
  | .array => "array"
  | .object => "object"

/-- What is wrong with a text. -/
inductive Problem where
  | valueExpected
  | nameExpected
  | colonExpected
  | commaExpected
  | unterminatedString
  | controlCharacter
  | badEscape
  | badUnicodeEscape
  | loneSurrogate
  | extraData
  | byteOrderMark
  | integerTooLong (digits : Nat)
  | tooDeep (container : Container)

/-- A problem, and the text from the place of the problem on. -/
structure Fault where
  problem : Problem
  rest : List Char

/-- A reading step: a value and the text after it, or a fault. -/
abbrev Step (α : Type) := Except Fault (α × List Char)

/-! ## Section 2: strings -/

/-- The number that four hexadecimal digits denote. -/
def codeUnit? (a b c d : Char) : Option Nat :=
  match Text.hexDigit? a, Text.hexDigit? b, Text.hexDigit? c, Text.hexDigit? d with
  | some a, some b, some c, some d => some (((a * 16 + b) * 16 + c) * 16 + d)
  | _, _, _, _ => none

/-- The first half of a surrogate pair. -/
def isHighSurrogate (unit : Nat) : Bool := 0xd800 ≤ unit && unit ≤ 0xdbff

/-- The second half of a surrogate pair. -/
def isLowSurrogate (unit : Nat) : Bool := 0xdc00 ≤ unit && unit ≤ 0xdfff

/-- The character of a surrogate pair. -/
def joinPair (high low : Nat) : Char :=
  Char.ofNat (0x10000 + (high - 0xd800) * 0x400 + (low - 0xdc00))

/-- The codes of a row of numbers, in which halves that follow each other as a
    pair are one character. -/
def joinPairs : List Nat → List Code
  | [] => []
  | [number] => [.ofNumber number]
  | high :: low :: rest =>
    if isHighSurrogate high && isLowSurrogate low then .char (joinPair high low) :: joinPairs rest
    else .ofNumber high :: joinPairs (low :: rest)

/-- The character that a one-letter escape stands for. -/
def shortEscape? : Char → Option Char
  | '"' => some '"'
  | '\\' => some '\\'
  | '/' => some '/'
  | 'b' => some '\x08'
  | 'f' => some '\x0c'
  | 'n' => some '\n'
  | 'r' => some '\r'
  | 't' => some '\t'
  | _ => none

/-- Puts a number in front of those that have been read. -/
def push (number : Nat) (step : Step (List Nat)) : Step (List Nat) :=
  step.map fun (numbers, rest) => (number :: numbers, rest)

/-- The code points and code units of a string from behind its opening quote on; `start` is the
    text from that quote on.  An escape by a code unit may not end the
    text. -/
def stringNumbers (start : List Char) : List Char → Step (List Nat)
  | [] => .error ⟨.unterminatedString, start⟩
  | '"' :: rest => .ok ([], rest)
  | '\\' :: [] => .error ⟨.unterminatedString, start⟩
  | '\\' :: 'u' :: a :: b :: c :: d :: rest =>
    match codeUnit? a b c d with
    | some unit =>
      -- Behind the escape at least the closing quote is due.
      if rest.isEmpty then .error ⟨.badUnicodeEscape, 'u' :: a :: b :: c :: d :: rest⟩
      else push unit (stringNumbers start rest)
    | none => .error ⟨.badUnicodeEscape, 'u' :: a :: b :: c :: d :: rest⟩
  | '\\' :: 'u' :: rest => .error ⟨.badUnicodeEscape, 'u' :: rest⟩
  | '\\' :: c :: rest =>
    match shortEscape? c with
    | some e => push e.toNat (stringNumbers start rest)
    | none => .error ⟨.badEscape, '\\' :: c :: rest⟩
  | c :: rest =>
    if c.toNat < 0x20 then .error ⟨.controlCharacter, c :: rest⟩
    else push c.toNat (stringNumbers start rest)

/-- A string from behind its opening quote on. -/
def string (dialect : Dialect) (cs : List Char) : Step Text :=
  match stringNumbers ('"' :: cs) cs with
  | .error fault => .error fault
  | .ok (numbers, rest) =>
    let codes := joinPairs numbers
    if dialect = .strict && codes.any Code.isHalf then .error ⟨.loneSurrogate, '"' :: cs⟩
    else .ok (⟨codes⟩, rest)

/-! ## Section 3: numbers -/

/-- The digits at the front of a text, the last one first. -/
def digits (cs : List Char) : List Nat × List Char :=
  (((cs.takeWhile Char.isDigit).filterMap Text.asciiDigit?).reverse, cs.dropWhile Char.isDigit)

/-- The whole part of a number: a zero, or digits that do not start with
    one. -/
def wholePart? : List Char → Option (List Nat × List Char)
  | '0' :: rest => some ([0], rest)
  | c :: rest => if c.isDigit then some (digits (c :: rest)) else none
  | [] => none

/-- A point and at least one digit. -/
def fractionPart? : List Char → Option (List Nat × List Char)
  | '.' :: c :: rest => if c.isDigit then some (digits (c :: rest)) else none
  | _ => none

/-- A letter, a sign if there is one, and at least one digit. -/
def exponentPart? : List Char → Option (Int × List Char)
  | 'e' :: rest | 'E' :: rest =>
    let (negative, body) := Numeral.splitSign rest
    let (ds, rest) := digits body
    if ds.isEmpty then none
    else
      let magnitude : Int := Numeral.valueOfDigits ds
      some (if negative then -magnitude else magnitude, rest)
  | _ => none

/-- What follows the whole part of a number: a fraction, an exponent, or
    both. -/
def fractionAndExponent? (cs : List Char) : Option (List Nat × Int × List Char) :=
  match fractionPart? cs with
  | none => (exponentPart? cs).map fun (exponent, rest) => ([], exponent, rest)
  | some (fraction, rest) =>
    match exponentPart? rest with
    | none => some (fraction, 0, rest)
    | some (exponent, rest) => some (fraction, exponent, rest)

/-- A number.  It is whole if it has neither fraction nor exponent.  The limit
    on digits holds for whole numbers, and in the strict dialect for the whole
    part of every number. -/
def number (dialect : Dialect) (cs : List Char) : Step Value :=
  let (negative, body) :=
    match cs with
    | '-' :: rest => (true, rest)
    | _ => (false, cs)
  match wholePart? body with
  | none => .error ⟨.valueExpected, cs⟩
  | some (whole, rest) =>
    let following := fractionAndExponent? rest
    if Numeral.digitLimit < whole.length && (dialect = .strict || following.isNone) then
      .error ⟨.integerTooLong whole.length, cs⟩
    else
      match following with
      | none =>
        let magnitude : Int := Numeral.valueOfDigits whole
        .ok (.whole (if negative then -magnitude else magnitude), rest)
      | some (fraction, exponent, rest) =>
        .ok (.double (Parts.toBinary64 negative ⟨whole, fraction, exponent⟩), rest)

/-! ## Section 4: values -/

/-- Blanks between the parts of a text. -/
def isSpace (c : Char) : Bool := c = ' ' || c = '\t' || c = '\n' || c = '\r'

/-- Drops the blanks at the front. -/
def skip (cs : List Char) : List Char := cs.dropWhile isSpace

/-- A value that has no parts. -/
def scalar (dialect : Dialect) : List Char → Step Value
  | '"' :: rest => (string dialect rest).map fun (s, rest) => (.text s, rest)
  | 'n' :: 'u' :: 'l' :: 'l' :: rest => .ok (.null, rest)
  | 't' :: 'r' :: 'u' :: 'e' :: rest => .ok (.bool true, rest)
  | 'f' :: 'a' :: 'l' :: 's' :: 'e' :: rest => .ok (.bool false, rest)
  | 'N' :: 'a' :: 'N' :: rest => .ok (.double .nan, rest)
  | 'I' :: 'n' :: 'f' :: 'i' :: 'n' :: 'i' :: 't' :: 'y' :: rest =>
    .ok (.double (.infinite false), rest)
  | '-' :: 'I' :: 'n' :: 'f' :: 'i' :: 'n' :: 'i' :: 't' :: 'y' :: rest =>
    .ok (.double (.infinite true), rest)
  | cs => number dialect cs

/-- A container cannot be opened where there is room for so many more.  The
    strict dialect opens an empty one anywhere. -/
def isTooDeep (dialect : Dialect) (room : Nat) (isEmpty : Bool) : Bool :=
  room = 0 && !(dialect = .strict && isEmpty)

mutual

/-- A value at the front of a text, inside which there is room for so many
    nested containers.  Every two nested steps pass a character, so twice the
    length of the text is fuel enough. -/
def value (dialect : Dialect) (room : Nat) : (fuel : Nat) → List Char → Step Value
  | 0, cs => .error ⟨.valueExpected, cs⟩
  | fuel + 1, '[' :: rest =>
    let inside := skip rest
    if isTooDeep dialect room (inside.head? = some ']') then .error ⟨.tooDeep .array, '[' :: rest⟩
    else
      match inside with
      | ']' :: rest => .ok (.list [], rest)
      | rest => (items dialect (room - 1) fuel rest).map fun (vs, rest) => (.list vs, rest)
  | fuel + 1, '{' :: rest =>
    let inside := skip rest
    if isTooDeep dialect room (inside.head? = some '}') then .error ⟨.tooDeep .object, '{' :: rest⟩
    else
      match inside with
      | '}' :: rest => .ok (.object [], rest)
      | rest => (fields dialect (room - 1) fuel rest).map fun (fs, rest) => (.object fs, rest)
  | _ + 1, cs => scalar dialect cs

/-- At least one item, up to the closing bracket. -/
def items (dialect : Dialect) (room : Nat) :
    (fuel : Nat) → List Char → Except Fault (List Value × List Char)
  | 0, cs => .error ⟨.valueExpected, cs⟩
  | fuel + 1, cs => do
    let (v, rest) ← value dialect room fuel cs
    match skip rest with
    | ']' :: rest => .ok ([v], rest)
    | ',' :: rest =>
      let (vs, rest) ← items dialect room fuel (skip rest)
      .ok (v :: vs, rest)
    | rest => .error ⟨.commaExpected, rest⟩

/-- At least one field, up to the closing brace. -/
def fields (dialect : Dialect) (room : Nat) :
    (fuel : Nat) → List Char → Except Fault (List (Text × Value) × List Char)
  | 0, cs => .error ⟨.nameExpected, cs⟩
  | fuel + 1, '"' :: rest => do
    let (name, rest) ← string dialect rest
    match skip rest with
    | ':' :: rest =>
      let (v, rest) ← value dialect room fuel (skip rest)
      match skip rest with
      | '}' :: rest => .ok ([(name, v)], rest)
      | ',' :: rest =>
        let (fs, rest) ← fields dialect room fuel (skip rest)
        .ok ((name, v) :: fs, rest)
      | rest => .error ⟨.commaExpected, rest⟩
    | rest => .error ⟨.colonExpected, rest⟩
  | _ + 1, cs => .error ⟨.nameExpected, cs⟩

end

/-- The value that a text denotes, blanks around it aside. -/
def read (dialect : Dialect) (cs : List Char) : Except Fault Value :=
  match cs with
  | '\ufeff' :: _ => .error ⟨.byteOrderMark, cs⟩
  | _ =>
    match value dialect dialect.depthLimit (2 * cs.length + 2) (skip cs) with
    | .error fault => .error fault
    | .ok (v, rest) =>
      match skip rest with
      | [] => .ok v
      | rest => .error ⟨.extraData, rest⟩

/-! ## Section 5: messages -/

def Problem.message : Problem → String
  | .valueExpected => "Expecting value"
  | .nameExpected => "Expecting property name enclosed in double quotes"
  | .colonExpected => "Expecting ':' delimiter"
  | .commaExpected => "Expecting ',' delimiter"
  | .unterminatedString => "Unterminated string starting at"
  | .controlCharacter => "Invalid control character at"
  | .badEscape => "Invalid \\escape"
  | .badUnicodeEscape => "Invalid \\uXXXX escape"
  | .loneSurrogate => "Lone surrogate"
  | .extraData => "Extra data"
  | .byteOrderMark => "Unexpected UTF-8 BOM (decode using utf-8-sig)"
  | .integerTooLong digits => Numeral.tooLongToRead digits
  | .tooDeep container =>
    s!"maximum recursion depth exceeded while decoding a JSON {container.name} from a unicode string"

def Fault.message (cs : List Char) (fault : Fault) : String :=
  match fault.problem with
  | .integerTooLong _ | .tooDeep _ => fault.problem.message
  | _ =>
    let position := cs.length - fault.rest.length
    let before := cs.take position
    let line := before.count '\n' + 1
    let column := (before.reverse.takeWhile (· ≠ '\n')).length + 1
    fault.problem.message ++ s!": line {line} column {column} (char {position})"

end CalibratedCosts.Json
