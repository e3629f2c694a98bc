import CalibratedCosts.Binary64.Decimal
import CalibratedCosts.Text.Basic
import CalibratedCosts.Text.Digit

/-! # JSON values and their text

    The data model of JSON, with objects as lists of named values in text
    order, and its printer.

    * `compact`: no space anywhere;
    * `indented`: one item a line, two spaces a level.

    Both write ASCII only: other characters are escaped by their UTF-16 code
    units.
-/

namespace CalibratedCosts.Json

/-- A JSON value.  Whole numbers are exact; the other numbers are of double
    precision.  An object keeps repeated names. -/
inductive Value where
  | null
  | bool (b : Bool)
  | whole (n : Int)
  | double (x : Binary64)
  | text (t : Text)
  | list (items : List Value)
  | object (fields : List (Text × Value))

instance : Inhabited Value := ⟨.null⟩

/-! ## Section 1: strings -/

/-- A code unit of UTF-16 as an escape. -/
def unitEscape (unit : Nat) : List Char := '\\' :: 'u' :: Text.hexDigits 4 unit

/-- A character by its code units: one, or a surrogate pair. -/
def unitsEscape (c : Char) : List Char :=
  let code := c.toNat
  if code < 0x10000 then unitEscape code
  else
    let offset := code - 0x10000
    unitEscape (0xd800 + offset / 0x400) ++ unitEscape (0xdc00 + offset % 0x400)

/-- One character inside a string. -/
def escaped (c : Char) : List Char :=
  if c = '"' ∨ c = '\\' then ['\\', c]
  else if c = '\n' then ['\\', 'n']
  else if c = '\r' then ['\\', 'r']
  else if c = '\t' then ['\\', 't']
  else if c = '\x0c' then ['\\', 'f']
  else if c = '\x08' then ['\\', 'b']
  else if ' ' ≤ c ∧ c ≤ '~' then [c]
  else unitsEscape c

/-- One code inside a string. -/
def escapedCode : Code → List Char
  | .char c => escaped c
  | .half distance => unitEscape (Code.half distance).number

/-- A string with its quotes. -/
def quotedString (t : Text) : List Char :=
  '"' :: t.codes.flatMap escapedCode ++ ['"']

/-! ## Section 2: numbers -/

/-- An integer in decimal. -/
def wholeText (n : Int) : List Char := (toString n).toList

/-- A double precision number, with the words of the format for the values
    that have no numeral. -/
def doubleText : Binary64 → List Char
  | .nan => "NaN".toList
  | .infinite negative => (if negative then "-Infinity" else "Infinity").toList
  | x => x.text.toList

/-- The text of a value that has no parts. -/
def scalarText : Value → List Char
  | .null => "null".toList
  | .bool b => (if b then "true" else "false").toList
  | .whole n => wholeText n
  | .double x => doubleText x
  | .text t => quotedString t
  | .list _ => ['[', ']']
  | .object _ => ['{', '}']

/-! ## Section 3: layouts -/

mutual

/-- The value without any space. -/
def compactChars : Value → List Char
  | .list items => '[' :: compactItems items ++ [']']
  | .object fields => '{' :: compactFields fields ++ ['}']
  | v => scalarText v

def compactItems : List Value → List Char
  | [] => []
  | [v] => compactChars v
  | v :: rest => compactChars v ++ ',' :: compactItems rest

def compactFields : List (Text × Value) → List Char
  | [] => []
  | [(name, v)] => quotedString name ++ ':' :: compactChars v
  | (name, v) :: rest => quotedString name ++ ':' :: compactChars v ++ ',' :: compactFields rest

end

/-- The value without any space. -/
def Value.compact (v : Value) : String := String.ofList (compactChars v)

/-- A line end and the indentation of a level. -/
def newLine (level : Nat) : List Char := '\n' :: List.replicate (2 * level) ' '

mutual

/-- The value over several lines, where its own first line is at `level`.
    Empty lists and objects stay on one line. -/
def indentedChars (level : Nat) : Value → List Char
  | .list (v :: rest) =>
    '[' :: indentedItems (level + 1) (v :: rest) ++ newLine level ++ [']']
  | .object (field :: rest) =>
    '{' :: indentedFields (level + 1) (field :: rest) ++ newLine level ++ ['}']
  | v => scalarText v

def indentedItems (level : Nat) : List Value → List Char
  | [] => []
  | [v] => newLine level ++ indentedChars level v
  | v :: rest => newLine level ++ indentedChars level v ++ ',' :: indentedItems level rest

def indentedFields (level : Nat) : List (Text × Value) → List Char
  | [] => []
  | [(name, v)] => newLine level ++ quotedString name ++ ':' :: ' ' :: indentedChars level v
  | (name, v) :: rest =>
    newLine level ++ quotedString name ++ ':' :: ' ' :: indentedChars level v
      ++ ',' :: indentedFields level rest

end

/-- The value over several lines. -/
def Value.indented (v : Value) : String := String.ofList (indentedChars 0 v)

end CalibratedCosts.Json
