/-! # Texts

    A text is a row of codes.  A code is a character or half of a surrogate
    pair whose other half is missing: JSON can spell such a half, and a name
    that holds one is a name like any other until it has to be encoded.

    * **Strings**: every string is a text (`ofString`), and a text without
      halves is a string (`string?`).
    * **Order**: texts are in the order of their code points.
-/

namespace CalibratedCosts

/-! ## Section 1: codes -/

/-- A character, or half of a surrogate pair by its distance from the first
    half. -/
inductive Code where
  | char (c : Char)
  | half (distance : Fin 0x800)
  deriving DecidableEq

namespace Code

/-- The code point. -/
def number : Code → Nat
  | .char c => c.toNat
  | .half distance => 0xd800 + distance

theorem number_char_ne_number_half (c : Char) (distance : Fin 0x800) :
    (char c).number ≠ (half distance).number := by
  intro h
  have hc : c.toNat = 0xd800 + distance := h
  have hd := distance.isLt
  rcases c.valid with hv | hv
  · have : c.toNat < 0xd800 := hv
    omega
  · have : 0xdfff < c.toNat := hv.1
    omega

theorem number_injective {a b : Code} (h : a.number = b.number) : a = b := by
  cases a with
  | char c =>
    cases b with
    | char d => exact congrArg char (Char.toNat_inj.1 h)
    | half d => exact absurd h (number_char_ne_number_half c d)
  | half c =>
    cases b with
    | char d => exact absurd h.symm (number_char_ne_number_half d c)
    | half d =>
      have hd : 0xd800 + (c : Nat) = 0xd800 + (d : Nat) := h
      exact congrArg half (Fin.ext (by omega))

instance : LT Code := ⟨fun a b => a.number < b.number⟩

instance (a b : Code) : Decidable (a < b) := inferInstanceAs (Decidable (a.number < b.number))

instance : Trans (α := Code) (· < ·) (· < ·) (· < ·) := ⟨fun h g => Nat.lt_trans h g⟩

instance : Std.Trichotomous (α := Code) (· < ·) :=
  ⟨fun _ _ h g => number_injective (Nat.le_antisymm (Nat.not_lt.1 g) (Nat.not_lt.1 h))⟩

/-- The code of a number: half of a pair, or a character. -/
def ofNumber (n : Nat) : Code :=
  if h : 0xd800 ≤ n ∧ n < 0xe000 then .half ⟨n - 0xd800, by omega⟩ else .char (Char.ofNat n)

/-- The character; a half has the replacement character. -/
def shown : Code → Char
  | .char c => c
  | .half _ => '\ufffd'

/-- The character, if the code is one. -/
def char? : Code → Option Char
  | .char c => some c
  | .half _ => none

/-- The code is no character. -/
def isHalf : Code → Bool
  | .char _ => false
  | .half _ => true

end Code

/-! ## Section 2: texts -/

/-- A row of codes. -/
structure Text where
  codes : List Code
  deriving DecidableEq

namespace Text

/-- A string as a text. -/
def ofString (s : String) : Text := ⟨s.toList.map .char⟩

instance : Coe String Text := ⟨ofString⟩

instance : Inhabited Text := ⟨⟨[]⟩⟩

/-- The text as a string, with the replacement character for each half. -/
def toString (t : Text) : String := String.ofList (t.codes.map Code.shown)

instance : ToString Text := ⟨toString⟩

/-- The string that a text is, unless it holds a half. -/
def string? (t : Text) : Option String := (t.codes.mapM Code.char?).map String.ofList

/-- The texts of the single codes. -/
def parts (t : Text) : List Text := t.codes.map fun c => ⟨[c]⟩

theorem mapM_char?_map_char (cs : List Char) : (cs.map Code.char).mapM Code.char? = some cs := by
  induction cs with
  | nil => rfl
  | cons c rest ih => simp [ih, Code.char?]

@[simp] theorem string?_ofString (s : String) : (ofString s).string? = some s := by
  have h := mapM_char?_map_char s.toList
  simp only [string?, ofString, h, Option.map_some, String.ofList_toList]

@[simp] theorem toString_ofString (s : String) : (ofString s).toString = s := by
  simp [toString, ofString, Function.comp_def, Code.shown]

theorem ofString_injective {s t : String} (h : ofString s = ofString t) : s = t := by
  have := congrArg toString h
  simpa using this

/-! ## Section 3: order -/

instance : LT Text := ⟨fun s t => s.codes < t.codes⟩

instance (s t : Text) : Decidable (s < t) := inferInstanceAs (Decidable (s.codes < t.codes))

theorem lt_trans {s t u : Text} (h : s < t) (g : t < u) : s < u := List.lt_trans h g

theorem eq_of_not_lt {s t : Text} (h : ¬ s < t) (g : ¬ t < s) : s = t := by
  have : s.codes = t.codes := List.le_antisymm (List.not_lt.1 g) (List.not_lt.1 h)
  cases s
  cases t
  exact congrArg Text.mk this

end Text
end CalibratedCosts
