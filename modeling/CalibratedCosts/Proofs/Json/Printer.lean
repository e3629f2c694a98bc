import Mathlib
import CalibratedCosts.Proofs.Json.Grammar

/-! # Printed values are read back

    A value is read back from its printed form, in one line or in several, if
    its numbers are whole and not too long, its strings have no halves of
    surrogate pairs, and it is not nested too deep.

    * **Strings**: a character is written as itself, by a one-letter escape or
      by its code units.  The two units of a pair are joined again.
    * **Characters**: what is printed is ASCII and has no control characters
      but line feeds.
-/

namespace CalibratedCosts.Json

variable {dialect : Dialect} {room : ℕ}

/-! ## Section 1: characters of strings -/

/-- The code units by which a character is written. -/
def units (c : Char) : List ℕ :=
  if c.toNat < 0x10000 then [c.toNat]
  else [0xd800 + (c.toNat - 0x10000) / 0x400, 0xdc00 + (c.toNat - 0x10000) % 0x400]

/-- The numbers of the characters: the surrogates are left out. -/
theorem toNat_bounds (c : Char) :
    c.toNat < 0xd800 ∨ 0xdfff < c.toNat ∧ c.toNat < 0x110000 := c.valid

theorem hexDigit?_hexDigit {value : ℕ} (h : value < 16) :
    Text.hexDigit? (Text.hexDigit value) = some value := by
  interval_cases value <;> rfl

/-- Four digits are enough for a code unit. -/
theorem spellsUnit_unitEscape {unit : ℕ} (h : unit < 0x10000) :
    SpellsUnit unit (unitEscape unit) := by
  have hdigits : codeUnit? (Text.hexDigit (unit / 16 / 16 / 16 % 16))
      (Text.hexDigit (unit / 16 / 16 % 16)) (Text.hexDigit (unit / 16 % 16))
      (Text.hexDigit (unit % 16)) = some unit := by
    unfold codeUnit?
    rw [hexDigit?_hexDigit (Nat.mod_lt _ (by decide)), hexDigit?_hexDigit (Nat.mod_lt _ (by decide)),
      hexDigit?_hexDigit (Nat.mod_lt _ (by decide)), hexDigit?_hexDigit (Nat.mod_lt _ (by decide))]
    -- Four digits in base 16 give the number back.
    show some (((unit / 16 / 16 / 16 % 16 * 16 + unit / 16 / 16 % 16) * 16 + unit / 16 % 16) * 16
      + unit % 16) = some unit
    congr 1
    omega
  exact .digits hdigits

theorem spellsUnits_singleton {unit : ℕ} {cs : List Char} (h : SpellsUnit unit cs) :
    SpellsUnits [unit] cs := by
  have hcons := SpellsUnits.cons h .nil
  rwa [List.append_nil] at hcons

theorem spellsUnits_unitsEscape (c : Char) : SpellsUnits (units c) (unitsEscape c) := by
  have hbounds := toNat_bounds c
  unfold units unitsEscape
  by_cases hc : c.toNat < 0x10000
  · rw [if_pos hc, if_pos hc]
    exact spellsUnits_singleton (spellsUnit_unitEscape hc)
  · rw [if_neg hc, if_neg hc]
    exact .cons (spellsUnit_unitEscape (by omega))
      (spellsUnits_singleton (spellsUnit_unitEscape (by omega)))

theorem units_of_lt {c : Char} (h : c.toNat < 0x10000) : units c = [c.toNat] := if_pos h

/-- A character of a string is written by a spelling of its code units. -/
theorem spellsUnits_escaped (c : Char) : SpellsUnits (units c) (escaped c) := by
  unfold escaped
  split_ifs with hquote hline hreturn htab hfeed hback hplain
  · rcases hquote with rfl | rfl
    · exact spellsUnits_singleton (.short rfl)
    · exact spellsUnits_singleton (.short rfl)
  · subst hline
    exact spellsUnits_singleton (.short rfl)
  · subst hreturn
    exact spellsUnits_singleton (.short rfl)
  · subst htab
    exact spellsUnits_singleton (.short rfl)
  · subst hfeed
    exact spellsUnits_singleton (.short rfl)
  · subst hback
    exact spellsUnits_singleton (.short rfl)
  -- The rest of printable ASCII stands for itself.
  · have hlow : 0x20 ≤ c.toNat := hplain.1
    have hhigh : c.toNat ≤ 0x7e := hplain.2
    rw [units_of_lt (by omega)]
    rw [not_or] at hquote
    exact spellsUnits_singleton (.plain hlow hquote.1 hquote.2)
  · exact spellsUnits_unitsEscape c

theorem ofNumber_toNat (c : Char) : Code.ofNumber c.toNat = .char c := by
  have hbounds := toNat_bounds c
  unfold Code.ofNumber
  rw [dif_neg (by omega), Char.ofNat_toNat]

/-- The code units of a character are joined to the character, whatever
    follows. -/
theorem joinPairs_units_append (c : Char) (ns : List ℕ) :
    joinPairs (units c ++ ns) = .char c :: joinPairs ns := by
  have hbounds := toNat_bounds c
  unfold units
  -- A code point is one unit if it fits, and else a pair of surrogates that the
  -- reader joins again.
  by_cases hc : c.toNat < 0x10000
  · have hhigh : isHighSurrogate c.toNat = false := by
      simp only [isHighSurrogate, Bool.and_eq_false_iff, decide_eq_false_iff_not]
      omega
    rw [if_pos hc, List.singleton_append]
    cases ns with
    | nil =>
      show [Code.ofNumber c.toNat] = _
      rw [ofNumber_toNat]
      rfl
    | cons n ns =>
      rw [joinPairs, hhigh, ofNumber_toNat]
      rfl
  · rw [if_neg hc]
    have hhigh : isHighSurrogate (0xd800 + (c.toNat - 0x10000) / 0x400) = true := by
      simp only [isHighSurrogate, Bool.and_eq_true, decide_eq_true_eq]
      omega
    have hlow : isLowSurrogate (0xdc00 + (c.toNat - 0x10000) % 0x400) = true := by
      simp only [isLowSurrogate, Bool.and_eq_true, decide_eq_true_eq]
      omega
    have hjoin : joinPair (0xd800 + (c.toNat - 0x10000) / 0x400)
        (0xdc00 + (c.toNat - 0x10000) % 0x400) = c := by
      have hsum : 0x10000 + (0xd800 + (c.toNat - 0x10000) / 0x400 - 0xd800) * 0x400
          + (0xdc00 + (c.toNat - 0x10000) % 0x400 - 0xdc00) = c.toNat := by omega
      unfold joinPair
      rw [hsum, Char.ofNat_toNat]
    show joinPairs (_ :: _ :: ns) = _
    rw [joinPairs, hhigh, hlow, hjoin]
    rfl

/-- A printed string is spelled as what it is. -/
theorem spellsText_quotedString (s : String) : SpellsText dialect s (quotedString s) := by
  have hunits : ∀ cs : List Char,
      SpellsUnits (cs.flatMap units) ((cs.map Code.char).flatMap escapedCode) := by
    intro cs
    induction cs with
    | nil => exact .nil
    | cons c cs ih => exact (spellsUnits_escaped c).append ih
  have hjoin : ∀ cs : List Char, joinPairs (cs.flatMap units) = cs.map Code.char := by
    intro cs
    induction cs with
    | nil => rfl
    | cons c cs ih =>
      rw [List.flatMap_cons, joinPairs_units_append, ih]
      rfl
  refine .quoted (hunits s.toList) (hjoin s.toList) fun _ => ?_
  show (s.toList.map Code.char).any Code.isHalf = false
  rw [List.any_map]
  exact List.any_eq_false.2 fun c _ => Bool.false_ne_true

/-! ## Section 2: numbers -/

/-- The first digit of a positive number is not a zero. -/
theorem head?_toDigits_ne_zero {n : ℕ} (h : 0 < n) : (Nat.toDigits 10 n).head? ≠ some '0' := by
  -- On the number: but for its last digit it is a smaller one.
  induction n using Nat.strongRecOn with
  | ind n ih =>
    by_cases hn : n < 10
    · rw [Nat.toDigits_of_lt_base hn]
      interval_cases n <;> decide
    · rw [Nat.toDigits_of_base_le (by decide) (by omega),
        List.head?_append_of_ne_nil _ Nat.toDigits_ne_nil]
      exact ih (n / 10) (by omega) (by omega)

theorem spellsNatural_toDigits {n : ℕ} (h : (Nat.toDigits 10 n).length ≤ Numeral.digitLimit) :
    SpellsNatural n (Nat.toDigits 10 n) where
  digits c hc := Nat.isDigit_of_mem_toDigits (by decide) (by decide) hc
  nonempty := Nat.toDigits_ne_nil
  leading hzero := by
    rcases Nat.eq_zero_or_pos n with rfl | hn
    · rfl
    · exact absurd hzero (head?_toDigits_ne_zero hn)
  length_le := h
  value := Nat.ofDigitChars_ten_toDigits

theorem wholeText_ofNat (n : ℕ) : wholeText (Int.ofNat n) = Nat.toDigits 10 n := Nat.toList_repr

theorem wholeText_negSucc (n : ℕ) :
    wholeText (Int.negSucc n) = '-' :: Nat.toDigits 10 (n + 1) := by
  show ("-" ++ Nat.repr (n + 1)).toList = _
  rw [String.toList_append, Nat.toList_repr]
  rfl

theorem spellsWhole_wholeText {n : ℤ} (h : Numeral.isWritable n) : SpellsWhole n (wholeText n) := by
  have hlength := Numeral.length_toDigits_le (by decide) (of_decide_eq_true h)
  cases n with
  | ofNat n =>
    rw [wholeText_ofNat]
    exact .natural (spellsNatural_toDigits hlength)
  | negSucc n =>
    rw [wholeText_negSucc]
    exact .negative (spellsNatural_toDigits hlength)

/-! ## Section 3: values -/

/-- What is printed in a form that is read again: numbers are whole and not too
    long, strings have no halves, and there is room for the containers. -/
inductive Fits : (room : ℕ) → Phrase → Prop
  | null {room : ℕ} : Fits room (.value .null)
  | bool {room : ℕ} (b : Bool) : Fits room (.value (.bool b))
  | whole {room : ℕ} {n : ℤ} (h : Numeral.isWritable n) : Fits room (.value (.whole n))
  | text {room : ℕ} (s : String) : Fits room (.value (.text s))
  | list {room : ℕ} {vs : List Value} (h : Fits room (.items vs)) :
    Fits (room + 1) (.value (.list vs))
  | object {room : ℕ} {fs : List (Text × Value)} (h : Fits room (.fields fs)) :
    Fits (room + 1) (.value (.object fs))
  | noItems {room : ℕ} : Fits room (.items [])
  | item {room : ℕ} {v : Value} {vs : List Value} (h : Fits room (.value v))
    (hs : Fits room (.items vs)) : Fits room (.items (v :: vs))
  | noFields {room : ℕ} : Fits room (.fields [])
  | field {room : ℕ} {v : Value} {fs : List (Text × Value)} (name : String)
    (h : Fits room (.value v)) (hs : Fits room (.fields fs)) :
    Fits room (.fields (((name : Text), v) :: fs))

/-- What is to be shown of a printer at a phrase: a value has one of its texts,
    and parts have one if there are any, also with blanks behind them. -/
def Phrase.IsSpelled (dialect : Dialect) (room : ℕ) (value : Value → List Char)
    (items : List Value → List Char) (fields : List (Text × Value) → List Char) : Phrase → Prop
  | .value v => Spells dialect room (.value v) (value v)
  | .items vs => ∀ b, vs ≠ [] → Blank b → Spells dialect room (.items vs) (items vs ++ b)
  | .fields fs => ∀ b, fs ≠ [] → Blank b → Spells dialect room (.fields fs) (fields fs ++ b)

/-- How a printer lays a value out at a level: with a break before each part of
    a container and before its end, and with a gap before the value of a
    field.  The parts are one level deeper. -/
structure Layout (lineBreak : ℕ → List Char) (gap : List Char) (value : ℕ → Value → List Char)
    (items : ℕ → List Value → List Char) (fields : ℕ → List (Text × Value) → List Char) : Prop where
  blank_lineBreak : ∀ level, Blank (lineBreak level)
  blank_gap : Blank gap
  null : ∀ level, value level .null = ['n', 'u', 'l', 'l']
  true : ∀ level, value level (.bool true) = ['t', 'r', 'u', 'e']
  false : ∀ level, value level (.bool false) = ['f', 'a', 'l', 's', 'e']
  whole : ∀ level n, value level (.whole n) = wholeText n
  text : ∀ level t, value level (.text t) = quotedString t
  emptyList : ∀ level, value level (.list []) = ['[', ']']
  emptyObject : ∀ level, value level (.object []) = ['{', '}']
  list : ∀ level v vs, value level (.list (v :: vs)) =
    '[' :: (items (level + 1) (v :: vs) ++ lineBreak level) ++ [']']
  object : ∀ level f fs, value level (.object (f :: fs)) =
    '{' :: (fields (level + 1) (f :: fs) ++ lineBreak level) ++ ['}']
  noItems : ∀ level, items level [] = []
  lastItem : ∀ level v, items level [v] = lineBreak level ++ value level v
  item : ∀ level v w vs, items level (v :: w :: vs) =
    lineBreak level ++ value level v ++ ',' :: items level (w :: vs)
  noFields : ∀ level, fields level [] = []
  lastField : ∀ level name v, fields level [(name, v)] =
    lineBreak level ++ quotedString name ++ ':' :: (gap ++ value level v)
  field : ∀ level name v f fs, fields level ((name, v) :: f :: fs) =
    lineBreak level ++ quotedString name ++
      ':' :: (gap ++ value level v ++ ',' :: fields level (f :: fs))

/-- What a printer with a layout prints is spelled as what it is. -/
theorem Fits.isSpelled {lineBreak : ℕ → List Char} {gap : List Char} {value : ℕ → Value → List Char}
    {items : ℕ → List Value → List Char} {fields : ℕ → List (Text × Value) → List Char}
    (layout : Layout lineBreak gap value items fields) {p : Phrase} (h : Fits room p) (level : ℕ) :
    p.IsSpelled dialect room (value level) (items level) (fields level) := by
  -- On the value; the parts of a container are one level deeper.
  induction h generalizing level with
  | null =>
    show Spells _ _ _ (value level .null)
    rw [layout.null]
    exact .null
  | bool b =>
    show Spells _ _ _ (value level (.bool b))
    cases b with
    | false =>
      rw [layout.false]
      exact .false
    | true =>
      rw [layout.true]
      exact .true
  | @whole room n h =>
    show Spells _ _ _ (value level (.whole n))
    rw [layout.whole]
    exact .whole (spellsWhole_wholeText h)
  | text s =>
    show Spells _ _ _ (value level (.text s))
    rw [layout.text]
    exact .text (spellsText_quotedString s)
  | @list room vs h ih =>
    show Spells _ _ _ (value level (.list vs))
    cases vs with
    | nil =>
      rw [layout.emptyList]
      exact .emptyList rfl .nil
    | cons v vs =>
      rw [layout.list]
      exact .list (ih (level + 1) _ (List.cons_ne_nil v vs) (layout.blank_lineBreak level))
  | @object room fs h ih =>
    show Spells _ _ _ (value level (.object fs))
    cases fs with
    | nil =>
      rw [layout.emptyObject]
      exact .emptyObject rfl .nil
    | cons f fs =>
      rw [layout.object]
      exact .object (ih (level + 1) _ (List.cons_ne_nil f fs) (layout.blank_lineBreak level))
  | noItems =>
    intro b hne
    exact absurd rfl hne
  | @item room v vs h hs ih ihs =>
    intro b _ hb
    cases vs with
    | nil =>
      rw [layout.lastItem]
      exact .lastItem (layout.blank_lineBreak level) (ih level) hb
    | cons w vs =>
      -- The blanks are behind the last item.
      have hrest := ihs level b (List.cons_ne_nil w vs) hb
      have hitem := Spells.item (layout.blank_lineBreak level) (ih level) .nil hrest
      rw [layout.item]
      simpa only [List.append_nil, List.append_assoc, List.cons_append] using hitem
  | noFields =>
    intro b hne
    exact absurd rfl hne
  | @field room v fs name h hs ih ihs =>
    intro b _ hb
    have hname : SpellsText dialect name (quotedString name) := spellsText_quotedString name
    cases fs with
    | nil =>
      have hfield := Spells.lastField (layout.blank_lineBreak level) hname .nil layout.blank_gap
        (ih level) hb
      rw [layout.lastField]
      simpa only [List.append_nil, List.append_assoc, List.cons_append] using hfield
    | cons f fs =>
      have hrest := ihs level b (List.cons_ne_nil f fs) hb
      have hfield := Spells.field (layout.blank_lineBreak level) hname .nil layout.blank_gap
        (ih level) .nil hrest
      rw [layout.field]
      simpa only [List.append_nil, List.append_assoc, List.cons_append] using hfield

theorem blank_newLine (level : ℕ) : Blank (newLine level) := by
  intro c hc
  rcases List.mem_cons.1 hc with rfl | hc
  · rfl
  · rw [List.eq_of_mem_replicate hc]
    rfl

theorem blank_space : Blank [' '] := by
  intro c hc
  rw [List.mem_singleton.1 hc]
  rfl

theorem layout_indented :
    Layout newLine [' '] indentedChars indentedItems indentedFields where
  blank_lineBreak := blank_newLine
  blank_gap := blank_space
  null _ := rfl
  true _ := rfl
  false _ := rfl
  whole _ _ := rfl
  text _ _ := rfl
  emptyList _ := rfl
  emptyObject _ := rfl
  list _ _ _ := rfl
  object _ _ _ := rfl
  noItems _ := rfl
  lastItem _ _ := rfl
  item _ _ _ _ := rfl
  noFields _ := rfl
  lastField _ _ _ := rfl
  field _ _ _ _ _ := List.append_assoc _ _ _

/-- In one line there is nothing between the parts, whatever their level. -/
theorem layout_compact :
    Layout (fun _ => []) [] (fun _ => compactChars) (fun _ => compactItems)
      (fun _ => compactFields) where
  blank_lineBreak _ := .nil
  blank_gap := .nil
  null _ := rfl
  true _ := rfl
  false _ := rfl
  whole _ _ := rfl
  text _ _ := rfl
  emptyList _ := rfl
  emptyObject _ := rfl
  list _ _ _ := by rw [List.append_nil, compactChars]
  object _ _ _ := by rw [List.append_nil, compactChars]
  noItems _ := rfl
  lastItem _ _ := rfl
  item _ _ _ _ := rfl
  noFields _ := rfl
  lastField _ _ _ := rfl
  field _ _ _ _ _ := List.append_assoc _ _ _

/-- What is printed over several lines is read back. -/
theorem read_indented {v : Value} (h : Fits dialect.depthLimit (.value v)) :
    read dialect v.indented.toList = .ok v := by
  have hread := @read_eq_ok dialect v _ (h.isSpelled layout_indented 0) _ _ .nil .nil
  rw [List.append_nil, List.nil_append] at hread
  rw [Value.indented, String.toList_ofList]
  exact hread

/-- What is printed in one line is read back. -/
theorem read_compact {v : Value} (h : Fits dialect.depthLimit (.value v)) :
    read dialect v.compact.toList = .ok v := by
  have hread := @read_eq_ok dialect v _ (h.isSpelled layout_compact 0) _ _ .nil .nil
  rw [List.append_nil, List.nil_append] at hread
  rw [Value.compact, String.toList_ofList]
  exact hread

/-! ## Section 4: characters -/

/-- A printable ASCII character or a line feed. -/
def isPlain (c : Char) : Bool := c = '\n' || (0x20 ≤ c.toNat && c.toNat ≤ 0x7e)

theorem isPlain_hexDigit (n : ℕ) : isPlain (Text.hexDigit (n % 16)) := by
  have hn : n % 16 < 16 := Nat.mod_lt n (by decide)
  interval_cases n % 16 <;> rfl

theorem all_isPlain_unitEscape (unit : ℕ) : (unitEscape unit).all isPlain := by
  simp only [unitEscape, Text.hexDigits, List.nil_append, List.cons_append, List.all_cons,
    List.all_nil, isPlain_hexDigit, Bool.and_true]
  rfl

theorem all_isPlain_escaped (c : Char) : (escaped c).all isPlain := by
  unfold escaped
  split_ifs with hquote hline hreturn htab hfeed hback hplain
  · rcases hquote with rfl | rfl <;> rfl
  · rfl
  · rfl
  · rfl
  · rfl
  · rfl
  · have hlow : 0x20 ≤ c.toNat := hplain.1
    have hhigh : c.toNat ≤ 0x7e := hplain.2
    simp [isPlain, hlow, hhigh]
  · unfold unitsEscape
    by_cases hc : c.toNat < 0x10000
    · rw [if_pos hc]
      exact all_isPlain_unitEscape _
    · rw [if_neg hc, List.all_append, all_isPlain_unitEscape, all_isPlain_unitEscape]
      rfl

theorem all_isPlain_quotedString (t : Text) : (quotedString t).all isPlain := by
  have hcode : ∀ code, (escapedCode code).all isPlain := by
    intro code
    cases code with
    | char c => exact all_isPlain_escaped c
    | half distance => exact all_isPlain_unitEscape _
  have hcodes : (t.codes.flatMap escapedCode).all isPlain := by
    rw [List.all_flatMap]
    exact List.all_eq_true.2 fun code _ => hcode code
  rw [quotedString, List.cons_append, List.all_cons, List.all_append, hcodes]
  rfl

theorem all_isPlain_wholeText (n : ℤ) : (wholeText n).all isPlain := by
  have hdigits : ∀ n : ℕ, (Nat.toDigits 10 n).all isPlain := by
    intro n
    apply List.all_eq_true.2
    intro c hc
    have hdigit := Nat.isDigit_of_mem_toDigits (by decide) (by decide) hc
    obtain ⟨hlow, hhigh⟩ := Char.isDigit_iff_toNat.1 hdigit
    have hlow' : 0x30 ≤ c.toNat := hlow
    have hhigh' : c.toNat ≤ 0x39 := hhigh
    simp only [isPlain, Bool.or_eq_true, Bool.and_eq_true, decide_eq_true_eq]
    omega
  cases n with
  | ofNat n =>
    rw [wholeText_ofNat]
    exact hdigits n
  | negSucc n =>
    rw [wholeText_negSucc, List.all_cons, hdigits]
    rfl

theorem all_isPlain_newLine (level : ℕ) : (newLine level).all isPlain := by
  apply List.all_eq_true.2
  intro c hc
  rcases List.mem_cons.1 hc with rfl | hc
  · rfl
  · rw [List.eq_of_mem_replicate hc]
    rfl

/-- The printed form of a phrase. -/
def Phrase.printed (value : Value → List Char) (items : List Value → List Char)
    (fields : List (Text × Value) → List Char) : Phrase → List Char
  | .value v => value v
  | .items vs => items vs
  | .fields fs => fields fs

/-- Everything that is printed is plain if the breaks and the gaps are. -/
theorem Fits.all_isPlain {lineBreak : ℕ → List Char} {gap : List Char}
    {value : ℕ → Value → List Char} {items : ℕ → List Value → List Char}
    {fields : ℕ → List (Text × Value) → List Char}
    (layout : Layout lineBreak gap value items fields) (hbreak : ∀ l, (lineBreak l).all isPlain)
    (hgap : gap.all isPlain) {p : Phrase} (h : Fits room p) (level : ℕ) :
    (p.printed (value level) (items level) (fields level)).all isPlain := by
  -- Every case rewrites by the layout's own equation; what is left are the
  -- parts.
  induction h generalizing level with
  | null =>
    show (value level .null).all isPlain
    rw [layout.null]
    rfl
  | bool b =>
    show (value level (.bool b)).all isPlain
    cases b with
    | false =>
      rw [layout.false]
      rfl
    | true =>
      rw [layout.true]
      rfl
  | @whole room n h =>
    show (value level (.whole n)).all isPlain
    rw [layout.whole]
    exact all_isPlain_wholeText n
  | text s =>
    show (value level (.text s)).all isPlain
    rw [layout.text]
    exact all_isPlain_quotedString s
  | @list room vs h ih =>
    show (value level (.list vs)).all isPlain
    cases vs with
    | nil =>
      rw [layout.emptyList]
      rfl
    | cons v vs =>
      have hitems : (items (level + 1) (v :: vs)).all isPlain := ih (level + 1)
      rw [layout.list]
      simp only [List.cons_append, List.append_assoc, List.all_cons, List.all_append, hitems, hbreak]
      rfl
  | @object room fs h ih =>
    show (value level (.object fs)).all isPlain
    cases fs with
    | nil =>
      rw [layout.emptyObject]
      rfl
    | cons f fs =>
      have hfields : (fields (level + 1) (f :: fs)).all isPlain := ih (level + 1)
      rw [layout.object]
      simp only [List.cons_append, List.append_assoc, List.all_cons, List.all_append, hfields, hbreak]
      rfl
  | noItems =>
    show (items level []).all isPlain
    rw [layout.noItems]
    rfl
  | @item room v vs h hs ih ihs =>
    have hv : (value level v).all isPlain := ih level
    have hvs : (items level vs).all isPlain := ihs level
    show (items level (v :: vs)).all isPlain
    cases vs with
    | nil =>
      rw [layout.lastItem]
      simp only [List.all_append, hv, hbreak, Bool.and_self]
    | cons w vs =>
      rw [layout.item]
      simp only [List.all_append, List.all_cons, hv, hvs, hbreak]
      rfl
  | noFields =>
    show (fields level []).all isPlain
    rw [layout.noFields]
    rfl
  | @field room v fs name h hs ih ihs =>
    have hv : (value level v).all isPlain := ih level
    have hfs : (fields level fs).all isPlain := ihs level
    show (fields level ((name, v) :: fs)).all isPlain
    cases fs with
    | nil =>
      rw [layout.lastField]
      simp only [List.all_append, List.all_cons, hv, hbreak, hgap, all_isPlain_quotedString]
      rfl
    | cons f fs =>
      rw [layout.field]
      simp only [List.all_append, List.all_cons, hv, hfs, hbreak, hgap, all_isPlain_quotedString]
      rfl

/-- Nothing but printable ASCII characters and line feeds is printed. -/
theorem isPlain_of_mem_indented {v : Value} (h : Fits room (.value v)) {c : Char}
    (hc : c ∈ v.indented.toList) : isPlain c := by
  rw [Value.indented, String.toList_ofList] at hc
  exact List.all_eq_true.1 (h.all_isPlain layout_indented all_isPlain_newLine rfl 0) c hc

end CalibratedCosts.Json
