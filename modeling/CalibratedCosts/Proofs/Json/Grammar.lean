import Mathlib
import CalibratedCosts.Json.Reader
import CalibratedCosts.Proofs.Numeral.Integer

/-! # The texts that are read as a value

    A grammar of JSON, and the proof that the reader takes each of its texts.

    * **Phrases**: a stretch of text stands for a value, for the items of an
      array or for the fields of an object.  Blanks stand around items, and
      around the names and the values of fields.
    * **Room**: a phrase has room for so many nested containers.  The fuel of
      the reader is no limit: a text has fewer steps than characters.
-/

namespace CalibratedCosts.Json

open Binary64 (Parts)

variable {dialect : Dialect} {room : ℕ}

/-! ## Section 1: blanks -/

theorem isSpace_iff {c : Char} : isSpace c ↔ c = ' ' ∨ c = '\t' ∨ c = '\n' ∨ c = '\r' := by
  simp [isSpace, or_assoc]

/-- Nothing but blanks. -/
def Blank (cs : List Char) : Prop := ∀ c ∈ cs, isSpace c

theorem Blank.nil : Blank [] := by
  intro c hc
  cases hc

theorem Blank.append {cs ds : List Char} (h : Blank cs) (g : Blank ds) : Blank (cs ++ ds) := by
  intro c hc
  rcases List.mem_append.1 hc with hc | hc
  · exact h c hc
  · exact g c hc

theorem skip_blank_append {b : List Char} (h : Blank b) (cs : List Char) :
    skip (b ++ cs) = skip cs := by
  induction b with
  | nil => rfl
  | cons c rest ih =>
    obtain ⟨hc, hrest⟩ := List.forall_mem_cons.1 h
    show List.dropWhile isSpace (c :: (rest ++ cs)) = skip cs
    rw [List.dropWhile_cons_of_pos hc]
    exact ih hrest

theorem skip_cons {c : Char} (h : isSpace c = false) (cs : List Char) : skip (c :: cs) = c :: cs :=
  List.dropWhile_cons_of_neg (by simp [h])

theorem skip_of_blank {b : List Char} (h : Blank b) : skip b = [] := by
  have hb := skip_blank_append h []
  rw [List.append_nil] at hb
  exact hb

/-! ## Section 2: strings -/

/-- A piece of a string that stands for one code unit or code point: a
    character itself, a one-letter escape or an escape by four digits. -/
inductive SpellsUnit : ℕ → List Char → Prop
  | plain {c : Char} (hcontrol : 0x20 ≤ c.toNat) (hquote : c ≠ '"') (hbackslash : c ≠ '\\') :
    SpellsUnit c.toNat [c]
  | short {c e : Char} (h : shortEscape? c = some e) : SpellsUnit e.toNat ['\\', c]
  | digits {a b c d : Char} {unit : ℕ} (h : codeUnit? a b c d = some unit) :
    SpellsUnit unit ['\\', 'u', a, b, c, d]

/-- Pieces of a string one after the other. -/
inductive SpellsUnits : List ℕ → List Char → Prop
  | nil : SpellsUnits [] []
  | cons {n : ℕ} {ns : List ℕ} {cs ds : List Char} (h : SpellsUnit n cs) (hs : SpellsUnits ns ds) :
    SpellsUnits (n :: ns) (cs ++ ds)

/-- A string with its quotes.  The strict dialect has no string with a half. -/
inductive SpellsText (dialect : Dialect) : Text → List Char → Prop
  | quoted {ns : List ℕ} {t : Text} {cs : List Char} (hs : SpellsUnits ns cs)
    (hcodes : joinPairs ns = t.codes)
    (hwhole : dialect = .strict → t.codes.any Code.isHalf = false) :
    SpellsText dialect t ('"' :: cs ++ ['"'])

theorem SpellsUnits.append {ns ms : List ℕ} {cs ds : List Char} (h : SpellsUnits ns cs)
    (g : SpellsUnits ms ds) : SpellsUnits (ns ++ ms) (cs ++ ds) := by
  induction h with
  | nil => exact g
  | cons hn _ ih =>
    rw [List.append_assoc]
    exact .cons hn ih

/-- The reader of strings takes a piece and goes on behind it. -/
theorem stringNumbers_append {n : ℕ} {cs : List Char} (h : SpellsUnit n cs) (start : List Char)
    {rest : List Char} (hrest : rest ≠ []) :
    stringNumbers start (cs ++ rest) = push n (stringNumbers start rest) := by
  have hempty : rest.isEmpty = false := by simpa using hrest
  -- An escape `\u` must be told from the short escapes before its digits are
  -- read.
  cases h with
  | @plain c hcontrol hquote hbackslash =>
    rw [List.singleton_append, stringNumbers.eq_def]
    split
    all_goals simp_all
  | @short c e h =>
    have hu : c ≠ 'u' := by
      rintro rfl
      cases h
    show stringNumbers start ('\\' :: c :: rest) = _
    rw [stringNumbers.eq_def]
    simp [hu, h]
  | @digits a b c d unit h =>
    show stringNumbers start ('\\' :: 'u' :: a :: b :: c :: d :: rest) = _
    rw [stringNumbers.eq_def]
    simp [h, hempty]

theorem stringNumbers_eq_ok {ns : List ℕ} {cs : List Char} (h : SpellsUnits ns cs)
    (start rest : List Char) : stringNumbers start (cs ++ '"' :: rest) = .ok (ns, rest) := by
  induction h with
  | nil => rfl
  | @cons n ns cs ds hn _ ih =>
    rw [List.append_assoc, stringNumbers_append hn start (by simp), ih]
    rfl

/-- Behind its opening quote a string is read up to its closing one. -/
theorem string_eq_ok {t : Text} {cs : List Char} (h : SpellsText dialect t cs) (rest : List Char) :
    ∃ body, cs = '"' :: body ∧ string dialect (body ++ rest) = .ok (t, rest) := by
  obtain @⟨ns, t, cs, hs, hcodes, hwhole⟩ := h
  refine ⟨cs ++ ['"'], rfl, ?_⟩
  have hread := stringNumbers_eq_ok hs ('"' :: (cs ++ '"' :: rest)) rest
  unfold string
  rw [List.append_assoc, List.singleton_append, hread]
  simp only [hcodes]
  rw [if_neg]
  -- The strict reader refuses half a pair; a spelling for it holds none.
  intro hhalf
  simp only [Bool.and_eq_true, decide_eq_true_eq] at hhalf
  rw [hwhole hhalf.1] at hhalf
  exact absurd hhalf.2 (by decide)

/-! ## Section 3: numbers -/

/-- A character that would go on with a number. -/
def continuesNumber (c : Char) : Bool := c.isDigit || c = '.' || c = 'e' || c = 'E'

/-- A text before which a number comes to its end. -/
def EndsNumber (rest : List Char) : Prop := ∀ c ∈ rest.head?, continuesNumber c = false

/-- A text before which digits come to their end. -/
def EndsDigits (rest : List Char) : Prop := ∀ c ∈ rest.head?, c.isDigit = false

/-- Decimal digits, at least one. -/
structure AreDigits (ds : List Char) : Prop where
  digits : ∀ c ∈ ds, c.isDigit
  nonempty : ds ≠ []

/-- The whole part of a number: digits without a zero in front. -/
structure IsWholePart (ds : List Char) : Prop extends AreDigits ds where
  leading : ds.head? = some '0' → ds = ['0']

/-- The whole part of a number that is not too long. -/
structure SpellsNatural (n : ℕ) (ds : List Char) : Prop extends IsWholePart ds where
  length_le : ds.length ≤ Numeral.digitLimit
  value : Nat.ofDigitChars 10 ds 0 = n

/-- Digits, or a minus and digits. -/
inductive SpellsWhole : ℤ → List Char → Prop
  | natural {n : ℕ} {ds : List Char} (h : SpellsNatural n ds) : SpellsWhole n ds
  | negative {n : ℕ} {ds : List Char} (h : SpellsNatural n ds) : SpellsWhole (-n) ('-' :: ds)

/-- The values of digits, the last one first. -/
def digitValues (ds : List Char) : List ℕ := (ds.map fun c => c.toNat - '0'.toNat).reverse

/-- A number with its sign. -/
def signed (negative : Bool) (n : ℤ) : ℤ := if negative then -n else n

/-- The sign of a number: a minus or nothing. -/
def minus (negative : Bool) : List Char := if negative then ['-'] else []

/-- The sign of an exponent. -/
inductive SpellsSign : Bool → List Char → Prop
  | none : SpellsSign false []
  | plus : SpellsSign false ['+']
  | minus : SpellsSign true ['-']

/-- A point and digits, or nothing. -/
inductive SpellsFraction : List ℕ → List Char → Prop
  | none : SpellsFraction [] []
  | point {ds : List Char} (h : AreDigits ds) : SpellsFraction (digitValues ds) ('.' :: ds)

/-- A letter, a sign and digits, or nothing. -/
inductive SpellsExponent : ℤ → List Char → Prop
  | none : SpellsExponent 0 []
  | letter {c : Char} {negative : Bool} {sign ds : List Char} (hc : c = 'e' ∨ c = 'E')
    (hsign : SpellsSign negative sign) (h : AreDigits ds) :
    SpellsExponent (signed negative (Numeral.valueOfDigits (digitValues ds))) (c :: (sign ++ ds))

/-- A number with a fraction, an exponent or both, or one of the words for values
    that have no numeral.  The strict dialect limits the whole part. -/
inductive SpellsDouble (dialect : Dialect) : Binary64 → List Char → Prop
  | nan : SpellsDouble dialect .nan ['N', 'a', 'N']
  | infinity : SpellsDouble dialect (.infinite false) ['I', 'n', 'f', 'i', 'n', 'i', 't', 'y']
  | negativeInfinity :
    SpellsDouble dialect (.infinite true) ['-', 'I', 'n', 'f', 'i', 'n', 'i', 't', 'y']
  | number {negative : Bool} {ds fs es : List Char} {fraction : List ℕ} {exponent : ℤ}
    (h : IsWholePart ds) (hlength : dialect = .strict → ds.length ≤ Numeral.digitLimit)
    (hfraction : SpellsFraction fraction fs) (hexponent : SpellsExponent exponent es)
    (hne : fs ++ es ≠ []) :
    SpellsDouble dialect (Parts.toBinary64 negative ⟨digitValues ds, fraction, exponent⟩)
      (minus negative ++ (ds ++ (fs ++ es)))

theorem EndsNumber.cons {c : Char} (h : continuesNumber c = false) (rest : List Char) :
    EndsNumber (c :: rest) := by
  intro d hd
  cases hd
  exact h

theorem EndsNumber.endsDigits {rest : List Char} (h : EndsNumber rest) : EndsDigits rest := by
  intro c hc
  have hnumber := h c hc
  simp only [continuesNumber, Bool.or_eq_false_iff] at hnumber
  exact hnumber.1.1.1

theorem valueOfDigits_digitValues (ds : List Char) :
    Numeral.valueOfDigits (digitValues ds) = Nat.ofDigitChars 10 ds 0 :=
  Numeral.valueOfDigits_reverse ds

theorem length_digitValues (ds : List Char) : (digitValues ds).length = ds.length := by
  rw [digitValues, List.length_reverse, List.length_map]

theorem digits_eq (cs : List Char) :
    digits cs = (digitValues (cs.takeWhile Char.isDigit), cs.dropWhile Char.isDigit) := by
  have hvalues : (cs.takeWhile Char.isDigit).filterMap Text.asciiDigit? =
      (cs.takeWhile Char.isDigit).map fun c => c.toNat - '0'.toNat := by
    rw [← List.filterMap_eq_map]
    apply List.filterMap_congr
    intro c hc
    simp [Text.asciiDigit?, List.mem_takeWhile_imp hc]
  unfold digits digitValues
  rw [hvalues]

theorem digits_append {ds rest : List Char} (h : ∀ c ∈ ds, c.isDigit) (hrest : EndsDigits rest) :
    digits (ds ++ rest) = (digitValues ds, rest) := by
  have hstop : rest.takeWhile Char.isDigit = [] ∧ rest.dropWhile Char.isDigit = rest := by
    cases rest with
    | nil => exact ⟨rfl, rfl⟩
    | cons c rest =>
      have hdigit : ¬ c.isDigit := by simp [hrest c rfl]
      exact ⟨List.takeWhile_cons_of_neg hdigit, List.dropWhile_cons_of_neg hdigit⟩
  rw [digits_eq, List.takeWhile_append_of_pos h, List.dropWhile_append_of_pos h, hstop.1, hstop.2,
    List.append_nil]

theorem wholePart?_append {ds rest : List Char} (h : IsWholePart ds) (hrest : EndsDigits rest) :
    wholePart? (ds ++ rest) = some (digitValues ds, rest) := by
  obtain ⟨c, ds', rfl⟩ := List.exists_cons_of_ne_nil h.nonempty
  -- A leading 0 stands alone; any other digit takes all that follow.
  by_cases hzero : c = '0'
  · subst hzero
    have hds := h.leading rfl
    cases hds
    rfl
  · rw [List.cons_append, wholePart?.eq_def]
    split
    · rename_i heq
      exact absurd (List.cons.inj heq).1 hzero
    · rename_i heq
      obtain ⟨rfl, rfl⟩ := List.cons.inj heq
      rw [if_pos (h.digits _ List.mem_cons_self), ← List.cons_append, digits_append h.digits hrest]
    · rename_i heq
      cases heq

theorem exponentPart?_eq_none {rest : List Char} (h : EndsNumber rest) :
    exponentPart? rest = none := by
  unfold exponentPart?
  split
  · have := h 'e' rfl
    exact absurd this (by decide)
  · have := h 'E' rfl
    exact absurd this (by decide)
  · rfl

theorem fractionPart?_eq_none {rest : List Char} (h : rest.head? ≠ some '.') :
    fractionPart? rest = none := by
  unfold fractionPart?
  split
  · exact absurd rfl h
  · rfl

theorem EndsNumber.head?_ne_point {rest : List Char} (h : EndsNumber rest) :
    rest.head? ≠ some '.' := by
  intro hpoint
  have := h '.' hpoint
  exact absurd this (by decide)

theorem fractionAndExponent?_eq_none {rest : List Char} (h : EndsNumber rest) :
    fractionAndExponent? rest = none := by
  unfold fractionAndExponent?
  rw [fractionPart?_eq_none h.head?_ne_point, exponentPart?_eq_none h]
  rfl

theorem splitSign_append {negative : Bool} {sign ds : List Char} (hsign : SpellsSign negative sign)
    (h : AreDigits ds) (rest : List Char) :
    Numeral.splitSign (sign ++ ds ++ rest) = (negative, ds ++ rest) := by
  cases hsign with
  | none =>
    obtain ⟨c, ds', rfl⟩ := List.exists_cons_of_ne_nil h.nonempty
    exact Numeral.splitSign_of_isDigit (h.digits c List.mem_cons_self)
  | plus => rfl
  | minus => rfl

theorem exponentPart?_letter {c : Char} {negative : Bool} {sign ds rest : List Char}
    (hc : c = 'e' ∨ c = 'E') (hsign : SpellsSign negative sign) (h : AreDigits ds)
    (hrest : EndsNumber rest) :
    exponentPart? (c :: (sign ++ ds ++ rest)) =
      some (signed negative (Numeral.valueOfDigits (digitValues ds)), rest) := by
  have hempty : (digitValues ds).isEmpty = false := by
    rw [List.isEmpty_eq_false_iff, ← List.length_pos_iff, length_digitValues]
    exact List.length_pos_iff.2 h.nonempty
  have hsplit := splitSign_append hsign h rest
  have hdigits := digits_append h.digits hrest.endsDigits
  rcases hc with rfl | rfl
  all_goals
    unfold exponentPart?
    simp only [hsplit, hdigits, hempty, Bool.false_eq_true, if_false]
    rfl

/-- What stands behind the whole part is read to its end. -/
theorem fractionAndExponent?_append {fraction : List ℕ} {exponent : ℤ} {fs es rest : List Char}
    (hfraction : SpellsFraction fraction fs) (hexponent : SpellsExponent exponent es)
    (hne : fs ++ es ≠ []) (hrest : EndsNumber rest) :
    fractionAndExponent? (fs ++ es ++ rest) = some (fraction, exponent, rest) := by
  unfold fractionAndExponent?
  cases hfraction with
  | none =>
    cases hexponent with
    | none => exact absurd rfl hne
    | @letter c negative sign ds hc hsign h =>
      have hpoint : (c :: (sign ++ ds ++ rest)).head? ≠ some '.' := by
        rcases hc with rfl | rfl
        all_goals simp
      rw [List.nil_append, List.cons_append, fractionPart?_eq_none hpoint,
        exponentPart?_letter hc hsign h hrest]
      rfl
  | @point ds h =>
    -- The digits of the fraction end before the exponent or with the number.
    have hends : EndsDigits (es ++ rest) := by
      cases hexponent with
      | none => exact hrest.endsDigits
      | letter hc hsign h =>
        rintro d ⟨⟩
        rcases hc with rfl | rfl <;> rfl
    have hpart : fractionPart? ('.' :: ds ++ es ++ rest) = some (digitValues ds, es ++ rest) := by
      obtain ⟨c, ds', rfl⟩ := List.exists_cons_of_ne_nil h.nonempty
      rw [List.append_assoc, List.cons_append, List.cons_append, fractionPart?,
        if_pos (h.digits c List.mem_cons_self), ← List.cons_append, digits_append h.digits hends]
    rw [hpart]
    cases hexponent with
    | none => simp only [List.nil_append, exponentPart?_eq_none hrest]
    | letter hc hsign h =>
      rw [List.cons_append]
      simp only [exponentPart?_letter hc hsign h hrest]

/-- A number by its whole part and what follows that. -/
theorem number_append (negative : Bool) {ds rest : List Char} (h : IsWholePart ds)
    (hwhole : wholePart? (ds ++ rest) = some (digitValues ds, rest)) :
    number dialect (minus negative ++ (ds ++ rest)) =
      if Numeral.digitLimit < ds.length &&
          (dialect = .strict || (fractionAndExponent? rest).isNone) then
        .error ⟨.integerTooLong ds.length, minus negative ++ (ds ++ rest)⟩
      else
        match fractionAndExponent? rest with
        | none => .ok (.whole (signed negative (Numeral.valueOfDigits (digitValues ds))), rest)
        | some (fraction, exponent, rest) =>
          .ok (.double (Parts.toBinary64 negative ⟨digitValues ds, fraction, exponent⟩), rest) := by
  cases negative with
  | true =>
    unfold number minus
    simp only [if_true, List.singleton_append, hwhole, length_digitValues]
    rfl
  | false =>
    obtain ⟨c, ds', rfl⟩ := List.exists_cons_of_ne_nil h.nonempty
    have hminus : c ≠ '-' := by
      rintro rfl
      exact absurd (h.digits '-' List.mem_cons_self) (by decide)
    -- Without a sign the first digit must not be read as one.
    rw [List.cons_append] at hwhole
    unfold number minus
    simp only [Bool.false_eq_true, if_false, List.nil_append, List.cons_append, hminus,
      List.cons.injEq, false_and, imp_self, implies_true, hwhole, length_digitValues]
    rfl

theorem number_eq_ok {n : ℤ} {cs rest : List Char} (h : SpellsWhole n cs)
    (hrest : EndsNumber rest) : number dialect (cs ++ rest) = .ok (.whole n, rest) := by
  have hunsigned : ∀ {n : ℕ} {ds : List Char} (negative : Bool), SpellsNatural n ds →
      number dialect (minus negative ++ (ds ++ rest)) = .ok (.whole (signed negative n), rest) := by
    intro n ds negative h
    -- A spelled integer keeps the limit on its digits in both dialects.
    have hlength : ¬ Numeral.digitLimit < ds.length := not_lt.2 h.length_le
    have hwhole := wholePart?_append h.toIsWholePart hrest.endsDigits
    rw [number_append negative h.toIsWholePart hwhole, if_neg (by simp [hlength]),
      fractionAndExponent?_eq_none hrest, valueOfDigits_digitValues, h.value]
  cases h with
  | natural h => exact hunsigned false h
  | negative h => exact hunsigned true h

theorem number_double_eq_ok {negative : Bool} {ds fs es rest : List Char} {fraction : List ℕ}
    {exponent : ℤ} (h : IsWholePart ds)
    (hlength : dialect = .strict → ds.length ≤ Numeral.digitLimit)
    (hfraction : SpellsFraction fraction fs) (hexponent : SpellsExponent exponent es)
    (hne : fs ++ es ≠ []) (hrest : EndsNumber rest) :
    number dialect (minus negative ++ (ds ++ (fs ++ es)) ++ rest) =
      .ok (.double (Parts.toBinary64 negative ⟨digitValues ds, fraction, exponent⟩), rest) := by
  -- The digits end where the fraction or the exponent begins.
  have hends : EndsDigits (fs ++ es ++ rest) := by
    cases hfraction with
    | point => rintro d ⟨⟩; rfl
    | none =>
      cases hexponent with
      | none => exact absurd rfl hne
      | letter hc =>
        rintro d ⟨⟩
        rcases hc with rfl | rfl <;> rfl
  have hfollowing := fractionAndExponent?_append hfraction hexponent hne hrest
  rw [List.append_assoc, List.append_assoc, number_append negative h (wholePart?_append h hends),
    hfollowing, if_neg]
  simp only [Option.isNone_some, Bool.or_false, Bool.and_eq_true, decide_eq_true_eq, not_and]
  exact fun hlong hstrict => absurd (hlength hstrict) (not_le.2 hlong)

/-! ## Section 4: phrases -/

/-- What a stretch of text stands for. -/
inductive Phrase where
  | value (v : Value)
  | items (vs : List Value)
  | fields (fs : List (Text × Value))

/-- The texts of a phrase. -/
inductive Spells (dialect : Dialect) : (room : ℕ) → Phrase → List Char → Prop
  | null {room : ℕ} : Spells dialect room (.value .null) ['n', 'u', 'l', 'l']
  | true {room : ℕ} : Spells dialect room (.value (.bool true)) ['t', 'r', 'u', 'e']
  | false {room : ℕ} : Spells dialect room (.value (.bool false)) ['f', 'a', 'l', 's', 'e']
  | whole {room : ℕ} {n : ℤ} {cs : List Char} (h : SpellsWhole n cs) :
    Spells dialect room (.value (.whole n)) cs
  | double {room : ℕ} {x : Binary64} {cs : List Char} (h : SpellsDouble dialect x cs) :
    Spells dialect room (.value (.double x)) cs
  | text {room : ℕ} {t : Text} {cs : List Char} (h : SpellsText dialect t cs) :
    Spells dialect room (.value (.text t)) cs
  | emptyList {room : ℕ} {b : List Char} (hroom : isTooDeep dialect room true = false)
    (hb : Blank b) : Spells dialect room (.value (.list [])) ('[' :: b ++ [']'])
  | list {room : ℕ} {vs : List Value} {cs : List Char} (h : Spells dialect room (.items vs) cs) :
    Spells dialect (room + 1) (.value (.list vs)) ('[' :: cs ++ [']'])
  | emptyObject {room : ℕ} {b : List Char} (hroom : isTooDeep dialect room true = false)
    (hb : Blank b) : Spells dialect room (.value (.object [])) ('{' :: b ++ ['}'])
  | object {room : ℕ} {fs : List (Text × Value)} {cs : List Char}
    (h : Spells dialect room (.fields fs) cs) :
    Spells dialect (room + 1) (.value (.object fs)) ('{' :: cs ++ ['}'])
  | lastItem {room : ℕ} {v : Value} {b cs b' : List Char} (hb : Blank b)
    (h : Spells dialect room (.value v) cs) (hb' : Blank b') :
    Spells dialect room (.items [v]) (b ++ cs ++ b')
  | item {room : ℕ} {v : Value} {vs : List Value} {b cs b' ds : List Char} (hb : Blank b)
    (h : Spells dialect room (.value v) cs) (hb' : Blank b')
    (hs : Spells dialect room (.items vs) ds) :
    Spells dialect room (.items (v :: vs)) (b ++ cs ++ b' ++ ',' :: ds)
  | lastField {room : ℕ} {name : Text} {v : Value} {b₁ ns b₂ b₃ cs b₄ : List Char} (hb₁ : Blank b₁)
    (hname : SpellsText dialect name ns) (hb₂ : Blank b₂) (hb₃ : Blank b₃)
    (h : Spells dialect room (.value v) cs) (hb₄ : Blank b₄) :
    Spells dialect room (.fields [(name, v)]) (b₁ ++ ns ++ b₂ ++ ':' :: (b₃ ++ cs ++ b₄))
  | field {room : ℕ} {name : Text} {v : Value} {fs : List (Text × Value)}
    {b₁ ns b₂ b₃ cs b₄ ds : List Char} (hb₁ : Blank b₁) (hname : SpellsText dialect name ns)
    (hb₂ : Blank b₂) (hb₃ : Blank b₃) (h : Spells dialect room (.value v) cs)
    (hb₄ : Blank b₄) (hs : Spells dialect room (.fields fs) ds) :
    Spells dialect room (.fields ((name, v) :: fs))
      (b₁ ++ ns ++ b₂ ++ ':' :: (b₃ ++ cs ++ b₄ ++ ',' :: ds))

/-! ## Section 5: where phrases start -/

/-- A character with which a value starts. -/
def startsValue (c : Char) : Bool :=
  c.isDigit || ['[', '{', '"', '-', 'n', 't', 'f', 'N', 'I'].contains c

/-- What starts a value is no blank, closes nothing and is no byte order
    mark. -/
theorem ne_of_startsValue {c d : Char} (h : startsValue c) (hd : startsValue d = false) : c ≠ d := by
  rintro rfl
  rw [h] at hd
  cases hd

theorem isSpace_of_startsValue {c : Char} (h : startsValue c) : isSpace c = false := by
  have hne : c ≠ ' ' ∧ c ≠ '\t' ∧ c ≠ '\n' ∧ c ≠ '\r' :=
    ⟨ne_of_startsValue h rfl, ne_of_startsValue h rfl, ne_of_startsValue h rfl,
      ne_of_startsValue h rfl⟩
  simp [isSpace, hne]

/-- A whole number is its sign and its digits. -/
theorem SpellsWhole.exists_minus {n : ℤ} {cs : List Char} (h : SpellsWhole n cs) :
    ∃ negative ds, cs = minus negative ++ ds ∧ IsWholePart ds := by
  cases h with
  | natural h => exact ⟨false, _, rfl, h.toIsWholePart⟩
  | negative h => exact ⟨true, _, rfl, h.toIsWholePart⟩

theorem startsValue_of_starts {c : Char} (h : c = '-' ∨ c.isDigit) : startsValue c := by
  rcases h with rfl | h
  · rfl
  · simp [startsValue, h]

/-- A number starts with its sign or a digit. -/
theorem IsWholePart.starts (negative : Bool) {ds : List Char} (h : IsWholePart ds)
    (rest : List Char) :
    ∃ c cs, minus negative ++ (ds ++ rest) = c :: cs ∧ (c = '-' ∨ c.isDigit) := by
  cases negative with
  | true => exact ⟨'-', ds ++ rest, rfl, .inl rfl⟩
  | false =>
    obtain ⟨c, ds, rfl⟩ := List.exists_cons_of_ne_nil h.nonempty
    exact ⟨c, ds ++ rest, rfl, .inr (h.digits c List.mem_cons_self)⟩

theorem SpellsText.starts {t : Text} {cs : List Char} (h : SpellsText dialect t cs) :
    ∃ ds, cs = '"' :: ds := by
  obtain ⟨-, -, -⟩ := h
  exact ⟨_, rfl⟩

theorem Spells.starts {v : Value} {cs : List Char} (h : Spells dialect room (.value v) cs) :
    ∃ c ds, cs = c :: ds ∧ startsValue c := by
  cases h with
  | whole h =>
    obtain ⟨negative, ds, rfl, hds⟩ := h.exists_minus
    obtain ⟨c, rest, hcs, hc⟩ := hds.starts negative []
    rw [List.append_nil] at hcs
    exact ⟨c, rest, hcs, startsValue_of_starts hc⟩
  | double h =>
    cases h with
    | number h =>
      obtain ⟨c, ds, hcs, hc⟩ := h.starts _ _
      exact ⟨c, ds, hcs, startsValue_of_starts hc⟩
    | _ => exact ⟨_, _, rfl, rfl⟩
  | text h =>
    obtain ⟨ds, hds⟩ := h.starts
    exact ⟨'"', ds, hds, rfl⟩
  | _ => exact ⟨_, _, rfl, rfl⟩

/-- No blank stands before a value. -/
theorem Spells.skip_append {v : Value} {cs : List Char} (h : Spells dialect room (.value v) cs)
    (rest : List Char) : skip (cs ++ rest) = cs ++ rest := by
  obtain ⟨c, ds, rfl, hc⟩ := h.starts
  exact skip_cons (isSpace_of_startsValue hc) (ds ++ rest)

/-- Behind their blanks items start with a value. -/
theorem Spells.items_start {vs : List Value} {cs : List Char}
    (h : Spells dialect room (.items vs) cs) (rest : List Char) :
    ∃ c ds, skip (cs ++ rest) = c :: ds ∧ startsValue c := by
  cases h with
  | lastItem hb h hb' =>
    obtain ⟨c, ds, hcs, hc⟩ := h.starts
    simp only [List.append_assoc, skip_blank_append hb, h.skip_append]
    exact ⟨c, _, by rw [hcs]; rfl, hc⟩
  | item hb h hb' hs =>
    obtain ⟨c, ds, hcs, hc⟩ := h.starts
    simp only [List.append_assoc, skip_blank_append hb, h.skip_append]
    exact ⟨c, _, by rw [hcs]; rfl, hc⟩

theorem SpellsText.skip_append {t : Text} {cs : List Char} (h : SpellsText dialect t cs)
    (rest : List Char) : skip (cs ++ rest) = cs ++ rest := by
  obtain ⟨ds, rfl⟩ := h.starts
  exact skip_cons rfl (ds ++ rest)

/-- Behind their blanks fields start with a quote. -/
theorem Spells.fields_start {fs : List (Text × Value)} {cs : List Char}
    (h : Spells dialect room (.fields fs) cs) (rest : List Char) :
    ∃ ds, skip (cs ++ rest) = '"' :: ds := by
  cases h with
  | lastField hb hname =>
    obtain ⟨ds, hds⟩ := hname.starts
    simp only [List.append_assoc, skip_blank_append hb, hname.skip_append]
    exact ⟨_, by rw [hds]; rfl⟩
  | field hb hname =>
    obtain ⟨ds, hds⟩ := hname.starts
    simp only [List.append_assoc, skip_blank_append hb, hname.skip_append]
    exact ⟨_, by rw [hds]; rfl⟩

/-! ## Section 6: steps of the reader -/

section Steps

variable {fuel : ℕ} {v : Value} {vs : List Value} {name : Text} {fs : List (Text × Value)}
  {cs rest rest' rest'' : List Char}

theorem value_of_scalar {c : Char} (hlist : c ≠ '[') (hobject : c ≠ '{') :
    value dialect room (fuel + 1) (c :: cs) = scalar dialect (c :: cs) := by
  rw [value.eq_def]
  simp [hlist, hobject]

theorem scalar_of_isWholePart (negative : Bool) {ds : List Char} (h : IsWholePart ds)
    (rest : List Char) :
    scalar dialect (minus negative ++ (ds ++ rest)) =
      number dialect (minus negative ++ (ds ++ rest)) := by
  obtain ⟨c, ds, rfl⟩ := List.exists_cons_of_ne_nil h.nonempty
  -- No digit opens any other kind of scalar.
  have hne : ∀ d : Char, d.isDigit = false → c ≠ d := by
    rintro d hd rfl
    rw [h.digits c List.mem_cons_self] at hd
    cases hd
  cases negative with
  | true =>
    show scalar dialect ('-' :: c :: (ds ++ rest)) = number dialect ('-' :: c :: (ds ++ rest))
    rw [scalar.eq_def]
    simp [hne 'I' rfl]
  | false =>
    show scalar dialect (c :: (ds ++ rest)) = number dialect (c :: (ds ++ rest))
    rw [scalar.eq_def]
    simp [hne '"' rfl, hne 'n' rfl, hne 't' rfl, hne 'f' rfl, hne 'N' rfl, hne 'I' rfl, hne '-' rfl]

/-- A value that starts as a number is one. -/
theorem value_of_isWholePart (negative : Bool) {ds : List Char} (h : IsWholePart ds)
    (rest : List Char) :
    value dialect room (fuel + 1) (minus negative ++ (ds ++ rest)) =
      number dialect (minus negative ++ (ds ++ rest)) := by
  rw [← scalar_of_isWholePart negative h rest]
  obtain ⟨c, cs, hcs, hc⟩ := h.starts negative rest
  -- A number opens neither a list nor an object.
  have hne : c ≠ '[' ∧ c ≠ '{' := by
    rcases hc with rfl | hc
    · decide
    · constructor <;> rintro rfl <;> exact absurd hc (by decide)
  rw [hcs]
  exact value_of_scalar hne.1 hne.2

theorem value_emptyList (hroom : isTooDeep dialect room true = false)
    (hskip : skip cs = ']' :: rest) :
    value dialect room (fuel + 1) ('[' :: cs) = .ok (.list [], rest) := by
  rw [value.eq_def]
  simp [hskip, hroom]

theorem value_emptyObject (hroom : isTooDeep dialect room true = false)
    (hskip : skip cs = '}' :: rest) :
    value dialect room (fuel + 1) ('{' :: cs) = .ok (.object [], rest) := by
  rw [value.eq_def]
  simp [hskip, hroom]

theorem value_list {c : Char} {ds : List Char} (hstart : skip cs = c :: ds) (hc : c ≠ ']')
    (hitems : items dialect room fuel (skip cs) = .ok (vs, rest)) :
    value dialect (room + 1) (fuel + 1) ('[' :: cs) = .ok (.list vs, rest) := by
  rw [hstart] at hitems
  rw [value.eq_def]
  simp [isTooDeep, hstart, hc, hitems, Except.map]

theorem value_object {c : Char} {ds : List Char} (hstart : skip cs = c :: ds) (hc : c ≠ '}')
    (hfields : fields dialect room fuel (skip cs) = .ok (fs, rest)) :
    value dialect (room + 1) (fuel + 1) ('{' :: cs) = .ok (.object fs, rest) := by
  rw [hstart] at hfields
  rw [value.eq_def]
  simp [isTooDeep, hstart, hc, hfields, Except.map]

theorem items_last (hv : value dialect room fuel cs = .ok (v, rest))
    (hskip : skip rest = ']' :: rest') :
    items dialect room (fuel + 1) cs = .ok ([v], rest') := by
  simp [items, hv, hskip, bind, Except.bind]

theorem items_more (hv : value dialect room fuel cs = .ok (v, rest))
    (hskip : skip rest = ',' :: rest')
    (hs : items dialect room fuel (skip rest') = .ok (vs, rest'')) :
    items dialect room (fuel + 1) cs = .ok (v :: vs, rest'') := by
  simp [items, hv, hskip, hs, bind, Except.bind]

variable {ns afterName afterValue : List Char}

theorem fields_last (hname : string dialect ns = .ok (name, afterName))
    (hcolon : skip afterName = ':' :: cs)
    (hv : value dialect room fuel (skip cs) = .ok (v, afterValue))
    (hskip : skip afterValue = '}' :: rest) :
    fields dialect room (fuel + 1) ('"' :: ns) = .ok ([(name, v)], rest) := by
  simp [fields, hname, hcolon, hv, hskip, bind, Except.bind]

theorem fields_more (hname : string dialect ns = .ok (name, afterName))
    (hcolon : skip afterName = ':' :: cs)
    (hv : value dialect room fuel (skip cs) = .ok (v, afterValue))
    (hskip : skip afterValue = ',' :: rest)
    (hs : fields dialect room fuel (skip rest) = .ok (fs, rest')) :
    fields dialect room (fuel + 1) ('"' :: ns) = .ok ((name, v) :: fs, rest') := by
  simp [fields, hname, hcolon, hv, hskip, hs, bind, Except.bind]

end Steps

/-! ## Section 7: reading -/

/-- The reader takes a text of the phrase to its end, whatever follows it, if it
    has as much fuel as the text has characters.  Items and fields come after
    the step into their container and are followed by its end. -/
def Phrase.IsRead (dialect : Dialect) (room : ℕ) (cs : List Char) : Phrase → Prop
  | .value v => ∀ fuel rest, cs.length ≤ fuel → EndsNumber rest →
      Json.value dialect room fuel (cs ++ rest) = .ok (v, rest)
  | .items vs => ∀ fuel rest, cs.length < fuel →
      Json.items dialect room fuel (skip (cs ++ ']' :: rest)) = .ok (vs, rest)
  | .fields fs => ∀ fuel rest, cs.length < fuel →
      Json.fields dialect room fuel (skip (cs ++ '}' :: rest)) = .ok (fs, rest)

theorem EndsNumber.append {b : List Char} (hb : Blank b) {rest : List Char}
    (hrest : EndsNumber rest) : EndsNumber (b ++ rest) := by
  cases b with
  | nil => exact hrest
  | cons c b =>
    apply EndsNumber.cons
    rcases isSpace_iff.1 (hb c List.mem_cons_self) with rfl | rfl | rfl | rfl <;> rfl

/-- Every text of a phrase is read. -/
theorem Spells.isRead {p : Phrase} {cs : List Char} (h : Spells dialect room p cs) :
    p.IsRead dialect room cs := by
  -- On the text; each constructor is a step of the reader.
  induction h with
  | null | true | false =>
    intro fuel rest hfuel _
    obtain ⟨fuel, rfl⟩ := Nat.exists_eq_add_of_lt hfuel
    rfl
  | @whole room n cs h =>
    intro fuel rest hfuel hrest
    obtain ⟨negative, ds, rfl, hds⟩ := h.exists_minus
    obtain ⟨c, cs, hcs, -⟩ := hds.starts negative []
    rw [List.append_nil] at hcs
    rw [hcs] at hfuel
    obtain ⟨fuel, rfl⟩ := Nat.exists_eq_add_of_lt hfuel
    rw [List.append_assoc, value_of_isWholePart negative hds, ← List.append_assoc,
      number_eq_ok h hrest]
  | @double room x cs h =>
    intro fuel rest hfuel hrest
    cases h with
    | nan | infinity | negativeInfinity =>
      obtain ⟨fuel, rfl⟩ := Nat.exists_eq_add_of_lt hfuel
      rfl
    | @number negative ds fs es fraction exponent h hlength hfraction hexponent hne =>
      obtain ⟨c, cs, hcs, -⟩ := h.starts negative (fs ++ es)
      rw [hcs] at hfuel
      obtain ⟨fuel, rfl⟩ := Nat.exists_eq_add_of_lt hfuel
      rw [List.append_assoc, List.append_assoc, value_of_isWholePart negative h,
        ← List.append_assoc ds, ← List.append_assoc,
        number_double_eq_ok h hlength hfraction hexponent hne hrest]
  | @text room t cs h =>
    intro fuel rest hfuel _
    obtain ⟨body, rfl, hread⟩ := string_eq_ok h rest
    obtain ⟨fuel, rfl⟩ := Nat.exists_eq_add_of_lt hfuel
    show value dialect room (body.length + fuel + 1) ('"' :: (body ++ rest)) = _
    rw [value_of_scalar (by decide) (by decide)]
    show (string dialect (body ++ rest)).map _ = _
    rw [hread]
    rfl
  | @emptyList room b hroom hb =>
    intro fuel rest hfuel _
    obtain ⟨fuel, rfl⟩ := Nat.exists_eq_add_of_lt hfuel
    apply value_emptyList hroom
    show skip (b ++ [']'] ++ rest) = _
    rw [List.append_assoc, skip_blank_append hb]
    exact skip_cons rfl rest
  | @list room vs cs h ih =>
    intro fuel rest hfuel _
    have hlength : ('[' :: cs ++ [']']).length = cs.length + 2 := by simp
    obtain ⟨fuel, rfl⟩ := Nat.exists_eq_add_of_lt (Nat.lt_of_succ_le (hlength ▸ hfuel))
    obtain ⟨c, ds, hstart, hc⟩ := h.items_start (']' :: rest)
    rw [List.cons_append, List.cons_append, List.append_assoc]
    exact value_list hstart (ne_of_startsValue hc rfl) (ih _ rest (by omega))
  | @emptyObject room b hroom hb =>
    intro fuel rest hfuel _
    obtain ⟨fuel, rfl⟩ := Nat.exists_eq_add_of_lt hfuel
    apply value_emptyObject hroom
    show skip (b ++ ['}'] ++ rest) = _
    rw [List.append_assoc, skip_blank_append hb]
    exact skip_cons rfl rest
  | @object room fs cs h ih =>
    intro fuel rest hfuel _
    have hlength : ('{' :: cs ++ ['}']).length = cs.length + 2 := by simp
    obtain ⟨fuel, rfl⟩ := Nat.exists_eq_add_of_lt (Nat.lt_of_succ_le (hlength ▸ hfuel))
    obtain ⟨ds, hstart⟩ := h.fields_start ('}' :: rest)
    rw [List.cons_append, List.cons_append, List.append_assoc]
    exact value_object hstart (by decide) (ih _ rest (by omega))
  | @lastItem room v b cs b' hb h hb' ih =>
    intro fuel rest hfuel
    obtain ⟨fuel, rfl⟩ := Nat.exists_eq_add_of_lt hfuel
    simp only [List.length_append] at ih ⊢
    have hends : EndsNumber (b' ++ ']' :: rest) := .append hb' (.cons rfl rest)
    have hv := ih (b.length + cs.length + b'.length + fuel) _ (by omega) hends
    have hskip : skip (b' ++ ']' :: rest) = ']' :: rest := by
      rw [skip_blank_append hb', skip_cons rfl]
    rw [List.append_assoc, List.append_assoc, skip_blank_append hb, h.skip_append]
    exact items_last hv hskip
  | @item room v vs b cs b' ds hb h hb' hs ih ihs =>
    intro fuel rest hfuel
    obtain ⟨fuel, rfl⟩ := Nat.exists_eq_add_of_lt hfuel
    simp only [List.length_append, List.length_cons] at ih ihs ⊢
    have hends : EndsNumber (b' ++ ',' :: (ds ++ ']' :: rest)) := .append hb' (.cons rfl _)
    have hv := ih (b.length + cs.length + b'.length + (ds.length + 1) + fuel) _ (by omega) hends
    have hskip : skip (b' ++ ',' :: (ds ++ ']' :: rest)) = ',' :: (ds ++ ']' :: rest) := by
      rw [skip_blank_append hb', skip_cons rfl]
    rw [List.append_assoc, List.append_assoc, List.append_assoc, skip_blank_append hb,
      h.skip_append]
    exact items_more hv hskip (ihs _ rest (by omega))
  | @lastField room name v b₁ ns b₂ b₃ cs b₄ hb₁ hname hb₂ hb₃ h hb₄ ih =>
    intro fuel rest hfuel
    obtain ⟨fuel, rfl⟩ := Nat.exists_eq_add_of_lt hfuel
    simp only [List.append_assoc, List.cons_append, List.length_append, List.length_cons] at ih ⊢
    have hends : EndsNumber (b₄ ++ '}' :: rest) := .append hb₄ (.cons rfl rest)
    obtain ⟨body, rfl, hstring⟩ :=
      string_eq_ok hname (b₂ ++ ':' :: (b₃ ++ (cs ++ (b₄ ++ '}' :: rest))))
    rw [skip_blank_append hb₁, hname.skip_append]
    apply fields_last hstring
    · rw [skip_blank_append hb₂, skip_cons rfl]
    · rw [skip_blank_append hb₃, h.skip_append]
      exact ih _ _ (by omega) hends
    · rw [skip_blank_append hb₄, skip_cons rfl]
  | @field room name v fs b₁ ns b₂ b₃ cs b₄ ds hb₁ hname hb₂ hb₃ h hb₄ hs ih ihs =>
    intro fuel rest hfuel
    obtain ⟨fuel, rfl⟩ := Nat.exists_eq_add_of_lt hfuel
    simp only [List.append_assoc, List.cons_append, List.length_append, List.length_cons]
      at ih ihs ⊢
    have hends : EndsNumber (b₄ ++ ',' :: (ds ++ '}' :: rest)) := .append hb₄ (.cons rfl _)
    obtain ⟨body, rfl, hstring⟩ :=
      string_eq_ok hname (b₂ ++ ':' :: (b₃ ++ (cs ++ (b₄ ++ ',' :: (ds ++ '}' :: rest)))))
    rw [skip_blank_append hb₁, hname.skip_append]
    apply fields_more hstring
    · rw [skip_blank_append hb₂, skip_cons rfl]
    · rw [skip_blank_append hb₃, h.skip_append]
      exact ih _ _ (by omega) hends
    · rw [skip_blank_append hb₄, skip_cons rfl]
    · exact ihs _ rest (by omega)

/-- A text of a value is read as the value, with blanks around it or without. -/
theorem read_eq_ok {v : Value} {cs : List Char}
    (h : Spells dialect dialect.depthLimit (.value v) cs) {b b' : List Char} (hb : Blank b)
    (hb' : Blank b') : read dialect (b ++ cs ++ b') = .ok v := by
  obtain ⟨c, ds, hcs, hc⟩ := h.starts
  -- The text does not open with a byte order mark, which the reader would
  -- refuse.
  have hmark : ∀ rest, b ++ cs ++ b' ≠ '\ufeff' :: rest := by
    intro rest heq
    cases b with
    | nil =>
      rw [hcs] at heq
      exact ne_of_startsValue hc rfl (List.cons.inj heq).1
    | cons d b =>
      have hd := hb d List.mem_cons_self
      rw [(List.cons.inj heq).1] at hd
      exact absurd hd (by decide)
  have hends : EndsNumber (b' ++ []) := .append hb' (by rintro d ⟨⟩)
  -- The fuel is more than twice the length of the text.
  have hlength : cs.length ≤ 2 * (b ++ cs ++ b').length + 2 := by
    simp only [List.length_append]
    omega
  have hvalue := h.isRead _ _ hlength hends
  rw [List.append_nil] at hvalue
  have hskip : skip (b ++ cs ++ b') = cs ++ b' := by
    rw [List.append_assoc, skip_blank_append hb, h.skip_append]
  unfold read
  split
  · rename_i heq
    exact absurd heq (hmark _)
  · rw [hskip, hvalue]
    simp only [skip_of_blank hb']

end CalibratedCosts.Json
