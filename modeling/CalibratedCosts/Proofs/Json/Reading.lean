import Mathlib
import CalibratedCosts.Proofs.Json.Grammar
import CalibratedCosts.Proofs.Outcome

/-! # What is read is spelled

    The reader reads a value from a text only if the text is one of the value's:
    the grammar and the reader say the same.

    * **Denotation**: a text denotes a value if it is a text of the value with
      blanks around it.
    * **One value**: since reading is a function, a text denotes at most one
      value.
-/

namespace CalibratedCosts.Json

variable {dialect : Dialect} {room : ℕ}

/-! ## Section 1: strings -/

theorem push_eq_ok {n : ℕ} {step : Step (List ℕ)} {ns : List ℕ} {rest : List Char}
    (h : push n step = .ok (ns, rest)) : ∃ ms, step = .ok (ms, rest) ∧ ns = n :: ms := by
  obtain ⟨⟨ms, rest'⟩, hstep, heq⟩ := map_eq_ok_iff.1 h
  cases heq
  exact ⟨ms, hstep, rfl⟩

/-- A piece in front of a spelled string. -/
theorem exists_spellsUnits_of_push {n : ℕ} {ns : List ℕ} {cs piece rest : List Char}
    {step : Step (List ℕ)} (hpiece : SpellsUnit n piece) (h : push n step = .ok (ns, rest))
    (ih : ∀ ms, step = .ok (ms, rest) → ∃ ds, cs = ds ++ '"' :: rest ∧ SpellsUnits ms ds) :
    ∃ ds, piece ++ cs = ds ++ '"' :: rest ∧ SpellsUnits ns ds := by
  obtain ⟨ms, hstep, rfl⟩ := push_eq_ok h
  obtain ⟨ds, rfl, hs⟩ := ih ms hstep
  exact ⟨piece ++ ds, (List.append_assoc _ _ _).symm, .cons hpiece hs⟩

theorem exists_spellsUnits_of_stringNumbers {start cs rest : List Char} {ns : List ℕ}
    (h : stringNumbers start cs = .ok (ns, rest)) :
    ∃ ds, cs = ds ++ '"' :: rest ∧ SpellsUnits ns ds := by
  -- Only four branches end in a result: the closing quote, two kinds of escape
  -- and a plain character.
  fun_induction stringNumbers start cs generalizing ns
  case case2 rest' =>
    cases h
    exact ⟨[], rfl, .nil⟩
  case case5 a b c d rest' unit hunit hempty ih =>
    exact exists_spellsUnits_of_push (.digits hunit) h fun ms => ih
  case case8 c rest' _ e he ih =>
    exact exists_spellsUnits_of_push (.short he) h fun ms => ih
  case case11 c rest' hquote hend _ _ hescape hcontrol ih =>
    have hbackslash : c ≠ '\\' := by
      intro hc
      cases rest' with
      | nil => exact hend hc rfl
      | cons d rest' => exact hescape d rest' hc rfl
    exact exists_spellsUnits_of_push (.plain (not_lt.1 hcontrol) hquote hbackslash) h fun ms => ih
  all_goals cases h

theorem exists_spellsText_of_string {t : Text} {cs rest : List Char}
    (h : string dialect cs = .ok (t, rest)) :
    ∃ ds, '"' :: cs = ds ++ rest ∧ SpellsText dialect t ds := by
  unfold string at h
  split at h
  · cases h
  · rename_i ns rest' hread
    dsimp only at h
    split at h
    · cases h
    · rename_i hhalf
      cases h
      obtain ⟨ds, rfl, hs⟩ := exists_spellsUnits_of_stringNumbers hread
      refine ⟨'"' :: ds ++ ['"'], by simp, .quoted hs rfl ?_⟩
      intro hstrict
      simpa [hstrict] using hhalf

/-! ## Section 2: numbers -/

theorem exists_areDigits_of_digits {cs rest : List Char} {values : List ℕ}
    (h : digits cs = (values, rest)) (hne : values ≠ []) :
    ∃ ds, cs = ds ++ rest ∧ AreDigits ds ∧ values = digitValues ds := by
  rw [digits_eq] at h
  cases h
  refine ⟨_, List.takeWhile_append_dropWhile.symm,
    ⟨fun c hc => List.mem_takeWhile_imp hc, ?_⟩, rfl⟩
  intro hempty
  rw [hempty] at hne
  exact hne rfl

/-- A text that starts with a digit starts with digits. -/
theorem exists_areDigits_of_isDigit {c : Char} {cs rest : List Char} {values : List ℕ}
    (hc : c.isDigit) (h : digits (c :: cs) = (values, rest)) :
    ∃ ds, c :: cs = c :: ds ++ rest ∧ AreDigits (c :: ds) ∧ values = digitValues (c :: ds) := by
  have hne : values ≠ [] := by
    have hlength := congrArg (fun d => d.1.length) h
    rw [digits_eq, length_digitValues, List.takeWhile_cons_of_pos hc] at hlength
    exact List.ne_nil_of_length_pos (hlength ▸ Nat.succ_pos _)
  obtain ⟨ds, hcs, hds, hvalues⟩ := exists_areDigits_of_digits h hne
  obtain ⟨d, ds, rfl⟩ := List.exists_cons_of_ne_nil hds.nonempty
  obtain ⟨rfl, -⟩ := List.cons.inj hcs
  exact ⟨ds, hcs, hds, hvalues⟩

theorem exists_isWholePart_of_wholePart? {cs rest : List Char} {whole : List ℕ}
    (h : wholePart? cs = some (whole, rest)) :
    ∃ ds, cs = ds ++ rest ∧ IsWholePart ds ∧ whole = digitValues ds := by
  unfold wholePart? at h
  split at h
  · cases h
    exact ⟨['0'], rfl, ⟨⟨by simp, by simp⟩, fun _ => rfl⟩, rfl⟩
  · rename_i c cs hzero
    split at h
    · rename_i hc
      -- The rest of the digits follow the first.
      obtain ⟨ds, hcs, hds, hwhole⟩ := exists_areDigits_of_isDigit hc (Option.some.inj h)
      refine ⟨c :: ds, hcs, ⟨hds, ?_⟩, hwhole⟩
      intro hleading
      exact absurd (Option.some.inj hleading) hzero
    · cases h
  · cases h

theorem exists_spellsFraction_of_fractionPart? {cs rest : List Char} {fraction : List ℕ}
    (h : fractionPart? cs = some (fraction, rest)) :
    ∃ fs, cs = fs ++ rest ∧ fs ≠ [] ∧ SpellsFraction fraction fs := by
  unfold fractionPart? at h
  split at h
  · split at h
    · rename_i hc
      obtain ⟨ds, hcs, hds, rfl⟩ := exists_areDigits_of_isDigit hc (Option.some.inj h)
      exact ⟨'.' :: _, by rw [hcs]; rfl, List.cons_ne_nil _ _, .point hds⟩
    · cases h
  · cases h

/-- The sign in front of digits. -/
theorem exists_spellsSign (cs : List Char) :
    ∃ sign, cs = sign ++ (Numeral.splitSign cs).2 ∧ SpellsSign (Numeral.splitSign cs).1 sign := by
  unfold Numeral.splitSign
  split
  · exact ⟨['-'], rfl, .minus⟩
  · exact ⟨['+'], rfl, .plus⟩
  · exact ⟨[], rfl, .none⟩

theorem exists_letter_of_exponentPart? {cs rest : List Char} {exponent : ℤ}
    (h : exponentPart? cs = some (exponent, rest)) :
    ∃ c body values, cs = c :: body ∧ (c = 'e' ∨ c = 'E') ∧
      digits (Numeral.splitSign body).2 = (values, rest) ∧ values ≠ [] ∧
      exponent = signed (Numeral.splitSign body).1 (Numeral.valueOfDigits values) := by
  -- Both letters are read the same way.
  have hletter : ∀ body, exponentPart? ('e' :: body) = some (exponent, rest) →
      ∃ values, digits (Numeral.splitSign body).2 = (values, rest) ∧ values ≠ [] ∧
        exponent = signed (Numeral.splitSign body).1 (Numeral.valueOfDigits values) := by
    intro body hbody
    simp only [exponentPart?] at hbody
    split at hbody
    · cases hbody
    · rename_i hempty
      cases hbody
      exact ⟨_, rfl, fun hnil => hempty (List.isEmpty_iff.2 hnil), rfl⟩
  unfold exponentPart? at h
  split at h
  · obtain ⟨values, hvalues⟩ := hletter _ h
    exact ⟨'e', _, values, rfl, .inl rfl, hvalues⟩
  · obtain ⟨values, hvalues⟩ := hletter _ h
    exact ⟨'E', _, values, rfl, .inr rfl, hvalues⟩
  · cases h

theorem exists_spellsExponent_of_exponentPart? {cs rest : List Char} {exponent : ℤ}
    (h : exponentPart? cs = some (exponent, rest)) :
    ∃ es, cs = es ++ rest ∧ es ≠ [] ∧ SpellsExponent exponent es := by
  obtain ⟨c, body, values, rfl, hc, hdigits, hne, rfl⟩ := exists_letter_of_exponentPart? h
  obtain ⟨sign, hbody, hsign⟩ := exists_spellsSign body
  obtain ⟨ds, hds, hare, rfl⟩ := exists_areDigits_of_digits hdigits hne
  refine ⟨c :: (sign ++ ds), ?_, List.cons_ne_nil _ _, .letter hc hsign hare⟩
  rw [List.cons_append, List.append_assoc, ← hds, ← hbody]

theorem exists_spells_of_fractionAndExponent? {cs rest : List Char} {fraction : List ℕ}
    {exponent : ℤ} (h : fractionAndExponent? cs = some (fraction, exponent, rest)) :
    ∃ fs es, cs = fs ++ es ++ rest ∧ fs ++ es ≠ [] ∧ SpellsFraction fraction fs ∧
      SpellsExponent exponent es := by
  unfold fractionAndExponent? at h
  split at h
  · obtain ⟨⟨e, rest'⟩, he, heq⟩ := Option.map_eq_some_iff.1 h
    cases heq
    obtain ⟨es, hcs, hne, hes⟩ := exists_spellsExponent_of_exponentPart? he
    exact ⟨[], es, hcs, hne, .none, hes⟩
  -- A fraction is there; an exponent may follow.
  · rename_i hfraction
    obtain ⟨fs, rfl, hne, hfs⟩ := exists_spellsFraction_of_fractionPart? hfraction
    split at h
    · cases h
      exact ⟨fs, [], by rw [List.append_nil], by simpa using hne, hfs, .none⟩
    · rename_i hexponent
      cases h
      obtain ⟨es, rfl, -, hes⟩ := exists_spellsExponent_of_exponentPart? hexponent
      exact ⟨fs, es, (List.append_assoc _ _ _).symm, by simp [hne], hfs, hes⟩

theorem exists_minus_of_number {v : Value} {cs rest : List Char}
    (h : number dialect cs = .ok (v, rest)) :
    ∃ negative ds rest', cs = minus negative ++ (ds ++ rest') ∧ IsWholePart ds ∧
      wholePart? (ds ++ rest') = some (digitValues ds, rest') := by
  unfold number at h
  split at h
  rename_i negative body hsign
  -- The sign is the only character before the whole part.
  have hcs : cs = minus negative ++ body := by
    split at hsign
    all_goals
      cases hsign
      rfl
  cases hwhole : wholePart? body with
  | none =>
    rw [hwhole] at h
    cases h
  | some read =>
    obtain ⟨whole, rest'⟩ := read
    obtain ⟨ds, rfl, hds, rfl⟩ := exists_isWholePart_of_wholePart? hwhole
    exact ⟨negative, ds, rest', hcs, hds, hwhole⟩

theorem exists_spells_of_number {v : Value} {cs rest : List Char}
    (h : number dialect cs = .ok (v, rest)) :
    ∃ ds, cs = ds ++ rest ∧ Spells dialect room (.value v) ds := by
  obtain ⟨negative, ds, rest', rfl, hds, hwhole⟩ := exists_minus_of_number h
  rw [number_append negative hds hwhole] at h
  split at h
  · cases h
  · rename_i hlength
    simp only [Bool.and_eq_true, decide_eq_true_eq, Bool.or_eq_true, not_and_or, not_or,
      not_lt] at hlength
    split at h
    · rename_i hfollowing
      -- Neither fraction nor exponent: an integer, held to the limit by both
      -- dialects.
      have hle : ds.length ≤ Numeral.digitLimit := by simpa [hfollowing] using hlength
      cases h
      rw [valueOfDigits_digitValues]
      refine ⟨minus negative ++ ds, (List.append_assoc _ _ _).symm, .whole ?_⟩
      cases negative with
      | true => exact .negative ⟨hds, hle, rfl⟩
      | false => exact .natural ⟨hds, hle, rfl⟩
    · rename_i fraction exponent rest'' hfollowing
      -- Otherwise a double, whose digits only the strict dialect limits.
      have hle : dialect = .strict → ds.length ≤ Numeral.digitLimit := by
        intro hstrict
        simpa [hfollowing, hstrict] using hlength
      cases h
      obtain ⟨fs, es, rfl, hne, hfraction, hexponent⟩ :=
        exists_spells_of_fractionAndExponent? hfollowing
      refine ⟨minus negative ++ (ds ++ (fs ++ es)), ?_,
        .double (.number hds hle hfraction hexponent hne)⟩
      simp only [List.append_assoc]

/-! ## Section 3: values -/

theorem exists_spells_of_scalar {v : Value} {cs rest : List Char}
    (h : scalar dialect cs = .ok (v, rest)) :
    ∃ ds, cs = ds ++ rest ∧ Spells dialect room (.value v) ds := by
  unfold scalar at h
  split at h
  · obtain ⟨⟨t, rest'⟩, hstring, heq⟩ := map_eq_ok_iff.1 h
    cases heq
    obtain ⟨ds, hcs, hds⟩ := exists_spellsText_of_string hstring
    exact ⟨ds, hcs, .text hds⟩
  · cases h
    exact ⟨_, rfl, .null⟩
  · cases h
    exact ⟨_, rfl, .true⟩
  · cases h
    exact ⟨_, rfl, .false⟩
  · cases h
    exact ⟨_, rfl, .double .nan⟩
  · cases h
    exact ⟨_, rfl, .double .infinity⟩
  · cases h
    exact ⟨_, rfl, .double .negativeInfinity⟩
  · exact exists_spells_of_number h

theorem exists_blank_skip (cs : List Char) : ∃ b, Blank b ∧ cs = b ++ skip cs :=
  ⟨cs.takeWhile isSpace, fun _ hc => List.mem_takeWhile_imp hc,
    List.takeWhile_append_dropWhile.symm⟩

/-- Where a container that is not closed at once can be opened there is room. -/
theorem exists_room {c : Char} {inside : List Char} (hopen : ∀ ds, inside = c :: ds → False)
    (h : isTooDeep dialect room (inside.head? = some c) = false) : ∃ room', room = room' + 1 := by
  have hhead : inside.head? ≠ some c := by
    intro hc
    obtain ⟨ds, hds⟩ := List.head?_eq_some_iff.1 hc
    exact hopen ds hds
  rw [decide_eq_false hhead] at h
  cases room with
  | zero => simp [isTooDeep] at h
  | succ room => exact ⟨room, rfl⟩

/-- More blanks in front of items. -/
theorem Spells.blank_items {vs : List Value} {b cs : List Char} (hb : Blank b)
    (h : Spells dialect room (.items vs) cs) : Spells dialect room (.items vs) (b ++ cs) := by
  cases h with
  | lastItem hb' h hend =>
    rw [← List.append_assoc, ← List.append_assoc]
    exact .lastItem (hb.append hb') h hend
  | item hb' h hend hs =>
    rw [← List.append_assoc, ← List.append_assoc, ← List.append_assoc]
    exact .item (hb.append hb') h hend hs

/-- More blanks in front of fields. -/
theorem Spells.blank_fields {fs : List (Text × Value)} {b cs : List Char} (hb : Blank b)
    (h : Spells dialect room (.fields fs) cs) : Spells dialect room (.fields fs) (b ++ cs) := by
  cases h with
  | lastField hb' hname hb₂ hb₃ h hb₄ =>
    rw [← List.append_assoc, ← List.append_assoc, ← List.append_assoc]
    exact .lastField (hb.append hb') hname hb₂ hb₃ h hb₄
  | field hb' hname hb₂ hb₃ h hb₄ hs =>
    rw [← List.append_assoc, ← List.append_assoc, ← List.append_assoc]
    exact .field (hb.append hb') hname hb₂ hb₃ h hb₄ hs

section Steps

variable {fuel : ℕ} {v : Value} {vs : List Value} {fs : List (Text × Value)} {cs rest : List Char}

/-- An array is closed at once, or has items for which there is room. -/
theorem list_cases (h : value dialect room (fuel + 1) ('[' :: cs) = .ok (v, rest)) :
    (isTooDeep dialect room true = false ∧ skip cs = ']' :: rest ∧ v = .list []) ∨
      ∃ room' vs, room = room' + 1 ∧ items dialect room' fuel (skip cs) = .ok (vs, rest) ∧
        v = .list vs := by
  simp only [value] at h
  split at h
  · cases h
  · rename_i hroom
    rw [Bool.not_eq_true] at hroom
    split at h
    · rename_i hskip
      cases h
      rw [hskip] at hroom
      exact .inl ⟨hroom, hskip, rfl⟩
    -- The list is not empty, so there was room for one more level.
    · rename_i hskip
      obtain ⟨⟨vs, rest'⟩, hitems, heq⟩ := map_eq_ok_iff.1 h
      cases heq
      obtain ⟨room, rfl⟩ := exists_room hskip hroom
      exact .inr ⟨room, vs, rfl, hitems, rfl⟩

/-- An object is closed at once, or has fields for which there is room. -/
theorem object_cases (h : value dialect room (fuel + 1) ('{' :: cs) = .ok (v, rest)) :
    (isTooDeep dialect room true = false ∧ skip cs = '}' :: rest ∧ v = .object []) ∨
      ∃ room' fs, room = room' + 1 ∧ fields dialect room' fuel (skip cs) = .ok (fs, rest) ∧
        v = .object fs := by
  simp only [value] at h
  split at h
  · cases h
  · rename_i hroom
    rw [Bool.not_eq_true] at hroom
    split at h
    · rename_i hskip
      cases h
      rw [hskip] at hroom
      exact .inl ⟨hroom, hskip, rfl⟩
    · rename_i hskip
      obtain ⟨⟨fs, rest'⟩, hfields, heq⟩ := map_eq_ok_iff.1 h
      cases heq
      obtain ⟨room, rfl⟩ := exists_room hskip hroom
      exact .inr ⟨room, fs, rfl, hfields, rfl⟩

/-- Behind an item the array is closed, or a comma and other items follow. -/
theorem items_cases (h : items dialect room (fuel + 1) cs = .ok (vs, rest)) :
    ∃ v rest', value dialect room fuel cs = .ok (v, rest') ∧
      ((skip rest' = ']' :: rest ∧ vs = [v]) ∨
        ∃ more vs', skip rest' = ',' :: more ∧
          items dialect room fuel (skip more) = .ok (vs', rest) ∧ vs = v :: vs') := by
  simp only [items] at h
  obtain ⟨⟨v, rest'⟩, hv, h⟩ := bind_eq_ok_iff.1 h
  refine ⟨v, rest', hv, ?_⟩
  dsimp only at h
  split at h
  · rename_i hskip
    cases h
    exact .inl ⟨hskip, rfl⟩
  · rename_i more hskip
    obtain ⟨⟨vs', rest''⟩, hvs, heq⟩ := bind_eq_ok_iff.1 h
    cases heq
    exact .inr ⟨more, vs', hskip, hvs, rfl⟩
  · cases h

/-- Behind the value of a field the object is closed, or a comma and other fields
    follow. -/
theorem fields_cases (h : fields dialect room (fuel + 1) cs = .ok (fs, rest)) :
    ∃ body name afterName ns v rest', cs = '"' :: body ∧
      string dialect body = .ok (name, afterName) ∧ skip afterName = ':' :: ns ∧
      value dialect room fuel (skip ns) = .ok (v, rest') ∧
      ((skip rest' = '}' :: rest ∧ fs = [(name, v)]) ∨
        ∃ more fs', skip rest' = ',' :: more ∧
          fields dialect room fuel (skip more) = .ok (fs', rest) ∧ fs = (name, v) :: fs') := by
  rw [fields.eq_def] at h
  split at h
  · cases h
  · rename_i fuel' body heq
    cases heq
    obtain ⟨⟨name, afterName⟩, hname, h⟩ := bind_eq_ok_iff.1 h
    dsimp only at h
    split at h
    · rename_i ns hcolon
      obtain ⟨⟨v, rest'⟩, hv, h⟩ := bind_eq_ok_iff.1 h
      refine ⟨body, name, afterName, ns, v, rest', rfl, hname, hcolon, hv, ?_⟩
      dsimp only at h
      split at h
      · rename_i hskip
        cases h
        exact .inl ⟨hskip, rfl⟩
      · rename_i more hskip
        obtain ⟨⟨fs', rest''⟩, hfs, heq⟩ := bind_eq_ok_iff.1 h
        cases heq
        exact .inr ⟨more, fs', hskip, hfs, rfl⟩
      · cases h
    · cases h
  · cases h

end Steps

/-- With so much fuel, what is read as a value, as items or as fields is spelled
    by the text in front of what is left. -/
structure ReadsSpelled (dialect : Dialect) (fuel : ℕ) : Prop where
  value : ∀ {room v cs rest}, Json.value dialect room fuel cs = .ok (v, rest) →
    ∃ ds, cs = ds ++ rest ∧ Spells dialect room (.value v) ds
  items : ∀ {room vs cs rest}, Json.items dialect room fuel cs = .ok (vs, rest) →
    ∃ ds, cs = ds ++ ']' :: rest ∧ Spells dialect room (.items vs) ds
  fields : ∀ {room fs cs rest}, Json.fields dialect room fuel cs = .ok (fs, rest) →
    ∃ ds, cs = ds ++ '}' :: rest ∧ Spells dialect room (.fields fs) ds

namespace ReadsSpelled

variable {fuel : ℕ} {v : Value} {vs : List Value} {fs : List (Text × Value)} {cs rest : List Char}

theorem value_succ (ih : ReadsSpelled dialect fuel)
    (h : Json.value dialect room (fuel + 1) cs = .ok (v, rest)) :
    ∃ ds, cs = ds ++ rest ∧ Spells dialect room (.value v) ds := by
  -- What does not open a container is a scalar.
  by_cases hlist : ∃ body, cs = '[' :: body
  · obtain ⟨body, rfl⟩ := hlist
    obtain ⟨b, hb, hbody⟩ := exists_blank_skip body
    rcases list_cases h with ⟨hroom, hskip, rfl⟩ | ⟨room, vs, rfl, hitems, rfl⟩
    · exact ⟨'[' :: b ++ [']'], by rw [hbody, hskip]; simp, .emptyList hroom hb⟩
    · obtain ⟨ds, hds, hspells⟩ := ih.items hitems
      refine ⟨'[' :: (b ++ ds) ++ [']'], by rw [hbody, hds]; simp, .list ?_⟩
      exact .blank_items hb hspells
  by_cases hobject : ∃ body, cs = '{' :: body
  · obtain ⟨body, rfl⟩ := hobject
    obtain ⟨b, hb, hbody⟩ := exists_blank_skip body
    rcases object_cases h with ⟨hroom, hskip, rfl⟩ | ⟨room, fs, rfl, hfields, rfl⟩
    · exact ⟨'{' :: b ++ ['}'], by rw [hbody, hskip]; simp, .emptyObject hroom hb⟩
    · obtain ⟨ds, hds, hspells⟩ := ih.fields hfields
      refine ⟨'{' :: (b ++ ds) ++ ['}'], by rw [hbody, hds]; simp, .object ?_⟩
      exact .blank_fields hb hspells
  · have hscalar : Json.value dialect room (fuel + 1) cs = scalar dialect cs := by
      cases cs with
      | nil => rfl
      | cons c body =>
        apply value_of_scalar
        · rintro rfl
          exact hlist ⟨body, rfl⟩
        · rintro rfl
          exact hobject ⟨body, rfl⟩
    rw [hscalar] at h
    exact exists_spells_of_scalar h

theorem items_succ (ih : ReadsSpelled dialect fuel)
    (h : Json.items dialect room (fuel + 1) cs = .ok (vs, rest)) :
    ∃ ds, cs = ds ++ ']' :: rest ∧ Spells dialect room (.items vs) ds := by
  obtain ⟨v, rest', hv, hcases⟩ := items_cases h
  obtain ⟨ds, rfl, hds⟩ := ih.value hv
  obtain ⟨b, hb, hrest⟩ := exists_blank_skip rest'
  rcases hcases with ⟨hskip, rfl⟩ | ⟨more, vs', hskip, hvs, rfl⟩
  · rw [hskip] at hrest
    exact ⟨[] ++ ds ++ b, by rw [hrest]; simp, .lastItem .nil hds hb⟩
  · obtain ⟨b', hb', hmore⟩ := exists_blank_skip more
    obtain ⟨es, hes, hspells⟩ := ih.items hvs
    refine ⟨[] ++ ds ++ b ++ ',' :: (b' ++ es), ?_, .item .nil hds hb (.blank_items hb' hspells)⟩
    rw [hrest, hskip, hmore, hes]
    simp

theorem fields_succ (ih : ReadsSpelled dialect fuel)
    (h : Json.fields dialect room (fuel + 1) cs = .ok (fs, rest)) :
    ∃ ds, cs = ds ++ '}' :: rest ∧ Spells dialect room (.fields fs) ds := by
  obtain ⟨body, name, afterName, ns, v, rest', rfl, hname, hcolon, hv, hcases⟩ := fields_cases h
  obtain ⟨ts, hbody, hts⟩ := exists_spellsText_of_string hname
  obtain ⟨b₂, hb₂, hafter⟩ := exists_blank_skip afterName
  obtain ⟨b₃, hb₃, hns⟩ := exists_blank_skip ns
  obtain ⟨ds, hdsns, hds⟩ := ih.value hv
  obtain ⟨b₄, hb₄, hrest⟩ := exists_blank_skip rest'
  have hfront : '"' :: body = ts ++ b₂ ++ ':' :: (b₃ ++ ds ++ rest') := by
    rw [hbody, hafter, hcolon, hns, hdsns]
    simp
  rcases hcases with ⟨hskip, rfl⟩ | ⟨more, fs', hskip, hfs, rfl⟩
  · refine ⟨_, ?_, .lastField .nil hts hb₂ hb₃ hds hb₄⟩
    rw [hfront, hrest, hskip]
    simp
  · obtain ⟨b', hb', hmore⟩ := exists_blank_skip more
    obtain ⟨es, hes, hspells⟩ := ih.fields hfs
    refine ⟨_, ?_, .field .nil hts hb₂ hb₃ hds hb₄ (.blank_fields hb' hspells)⟩
    rw [hfront, hrest, hskip, hmore, hes]
    simp

end ReadsSpelled

/-- Whatever the fuel, by induction on it. -/
theorem readsSpelled (dialect : Dialect) (fuel : ℕ) : ReadsSpelled dialect fuel := by
  induction fuel with
  | zero => exact ⟨fun h => (by cases h), fun h => (by cases h), fun h => (by cases h)⟩
  | succ fuel ih => exact ⟨ih.value_succ, ih.items_succ, ih.fields_succ⟩

/-! ## Section 4: texts -/

/-- A text denotes a value if it spells it, blanks around it aside. -/
def Denotes (dialect : Dialect) (text : List Char) (v : Value) : Prop :=
  ∃ b cs b', Blank b ∧ Blank b' ∧ text = b ++ cs ++ b' ∧
    Spells dialect dialect.depthLimit (.value v) cs

/-- A value is read from the texts that denote it and from no other. -/
theorem read_eq_ok_iff {text : List Char} {v : Value} :
    read dialect text = .ok v ↔ Denotes dialect text v := by
  constructor
  · intro h
    unfold read at h
    split at h
    · cases h
    · split at h
      · cases h
      · rename_i v' rest hvalue
        split at h
        · rename_i hskip
          cases h
          obtain ⟨b, hb, htext⟩ := exists_blank_skip text
          obtain ⟨b', hb', hrest⟩ := exists_blank_skip rest
          obtain ⟨ds, hds, hspells⟩ := (readsSpelled dialect _).value hvalue
          refine ⟨b, ds, b', hb, hb', ?_, hspells⟩
          rw [hskip, List.append_nil] at hrest
          rw [← hrest, List.append_assoc, ← hds, ← htext]
        · cases h
  · rintro ⟨b, cs, b', hb, hb', rfl, h⟩
    exact read_eq_ok h hb hb'

/-- A text denotes one value. -/
theorem Denotes.unique {text : List Char} {v w : Value} (h : Denotes dialect text v)
    (g : Denotes dialect text w) : v = w := by
  have hv := read_eq_ok_iff.2 h
  rw [read_eq_ok_iff.2 g] at hv
  exact (Except.ok.inj hv).symm

/-- No text of a value goes on with another one, unless as digits do. -/
theorem Spells.eq_nil_of_append {v w : Value} {cs rest : List Char}
    (h : Spells dialect room (.value v) cs) (g : Spells dialect room (.value w) (cs ++ rest))
    (hrest : EndsNumber rest) : rest = [] := by
  -- The reader takes the first text to its end, and the second one too.
  have hshort := h.isRead (cs ++ rest).length rest (by simp) hrest
  have hlong := g.isRead (cs ++ rest).length [] le_rfl (by rintro c ⟨⟩)
  rw [List.append_nil, hshort] at hlong
  exact (Prod.mk.inj (Except.ok.inj hlong)).2

/-! ## Section 5: the parts of what is spelled -/

section Parts

variable {fs : List (Text × Value)} {f : Text × Value} {vs : List Value} {v : Value}
  {cs : List Char}

/-- Each field has a spelled name and a spelled value. -/
theorem Spells.exists_of_mem_fields (h : Spells dialect room (.fields fs) cs) (hf : f ∈ fs) :
    (∃ ns, SpellsText dialect f.1 ns) ∧ ∃ ds, Spells dialect room (.value f.2) ds := by
  induction fs generalizing cs with
  | nil => cases hf
  | cons first rest ih =>
    cases h with
    | lastField _ hname _ _ hv _ =>
      cases List.mem_singleton.1 hf
      exact ⟨⟨_, hname⟩, _, hv⟩
    | field _ hname _ _ hv _ hs =>
      rcases List.mem_cons.1 hf with rfl | hf
      · exact ⟨⟨_, hname⟩, _, hv⟩
      · exact ih hs hf

theorem Spells.exists_of_mem_object (h : Spells dialect room (.value (.object fs)) cs)
    (hf : f ∈ fs) :
    (∃ ns, SpellsText dialect f.1 ns) ∧ ∃ room ds, Spells dialect room (.value f.2) ds := by
  cases h with
  | emptyObject => cases hf
  | object h =>
    obtain ⟨hname, ds, hv⟩ := h.exists_of_mem_fields hf
    exact ⟨hname, _, ds, hv⟩

theorem Denotes.exists_of_mem_object {text : List Char} (h : Denotes dialect text (.object fs))
    (hf : f ∈ fs) :
    (∃ ns, SpellsText dialect f.1 ns) ∧ ∃ room ds, Spells dialect room (.value f.2) ds := by
  obtain ⟨_, _, _, _, _, _, hobject⟩ := h
  exact hobject.exists_of_mem_object hf

/-- An object stands between braces. -/
theorem Spells.exists_braces (h : Spells dialect room (.value (.object fs)) cs) :
    ∃ body, cs = '{' :: body ++ ['}'] := by
  cases h with
  | emptyObject => exact ⟨_, rfl⟩
  | object => exact ⟨_, rfl⟩

/-- Strictly spelled texts have no halves. -/
theorem SpellsText.any_isHalf {t : Text} (h : SpellsText .strict t cs) :
    t.codes.any Code.isHalf = false := by
  cases h with
  | quoted _ _ hwhole => exact hwhole rfl

theorem ofDigitChars_lt {ds : List Char} (h : ∀ c ∈ ds, c.isDigit) (n : ℕ) :
    Nat.ofDigitChars 10 ds n < (n + 1) * Nat.pow 10 ds.length := by
  induction ds generalizing n with
  | nil => simp
  | cons c ds ih =>
    obtain ⟨hc, hds⟩ := List.forall_mem_cons.1 h
    have hdigit : c.toNat - '0'.toNat + 1 ≤ 10 := by
      have hhigh : c.toNat ≤ 0x39 := (Char.isDigit_iff_toNat.1 hc).2
      show c.toNat - 0x30 + 1 ≤ 10
      omega
    calc
      Nat.ofDigitChars 10 (c :: ds) n
        = Nat.ofDigitChars 10 ds (10 * n + (c.toNat - '0'.toNat)) := Nat.ofDigitChars_cons
      -- One more digit multiplies the bound by ten.
      _ < (10 * n + (c.toNat - '0'.toNat) + 1) * Nat.pow 10 ds.length := ih hds _
      _ ≤ (n + 1) * 10 * Nat.pow 10 ds.length := Nat.mul_le_mul_right _ (by omega)
      _ = (n + 1) * Nat.pow 10 (ds.length + 1) := by
        show _ = (n + 1) * 10 ^ (ds.length + 1)
        rw [Nat.pow_succ, Nat.mul_assoc, Nat.mul_comm 10]
        rfl

/-- A whole number that has been spelled can be written again. -/
theorem SpellsWhole.isWritable {n : ℤ} (h : SpellsWhole n cs) : Numeral.isWritable n := by
  -- The bound is a numeral of thousands of digits: `Nat.pow` is not to be
  -- unfolded here.
  have hmono : ∀ k l, k ≤ l → Nat.pow 10 k ≤ Nat.pow 10 l := fun _ _ =>
    Nat.pow_le_pow_right (by decide)
  have hnatural : ∀ {n : ℕ} {ds : List Char}, SpellsNatural n ds →
      n < Nat.pow 10 Numeral.digitLimit := by
    intro n ds h
    calc
      n = Nat.ofDigitChars 10 ds 0 := h.value.symm
      _ < (0 + 1) * Nat.pow 10 ds.length := ofDigitChars_lt h.digits 0
      _ = Nat.pow 10 ds.length := Nat.one_mul _
      _ ≤ Nat.pow 10 Numeral.digitLimit := hmono _ _ h.length_le
  unfold Numeral.isWritable
  cases h with
  | natural h => exact decide_eq_true (hnatural h)
  | @negative n ds h =>
    rw [Int.natAbs_neg]
    exact decide_eq_true (hnatural h)

end Parts

end CalibratedCosts.Json
