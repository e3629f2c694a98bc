import Mathlib
import CalibratedCosts.Proofs.Json.Reading
import CalibratedCosts.Proofs.Text.Lines

/-! # Line ends in JSON texts

    A JSON text has line ends only where blanks can stand, so that it makes no
    difference to its value how they are written.  In its strings there is no
    control character, but there can be other characters that end a line.
-/

namespace CalibratedCosts.Json

open Text (isBlank isLineBreak unifyLineEnds unifyLineEnds_append_cons unifyLineEnds_eq_self)

variable {dialect : Dialect} {room : ℕ} {cs ds : List Char}

/-! ## Section 1: characters -/

/-- No control characters. -/
def NoControls (cs : List Char) : Prop := ∀ c ∈ cs, 0x20 ≤ c.toNat

theorem NoControls.nil : NoControls [] := fun _ hc => (List.not_mem_nil hc).elim

theorem NoControls.cons {c : Char} (hc : 0x20 ≤ c.toNat) (h : NoControls cs) :
    NoControls (c :: cs) :=
  List.forall_mem_cons.2 ⟨hc, h⟩

theorem NoControls.append (h : NoControls cs) (g : NoControls ds) : NoControls (cs ++ ds) :=
  List.forall_mem_append.2 ⟨h, g⟩

theorem noControls_of_all (h : cs.all (0x20 ≤ ·.toNat) = true) : NoControls cs := by
  simpa [NoControls] using h

theorem NoControls.not_mem (h : NoControls cs) : '\r' ∉ cs :=
  fun hmem => absurd (h _ hmem) (by decide)

theorem le_of_shortEscape? {c e : Char} (h : shortEscape? c = some e) : 0x20 ≤ c.toNat := by
  unfold shortEscape? at h
  split at h
  case h_9 => cases h
  all_goals decide

theorem le_of_hexDigit? {c : Char} {value : ℕ} (h : Text.hexDigit? c = some value) :
    0x20 ≤ c.toNat := by
  -- The three ranges of digits all lie above the controls.
  have hdigit : '0' ≤ c := by
    unfold Text.hexDigit? at h
    split at h
    · rename_i hc
      exact hc.1
    · split at h
      · rename_i hc
        exact le_trans (by decide) hc.1
      · split at h
        · rename_i hc
          exact le_trans (by decide) hc.1
        · cases h
  exact le_trans (by decide : 0x20 ≤ '0'.toNat) (Char.le_def.1 hdigit)

theorem le_of_isDigit {c : Char} (h : c.isDigit) : 0x20 ≤ c.toNat :=
  le_trans (by decide) (Char.isDigit_iff_toNat.1 h).1

theorem SpellsUnit.noControls {n : ℕ} (h : SpellsUnit n cs) : NoControls cs := by
  cases h with
  | plain hcontrol => exact .cons hcontrol .nil
  | short h => exact .cons (by decide) (.cons (le_of_shortEscape? h) .nil)
  | @digits a b c d unit h =>
    unfold codeUnit? at h
    split at h
    · rename_i ha hb hc hd
      exact .cons (by decide) (.cons (by decide) (.cons (le_of_hexDigit? ha)
        (.cons (le_of_hexDigit? hb) (.cons (le_of_hexDigit? hc)
          (.cons (le_of_hexDigit? hd) .nil)))))
    · cases h

theorem SpellsText.noControls {t : Text} (h : SpellsText dialect t cs) : NoControls cs := by
  obtain ⟨hs, -, -⟩ := h
  refine .append (.cons (by decide) ?_) (.cons (by decide) .nil)
  clear * - hs
  induction hs with
  | nil => exact .nil
  | cons h _ ih => exact h.noControls.append ih

theorem AreDigits.noControls (h : AreDigits cs) : NoControls cs :=
  fun _ hc => le_of_isDigit (h.digits _ hc)

theorem noControls_minus (negative : Bool) : NoControls (minus negative) := by
  cases negative with
  | true => exact .cons (by decide) .nil
  | false => exact .nil

theorem SpellsWhole.noControls {n : ℤ} (h : SpellsWhole n cs) : NoControls cs := by
  obtain ⟨negative, ds, rfl, hds⟩ := h.exists_minus
  exact (noControls_minus negative).append hds.noControls

theorem SpellsFraction.noControls {fraction : List ℕ} (h : SpellsFraction fraction cs) :
    NoControls cs := by
  cases h with
  | none => exact .nil
  | point h => exact .cons (by decide) h.noControls

theorem SpellsExponent.noControls {exponent : ℤ} (h : SpellsExponent exponent cs) :
    NoControls cs := by
  cases h with
  | none => exact .nil
  | @letter c negative sign ds hc hsign h =>
    have hletter : 0x20 ≤ c.toNat := by rcases hc with rfl | rfl <;> decide
    have hsigned : NoControls sign := by
      cases hsign with
      | none => exact .nil
      | plus => exact .cons (by decide) .nil
      | minus => exact .cons (by decide) .nil
    exact .cons hletter (hsigned.append h.noControls)

theorem SpellsDouble.noControls {x : Binary64} (h : SpellsDouble dialect x cs) :
    NoControls cs := by
  cases h with
  | @number negative ds fs es fraction exponent h _ hfraction hexponent =>
    exact (noControls_minus negative).append
      (h.noControls.append (hfraction.noControls.append hexponent.noControls))
  | _ => exact noControls_of_all rfl

/-! ## Section 2: line ends -/

theorem Blank.unifyLineEnds (h : Blank cs) : Blank (unifyLineEnds cs) := by
  fun_induction Text.unifyLineEnds cs with
  | case1 rest ih =>
    obtain ⟨-, hrest⟩ := List.forall_mem_cons.1 h
    exact List.forall_mem_cons.2 ⟨rfl, ih (List.forall_mem_cons.1 hrest).2⟩
  | case2 rest _ ih =>
    exact List.forall_mem_cons.2 ⟨rfl, ih (List.forall_mem_cons.1 h).2⟩
  | case3 c rest _ _ ih =>
    obtain ⟨hc, hrest⟩ := List.forall_mem_cons.1 h
    exact List.forall_mem_cons.2 ⟨hc, ih hrest⟩
  | case4 => exact .nil

/-- A value does not end with a line end. -/
theorem Spells.getLast?_ne {v : Value} (h : Spells dialect room (.value v) cs) :
    cs.getLast? ≠ some '\r' := by
  -- A scalar holds no control at all; only what is bracketed may, and it ends
  -- in its bracket.
  have hscalar : ∀ {cs}, NoControls cs → cs.getLast? ≠ some '\r' :=
    fun h hlast => h.not_mem (List.mem_of_getLast? hlast)
  cases h with
  | whole h => exact hscalar h.noControls
  | double h => exact hscalar h.noControls
  | text h => exact hscalar h.noControls
  | null | true | false => exact hscalar (noControls_of_all rfl)
  | emptyList | list | emptyObject | object =>
    rw [List.getLast?_concat]
    decide

theorem Spells.head?_ne {v : Value} (h : Spells dialect room (.value v) cs) :
    cs.head? ≠ some '\n' := by
  obtain ⟨c, ds, rfl, hc⟩ := h.starts
  intro hhead
  exact ne_of_startsValue hc rfl (Option.some.inj hhead)

/-- Line ends are unified on either side of a value. -/
theorem Spells.unifyLineEnds_append {v : Value} (h : Spells dialect room (.value v) cs)
    (b ds : List Char) :
    unifyLineEnds (b ++ cs ++ ds) = unifyLineEnds b ++ unifyLineEnds cs ++ unifyLineEnds ds := by
  have hne : cs ≠ [] := by
    obtain ⟨c, ds, rfl, -⟩ := h.starts
    exact List.cons_ne_nil _ _
  rw [Text.unifyLineEnds_append, Text.unifyLineEnds_append fun _ => h.head?_ne]
  rw [List.getLast?_append_of_ne_nil _ hne]
  exact fun hlast => absurd hlast h.getLast?_ne

theorem SpellsText.unifyLineEnds_append {t : Text} (h : SpellsText dialect t cs)
    (b ds : List Char) :
    unifyLineEnds (b ++ cs ++ ds) = unifyLineEnds b ++ cs ++ unifyLineEnds ds := by
  have hvalue : Spells dialect 0 (.value (.text t)) cs := .text h
  rw [hvalue.unifyLineEnds_append, unifyLineEnds_eq_self h.noControls.not_mem]

theorem unifyLineEnds_enclosed {c d : Char} (hc : c ≠ '\r') (hd : d ≠ '\r') (hd' : d ≠ '\n')
    (cs : List Char) : unifyLineEnds (c :: cs ++ [d]) = c :: unifyLineEnds cs ++ [d] := by
  rw [List.cons_append, Text.unifyLineEnds_cons hc, unifyLineEnds_append_cons hd hd']
  rfl

/-- However its line ends are written, a text spells the same. -/
theorem Spells.unifyLineEnds {p : Phrase} (h : Spells dialect room p cs) :
    Spells dialect room p (unifyLineEnds cs) := by
  -- On the text; scalars have no line ends, and blanks stay blanks.
  induction h with
  | null => exact .null
  | true => exact .true
  | false => exact .false
  | whole h =>
    rw [unifyLineEnds_eq_self h.noControls.not_mem]
    exact .whole h
  | double h =>
    rw [unifyLineEnds_eq_self h.noControls.not_mem]
    exact .double h
  | text h =>
    rw [unifyLineEnds_eq_self h.noControls.not_mem]
    exact .text h
  | emptyList hroom hb =>
    rw [unifyLineEnds_enclosed (by decide) (by decide) (by decide)]
    exact .emptyList hroom hb.unifyLineEnds
  | list _ ih =>
    rw [unifyLineEnds_enclosed (by decide) (by decide) (by decide)]
    exact .list ih
  | emptyObject hroom hb =>
    rw [unifyLineEnds_enclosed (by decide) (by decide) (by decide)]
    exact .emptyObject hroom hb.unifyLineEnds
  | object _ ih =>
    rw [unifyLineEnds_enclosed (by decide) (by decide) (by decide)]
    exact .object ih
  | lastItem hb h hb' ih =>
    rw [h.unifyLineEnds_append]
    exact .lastItem hb.unifyLineEnds ih hb'.unifyLineEnds
  | item hb h hb' _ ih ihs =>
    rw [unifyLineEnds_append_cons (by decide) (by decide), h.unifyLineEnds_append]
    exact .item hb.unifyLineEnds ih hb'.unifyLineEnds ihs
  | lastField hb₁ hname hb₂ hb₃ h hb₄ ih =>
    rw [unifyLineEnds_append_cons (by decide) (by decide), hname.unifyLineEnds_append,
      h.unifyLineEnds_append]
    exact .lastField hb₁.unifyLineEnds hname hb₂.unifyLineEnds hb₃.unifyLineEnds ih
      hb₄.unifyLineEnds
  | field hb₁ hname hb₂ hb₃ h hb₄ _ ih ihs =>
    rw [unifyLineEnds_append_cons (by decide) (by decide), hname.unifyLineEnds_append,
      unifyLineEnds_append_cons (by decide) (by decide), h.unifyLineEnds_append]
    exact .field hb₁.unifyLineEnds hname hb₂.unifyLineEnds hb₃.unifyLineEnds ih
      hb₄.unifyLineEnds ihs

theorem Denotes.unifyLineEnds {v : Value} (h : Denotes dialect cs v) :
    Denotes dialect (unifyLineEnds cs) v := by
  obtain ⟨b, ds, b', hb, hb', rfl, hs⟩ := h
  exact ⟨_, _, _, hb.unifyLineEnds, hb'.unifyLineEnds, hs.unifyLineEnds_append b b',
    hs.unifyLineEnds⟩

/-! ## Section 3: other boundaries -/

/-- No control characters, blanks aside. -/
def NoOtherControls (cs : List Char) : Prop := ∀ c ∈ cs, isSpace c ∨ 0x20 ≤ c.toNat

theorem NoOtherControls.append (h : NoOtherControls cs) (g : NoOtherControls ds) :
    NoOtherControls (cs ++ ds) :=
  List.forall_mem_append.2 ⟨h, g⟩

theorem NoOtherControls.cons {c : Char} (hc : 0x20 ≤ c.toNat) (h : NoOtherControls cs) :
    NoOtherControls (c :: cs) :=
  List.forall_mem_cons.2 ⟨.inr hc, h⟩

theorem NoControls.noOtherControls (h : NoControls cs) : NoOtherControls cs :=
  fun c hc => .inr (h c hc)

theorem Blank.noOtherControls (h : Blank cs) : NoOtherControls cs := fun c hc => .inl (h c hc)

theorem NoOtherControls.enclosed {c d : Char} (hc : 0x20 ≤ c.toNat) (hd : 0x20 ≤ d.toNat)
    (h : NoOtherControls cs) : NoOtherControls (c :: cs ++ [d]) :=
  (h.cons hc).append (NoControls.nil.cons hd).noOtherControls

theorem Spells.noOtherControls {p : Phrase} (h : Spells dialect room p cs) :
    NoOtherControls cs := by
  induction h with
  | null | true | false => exact (noControls_of_all rfl).noOtherControls
  | whole h => exact h.noControls.noOtherControls
  | double h => exact h.noControls.noOtherControls
  | text h => exact h.noControls.noOtherControls
  | emptyList _ hb => exact hb.noOtherControls.enclosed (by decide) (by decide)
  | list _ ih => exact ih.enclosed (by decide) (by decide)
  | emptyObject _ hb => exact hb.noOtherControls.enclosed (by decide) (by decide)
  | object _ ih => exact ih.enclosed (by decide) (by decide)
  | lastItem hb _ hb' ih => exact (hb.noOtherControls.append ih).append hb'.noOtherControls
  | item hb _ hb' _ ih ihs =>
    exact ((hb.noOtherControls.append ih).append hb'.noOtherControls).append (ihs.cons (by decide))
  | lastField hb₁ hname hb₂ hb₃ _ hb₄ ih =>
    have hfront := (hb₁.noOtherControls.append hname.noControls.noOtherControls).append
      hb₂.noOtherControls
    have hback := (hb₃.noOtherControls.append ih).append hb₄.noOtherControls
    exact hfront.append (hback.cons (by decide))
  | field hb₁ hname hb₂ hb₃ _ hb₄ _ ih ihs =>
    have hfront := (hb₁.noOtherControls.append hname.noControls.noOtherControls).append
      hb₂.noOtherControls
    have hback := (hb₃.noOtherControls.append ih).append hb₄.noOtherControls
    exact hfront.append ((hback.append (ihs.cons (by decide))).cons (by decide))

theorem Denotes.noOtherControls {v : Value} (h : Denotes dialect cs v) : NoOtherControls cs := by
  obtain ⟨b, ds, b', hb, hb', rfl, hs⟩ := h
  exact (hb.noOtherControls.append hs.noOtherControls).append hb'.noOtherControls

/-! ## Section 4: blanks and boundaries -/

theorem isBlank_of_isSpace {c : Char} (h : isSpace c) : isBlank c := by
  rcases isSpace_iff.1 h with rfl | rfl | rfl | rfl <;> rfl

/-- No number goes on with a blank. -/
theorem continuesNumber_of_isBlank {c : Char} (h : isBlank c) : continuesNumber c = false := by
  rw [← Bool.not_eq_true]
  intro hnumber
  simp only [continuesNumber, Bool.or_eq_true, decide_eq_true_eq] at hnumber
  rcases hnumber with ((hdigit | rfl) | rfl) | rfl
  · have hlow : 0x30 ≤ c.toNat := (Char.isDigit_iff_toNat.1 hdigit).1
    have hhigh : c.toNat ≤ 0x39 := (Char.isDigit_iff_toNat.1 hdigit).2
    simp only [isBlank, Text.blankRuns, List.any_cons, List.any_nil, Bool.or_eq_true,
      Bool.and_eq_true, decide_eq_true_eq, Bool.false_eq_true, or_false] at h
    omega
  all_goals exact absurd h (by decide)

/-- Blanks without line ends are not cut. -/
theorem Blank.isLineBreak_eq_false (h : Blank cs) (hfeed : '\n' ∉ cs) (hreturn : '\r' ∉ cs) :
    ∀ c ∈ cs, isLineBreak c = false := by
  intro c hc
  rcases isSpace_iff.1 (h c hc) with rfl | rfl | rfl | rfl
  · rfl
  · rfl
  · exact absurd hc hfeed
  · exact absurd hc hreturn

/-- Besides line feeds and carriage returns three characters end a line of a JSON
    text: the next line, the line separator and the paragraph separator. -/
theorem isLineBreak_iff {c : Char} (hc : isSpace c ∨ 0x20 ≤ c.toNat) (hfeed : c ≠ '\n')
    (hreturn : c ≠ '\r') :
    isLineBreak c ↔ c = '\u0085' ∨ c = '\u2028' ∨ c = '\u2029' := by
  -- Of the controls only the tab is left: it is blank and breaks no line.
  have hnumber : c.toNat = 0x09 ∨ 0x20 ≤ c.toNat := by
    rcases hc with hc | hc
    · rcases isSpace_iff.1 hc with rfl | rfl | rfl | rfl
      · exact .inr le_rfl
      · exact .inl rfl
      · exact absurd rfl hfeed
      · exact absurd rfl hreturn
    · exact .inr hc
  have hnext : c = '\u0085' ↔ c.toNat = 0x85 := Char.toNat_inj.symm
  have hline : c = '\u2028' ↔ c.toNat = 0x2028 := Char.toNat_inj.symm
  have hparagraph : c = '\u2029' ↔ c.toNat = 0x2029 := Char.toNat_inj.symm
  rw [hnext, hline, hparagraph, isLineBreak]
  simp only [Bool.or_eq_true, Bool.and_eq_true, decide_eq_true_eq]
  omega

end CalibratedCosts.Json
