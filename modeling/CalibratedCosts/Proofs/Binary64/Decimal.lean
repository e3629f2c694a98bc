import Mathlib
import CalibratedCosts.Binary64.Decimal
import CalibratedCosts.Binary64.Numeral
import CalibratedCosts.Proofs.Binary64.Rounding
import CalibratedCosts.Proofs.Numeral.Integer
import CalibratedCosts.Proofs.Numeral.Tenth
import CalibratedCosts.Proofs.Text.Lines

/-! # Decimal text is read back

    A text with a point is read as the number nearest to the decimal that it
    writes.

    * **Text**: a natural number written with some digits after the point is
      read, with its sign, as that number times a power of ten.
    * **Tenths**: so a number written with one digit after the point is read
      back as itself rounded to a tenth, be it finite or not.
-/

namespace CalibratedCosts.Binary64

open Numeral

/-! ## Section 1: the parts of a decimal -/

/-- A decimal is digits, at least one of them before the point and a given
    number behind it, which together write the number. -/
theorem exists_pointed (n places : ℕ) : ∃ whole fraction : List Char,
    (pointed n places).toList = whole ++ '.' :: fraction ∧ whole ≠ [] ∧
    fraction.length = places ∧ (∀ c ∈ whole ++ fraction, c.isDigit) ∧
    Nat.ofDigitChars 10 (whole ++ fraction) 0 = n := by
  unfold pointed
  dsimp only
  set digits := (Nat.repr n).toList with hdigits
  have hrepr : digits = Nat.toDigits 10 n := Nat.toList_repr
  set padded := List.replicate (places + 1 - digits.length) '0' ++ digits with hpadded
  -- There are so many zeros in front that at least one digit stands before the
  -- point.
  have hlength : places + 1 ≤ padded.length := by
    rw [hpadded, List.length_append, List.length_replicate]
    omega
  refine ⟨padded.take (padded.length - places), padded.drop (padded.length - places),
    String.toList_ofList, ?_, ?_, ?_, ?_⟩
  · rw [← List.length_pos_iff, List.length_take]
    omega
  · rw [List.length_drop]
    omega
  -- What stands on both sides of the point is zeros and digits.
  · rw [List.take_append_drop]
    intro c hc
    rcases List.mem_append.1 hc with hc | hc
    · rw [List.eq_of_mem_replicate hc]
      decide
    · rw [hrepr] at hc
      exact Nat.isDigit_of_mem_toDigits (by decide) (by decide) hc
  -- Zeros in front do not change what the digits denote.
  · rw [List.take_append_drop, hpadded, ofDigitChars_replicate, hrepr]
    exact Nat.ofDigitChars_ten_toDigits

theorem toLower_of_isDigit {c : Char} (h : c.isDigit) : c.toLower = c := by
  have hhigh : c.toNat ≤ 0x39 := (Char.isDigit_iff_toNat.1 h).2
  unfold Char.toLower
  rw [dif_neg]
  rintro ⟨hupper, -⟩
  have hlow : 0x41 ≤ c.toNat := hupper
  omega

/-- No word starts with a digit. -/
theorem ofWord?_of_isDigit {c : Char} (negative : Bool) (rest : List Char) (h : c.isDigit) :
    ofWord? negative (c :: rest) = none := by
  -- The words for infinities and for an undefined number start with letters.
  have hne : ∀ d ds, ¬ d.isDigit →
      String.ofList ((c :: rest).map Char.toLower) ≠ String.ofList (d :: ds) := by
    intro d ds hd heq
    rw [List.map_cons, toLower_of_isDigit h] at heq
    obtain ⟨rfl, -⟩ := List.cons.inj (String.ofList_injective heq)
    exact hd h
  unfold ofWord?
  dsimp only
  rw [if_neg, if_neg]
  · exact hne 'n' ['a', 'n'] (by decide)
  · rintro (hword | hword)
    · exact hne 'i' ['n', 'f'] (by decide) hword
    · exact hne 'i' ['n', 'f', 'i', 'n', 'i', 't', 'y'] (by decide) hword

theorem readParts_append {whole fraction : List Char} (hne : whole ≠ [])
    (h : ∀ c ∈ whole ++ fraction, c.isDigit) :
    readParts Text.digitValue? (whole ++ '.' :: fraction) =
      some (⟨(whole.map fun c => c.toNat - '0'.toNat).reverse,
        (fraction.map fun c => c.toNat - '0'.toNat).reverse, 0⟩, []) := by
  obtain ⟨hwhole, hfraction⟩ := List.forall_mem_append.1 h
  -- The first run of digits ends at the point and the second one at the end.
  have hfirst := digitRun_append [] hwhole (digitRun_point · fraction)
  have hsecond := digitRun_of_isDigit [] hfraction
  rw [List.append_nil] at hfirst hsecond
  unfold readParts
  simp only [hfirst, hsecond]
  simp [hne]

/-! ## Section 2: reading a decimal -/

/-- The sign of a written number. -/
def signText (negative : Bool) : String := if negative then "-" else ""

/-- A decimal is read, with its sign, as its digits times a power of ten. -/
theorem ofText?_pointed (negative : Bool) (n places : ℕ) :
    ofText? (signText negative ++ pointed n places) = some (ofDecimal negative n (-places)) := by
  obtain ⟨whole, fraction, hlist, hne, hlength, hdigits, hvalue⟩ := exists_pointed n places
  obtain ⟨c, rest, hcons⟩ := List.exists_cons_of_ne_nil hne
  -- There is a digit in front, so that the text is neither blank nor a word.
  have hc : c.isDigit := by
    apply hdigits
    rw [hcons]
    exact List.mem_cons_self
  have htext : (signText negative ++ pointed n places).toList =
      (signText negative).toList ++ (whole ++ '.' :: fraction) := by
    rw [String.toList_append, hlist]
  have hblank : ∀ c ∈ (signText negative).toList ++ (whole ++ '.' :: fraction),
      Text.isNumeralBlank c = false := by
    have hsign : ∀ c ∈ (signText negative).toList, Text.isNumeralBlank c = false := by
      intro d hd
      cases negative with
      | false => cases hd
      | true =>
        rw [List.mem_singleton.1 hd]
        decide
    obtain ⟨hwhole, hfraction⟩ := List.forall_mem_append.1 hdigits
    refine List.forall_mem_append.2 ⟨hsign, List.forall_mem_append.2 ⟨fun d hd => ?_,
      List.forall_mem_cons.2 ⟨by decide, fun d hd => ?_⟩⟩⟩
    · exact isNumeralBlank_of_isDigit (hwhole d hd)
    · exact isNumeralBlank_of_isDigit (hfraction d hd)
  -- The sign is taken off, if there is one.
  have hsplit : splitSign ((signText negative).toList ++ (whole ++ '.' :: fraction)) =
      (negative, whole ++ '.' :: fraction) := by
    cases negative with
    | true => rfl
    | false =>
      rw [hcons]
      exact splitSign_of_isDigit hc
  have hword : ofWord? negative (whole ++ '.' :: fraction) = none := by
    rw [hcons]
    exact ofWord?_of_isDigit negative _ hc
  -- What is left is read as two runs of digits.
  unfold ofText?
  rw [htext, Text.trimBoth_eq_self hblank, hsplit]
  simp only [hword, readParts_append hne hdigits, Parts.toBinary64]
  rw [← List.reverse_append, ← List.map_append, valueOfDigits_reverse, hvalue, List.length_reverse,
    List.length_map, hlength, zero_sub]

/-- Within the magnitudes that are computed, scaled digits are rounded once. -/
theorem ofDecimal_eq {n : ℕ} {exponent : ℤ} (negative : Bool) (hlow : -400 ≤ exponent)
    (hhigh : decimalLength n + exponent ≤ 400) :
    ofDecimal negative n exponent =
      ofSignedRat negative
        (if negative then -(n * (10 : ℚ) ^ exponent) else n * (10 : ℚ) ^ exponent) := by
  unfold ofDecimal
  dsimp only
  -- Zero is looked for first, and the limits of the exponent are far away.
  by_cases hn : n = 0
  · rw [if_pos (.inl hn), hn]
    simp [ofSignedRat_zero]
  · have hlength : 0 ≤ (decimalLength n : ℤ) := Int.natCast_nonneg _
    rw [if_neg (by omega), if_neg (by omega)]

/-! ## Section 3: one digit after the point -/

theorem decimalLength_le {n k : ℕ} (hk : 0 < k) (h : n < Nat.pow 10 k) : decimalLength n ≤ k := by
  unfold decimalLength
  rw [← String.length_toList, Nat.toList_repr]
  exact length_toDigits_le hk h

theorem largest_le_pow : largest ≤ (Nat.pow 10 309 : ℕ) := by
  have hnat : 0x1fffffffffffff * 2 ^ 971 ≤ Nat.pow 10 309 := by decide +kernel
  unfold largest
  rw [zpow_ofNat]
  exact_mod_cast hnat

theorem nearestInteger_tenths_le {q : ℚ} {bound : ℕ} (h : q ≤ bound) :
    (nearestInteger (q * 10 ^ 1)).toNat ≤ bound * 10 := by
  apply Int.toNat_le.2
  apply nearestInteger_le
  push_cast
  linarith

/-- The tenths of a magnitude within the format have few digits. -/
theorem decimalLength_tenths_le {q : ℚ} (hle : q ≤ largest) :
    decimalLength (nearestInteger (q * 10 ^ 1)).toNat ≤ 311 := by
  have htenths := nearestInteger_tenths_le (hle.trans largest_le_pow)
  apply decimalLength_le (by decide)
  exact htenths.trans_lt (by decide +kernel)

/-- A number written with one digit after the point is read back as the number
    rounded to a tenth. -/
theorem ofText?_fixed_one (x : Binary64) : ofText? (x.fixed 1) = some (Quantity.roundToTenth x) := by
  cases x with
  | nan => decide
  | infinite negative => cases negative <;> decide
  | finite negative m e h =>
    set q := (Binary64.finite false m e h).toRat with hq
    have hnonneg : 0 ≤ q := by
      have hmagnitude : q = m * 2 ^ e := rfl
      rw [hmagnitude]
      positivity
    have hle : q ≤ largest := (le_abs_self q).trans (abs_toRat_le_largest _)
    have hlength := decimalLength_tenths_le hle
    have hvalue : toRat (.finite negative m e h) = if negative then -q else q := by
      cases negative <;> rfl
    have hint : 0 ≤ nearestInteger (q * 10 ^ 1) := by
      apply le_nearestInteger
      push_cast
      positivity
    -- The digits that are written are the tenths of the magnitude.
    have htenths : ((nearestInteger (q * 10 ^ 1)).toNat : ℚ) * 10 ^ (-(1 : ℕ) : ℤ) =
        nearestTenth q := by
      have hcast : ((nearestInteger (q * 10 ^ 1)).toNat : ℚ) = nearestInteger (q * 10 ^ 1) := by
        exact_mod_cast congrArg (Int.cast (R := ℚ)) (Int.toNat_of_nonneg hint)
      unfold nearestTenth
      rw [hcast, pow_one, mul_comm q, Nat.cast_one, zpow_neg_one, div_eq_mul_inv]
    show ofText? (signText negative ++ pointed (nearestInteger (q * 10 ^ 1)).toNat 1) =
      some (ofSignedRat negative (nearestTenth (toRat (.finite negative m e h))))
    rw [ofText?_pointed, ofDecimal_eq negative (by norm_num) (by push_cast; omega), htenths, hvalue]
    cases negative with
    | false => rfl
    | true =>
      rw [if_pos rfl, if_pos rfl, nearestTenth_neg]

end CalibratedCosts.Binary64
