import Mathlib
import CalibratedCosts.CostModel.Basic

/-! # Reading what is written

    The decimal numeral of a natural number is read back as the number.  What
    fits into 64 bits is far from being too long to be written.
-/

namespace CalibratedCosts.Numeral

/-! ## Section 1: digits -/

/-- The value of a digit among the scripts is that of the ASCII digit. -/
theorem digitValue?_of_isDigit {c : Char} (h : c.isDigit) :
    Text.digitValue? c = some (c.toNat - '0'.toNat) := by
  obtain ⟨hlow, hhigh⟩ := Char.isDigit_iff_toNat.1 h
  have hfirst : (0x30 ≤ c.toNat && c.toNat < 0x30 + 10) = true := by
    have hlow' : 0x30 ≤ c.toNat := hlow
    have hhigh' : c.toNat ≤ 0x39 := hhigh
    rw [Bool.and_eq_true, decide_eq_true_eq, decide_eq_true_eq]
    omega
  -- The ASCII digits are the first of all scripts.
  have hzeros : Text.digitZeros = 0x30 :: Text.digitZeros.tail := rfl
  unfold Text.digitValue?
  rw [hzeros]
  simp only [List.find?_cons, hfirst]
  rfl

theorem ne_underscore_of_isDigit {c : Char} (h : c.isDigit) : c ≠ '_' := by
  rintro rfl
  exact absurd h (by decide)

/-- Digits are read up to where a run of them stops. -/
theorem digitRun_append {cs rest : List Char} (passed : List ℕ) (h : ∀ c ∈ cs, c.isDigit)
    (hstop : ∀ ds, digitRun Text.digitValue? ds rest = (ds, rest)) :
    digitRun Text.digitValue? passed (cs ++ rest) =
      ((cs.map fun c => c.toNat - '0'.toNat).reverse ++ passed, rest) := by
  -- On the digits, of which each one read is passed on.
  induction cs generalizing passed with
  | nil => exact hstop passed
  | cons c cs ih =>
    obtain ⟨hc, hcs⟩ := List.forall_mem_cons.1 h
    have hne := ne_underscore_of_isDigit hc
    rw [List.cons_append, digitRun.eq_def]
    split
    · rename_i heq
      exact absurd (List.cons.inj heq).1 hne
    · rename_i heq
      obtain ⟨rfl, rfl⟩ := List.cons.inj heq
      rw [digitValue?_of_isDigit hc]
      show digitRun Text.digitValue? (_ :: passed) _ = _
      rw [ih _ hcs, List.map_cons, List.reverse_cons, List.append_assoc]
      rfl
    · rename_i heq
      cases heq

/-- Digits alone are read to their end. -/
theorem digitRun_of_isDigit {cs : List Char} (passed : List ℕ) (h : ∀ c ∈ cs, c.isDigit) :
    digitRun Text.digitValue? passed cs =
      ((cs.map fun c => c.toNat - '0'.toNat).reverse ++ passed, []) := by
  have hend : ∀ ds, digitRun Text.digitValue? ds [] = (ds, []) := fun _ => rfl
  have hrun := digitRun_append passed h hend
  rwa [List.append_nil] at hrun

/-- A point stops a run of digits. -/
theorem digitRun_point (ds : List ℕ) (rest : List Char) :
    digitRun Text.digitValue? ds ('.' :: rest) = (ds, '.' :: rest) := by
  have hpoint : Text.digitValue? '.' = none := by decide
  rw [digitRun.eq_def]
  simp [hpoint]

theorem valueOfDigits_reverse (cs : List Char) :
    valueOfDigits (cs.map fun c => c.toNat - '0'.toNat).reverse = Nat.ofDigitChars 10 cs 0 := by
  unfold valueOfDigits
  rw [List.foldr_reverse, List.foldl_map, Nat.ofDigitChars_eq_foldl]
  congr 1
  funext n c
  rw [Nat.mul_comm]

/-- Leading zeros do not count. -/
theorem ofDigitChars_replicate (k : ℕ) (cs : List Char) :
    Nat.ofDigitChars 10 (List.replicate k '0' ++ cs) 0 = Nat.ofDigitChars 10 cs 0 := by
  induction k with
  | zero => rfl
  | succ k ih =>
    rw [List.replicate_succ, List.cons_append, Nat.ofDigitChars_cons]
    exact ih

/-! ## Section 2: numerals -/

/-- A digit is no blank. -/
theorem isNumeralBlank_of_isDigit {c : Char} (h : c.isDigit) : Text.isNumeralBlank c = false := by
  obtain ⟨hlow, hhigh⟩ := Char.isDigit_iff_toNat.1 h
  have hlow' : 0x30 ≤ c.toNat := hlow
  have hhigh' : c.toNat ≤ 0x39 := hhigh
  have hblank : Text.isBlank c = false := by
    simp only [Text.isBlank, Text.blankRuns, List.any_cons, List.any_nil, Bool.or_false,
      Bool.or_eq_false_iff, Bool.and_eq_false_iff, decide_eq_false_iff_not]
    omega
  unfold Text.isNumeralBlank
  rw [hblank, Bool.false_and]

theorem splitSign_of_isDigit {c : Char} {rest : List Char} (h : c.isDigit) :
    splitSign (c :: rest) = (false, c :: rest) := by
  unfold splitSign
  split
  · rename_i heq
    obtain ⟨rfl, -⟩ := List.cons.inj heq
    exact absurd h (by decide)
  · rename_i heq
    obtain ⟨rfl, -⟩ := List.cons.inj heq
    exact absurd h (by decide)
  · rfl

theorem readInteger_toString {n : ℕ} (h : n.repr.length ≤ digitLimit) :
    readInteger (toString n) = .ok n := by
  -- The digits have no blank before them and no sign, so the run of digits is
  -- all of the text.
  have hlist : (toString n).toList = Nat.toDigits 10 n := Nat.toList_repr
  have hdigits : ∀ c ∈ Nat.toDigits 10 n, c.isDigit := fun c hc =>
    Nat.isDigit_of_mem_toDigits (by decide) (by decide) hc
  have hlength : (Nat.toDigits 10 n).length ≤ digitLimit := by
    rw [← Nat.toList_repr, String.length_toList]
    exact h
  have hvalue : Nat.ofDigitChars 10 (Nat.toDigits 10 n) 0 = n := Nat.ofDigitChars_ten_toDigits
  obtain ⟨c, rest, hcons⟩ := List.exists_cons_of_ne_nil (Nat.toDigits_ne_nil (n := n) (b := 10))
  rw [hcons] at hlist hdigits hlength hvalue
  have hc : c.isDigit := hdigits c List.mem_cons_self
  have hdrop : (toString n).toList.dropWhile Text.isNumeralBlank = c :: rest := by
    rw [hlist, List.dropWhile_cons_of_neg (by rw [isNumeralBlank_of_isDigit hc]; decide)]
  unfold readInteger
  rw [hdrop, splitSign_of_isDigit hc]
  simp only [digitRun_of_isDigit [] hdigits, List.append_nil]
  rw [if_neg (by simp), if_neg (by simpa using hlength), if_neg (by simp),
    valueOfDigits_reverse, hvalue]
  rfl

/-! ## Section 3: the digit limit -/

theorem length_toDigits_le {n k : ℕ} (hk : 0 < k) (h : n < Nat.pow 10 k) :
    (Nat.toDigits 10 n).length ≤ k :=
  (Nat.length_toDigits_le_iff (by decide) hk).2 h

/-- Twenty digits are enough for 64 bits. -/
theorem lt_pow_of_le_u64Max {n k : ℕ} (hk : 20 ≤ k) (h : n ≤ u64Max) : n < Nat.pow 10 k :=
  calc
    n ≤ u64Max := h
    _ < Nat.pow 10 20 := by decide
    _ ≤ Nat.pow 10 k := Nat.pow_le_pow_right (by decide) hk

theorem isWritable_of_le_u64Max {n : ℕ} (h : n ≤ u64Max) : isWritable n :=
  decide_eq_true (lt_pow_of_le_u64Max (by decide) h)

end CalibratedCosts.Numeral
