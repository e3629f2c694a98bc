import Mathlib
import CalibratedCosts.CheckedArithmetic

/-! # The values of a kind

    A kind of at least one bit has as many values as its width allows, and they
    stand in a row around zero.

    * **Range**: one half of the width lies below zero if the kind is signed,
      and none of it if it is not.
    * **Wrapping**: an integer wraps to the one value that is congruent to it
      modulo the width, which is what a register of the width holds.
-/

namespace CalibratedCosts.NumericKind

variable {k : NumericKind} {n a b : Int}

/-! ## Section 1: range -/

theorem contains_iff : k.contains n = true ↔ k.minValue ≤ n ∧ n ≤ k.maxValue := by
  simp [contains]

/-- The bounds of a kind in terms of one half of its width. -/
theorem exists_half (hbits : 1 ≤ k.bits) :
    ∃ half : Int, 0 < half ∧ 2 ^ k.bits = 2 * half ∧
      ((k.signed = false ∧ k.minValue = 0 ∧ k.maxValue = 2 * half - 1) ∨
        (k.signed = true ∧ k.minValue = -half ∧ k.maxValue = half - 1)) := by
  -- Half of the register is positive in every kind that has a bit.
  have hwidth : (2 : Int) ^ k.bits = 2 * 2 ^ (k.bits - 1) := by
    rw [← pow_succ']
    congr 1
    omega
  refine ⟨2 ^ (k.bits - 1), by positivity, hwidth, ?_⟩
  -- A kind without a sign starts at zero, one with a sign at minus one half.
  cases hsigned : k.signed with
  | false =>
    left
    simp only [minValue, maxValue, hsigned, Bool.false_eq_true, if_false]
    exact ⟨trivial, trivial, by rw [← hwidth]; rfl⟩
  | true =>
    right
    simp only [minValue, maxValue, hsigned, if_true]
    exact ⟨trivial, rfl, rfl⟩

/-- A value is no larger than half of the width allows, or than all of it. -/
theorem natAbs_le_of_contains (hbits : 1 ≤ k.bits) (h : k.contains n = true) :
    n.natAbs ≤ 2 ^ k.bits := by
  obtain ⟨half, hpos, hwidth, hrange⟩ := exists_half hbits
  have hcast : ((2 ^ k.bits : ℕ) : Int) = 2 * half := by exact_mod_cast hwidth
  rw [contains_iff] at h
  omega

/-! ## Section 2: wrapping -/

/-- Values that agree modulo the width are the same. -/
theorem eq_of_modEq (hbits : 1 ≤ k.bits) (ha : k.contains a = true) (hb : k.contains b = true)
    (h : a ≡ b [ZMOD 2 ^ k.bits]) : a = b := by
  obtain ⟨half, hpos, hwidth, hrange⟩ := exists_half hbits
  rw [contains_iff] at ha hb
  have hdvd : 2 * half ∣ b - a := by
    rw [← hwidth]
    exact h.dvd
  -- The two are less than the width apart.
  have hzero : b - a = 0 := by
    apply Int.eq_zero_of_abs_lt_dvd hdvd
    rw [abs_lt]
    omega
  omega

/-- The bits in common are the conjunction of integers in two's complement. -/
theorem commonBits_eq_land (m n : Int) : commonBits m n = Int.land m n := by
  -- What is left of `m` without the bits of `n`.
  have hdiff : ∀ m n : ℕ, m ^^^ (m &&& n) = Nat.ldiff m n := by
    intro m n
    apply Nat.eq_of_testBit_eq
    intro i
    rw [Nat.testBit_xor, Nat.testBit_and, Nat.testBit_ldiff]
    cases m.testBit i <;> cases n.testBit i <;> rfl
  cases m with
  | ofNat m =>
    cases n with
    | ofNat n => rfl
    | negSucc n => exact congrArg Int.ofNat (hdiff m n)
  | negSucc m =>
    cases n with
    | ofNat n => exact congrArg Int.ofNat (hdiff n m)
    | negSucc n => rfl

/-- The lowest bits of an integer are its remainder, also of a negative one. -/
theorem commonBits_mask (n : Int) (bits : ℕ) : commonBits n (2 ^ bits - 1) = n % 2 ^ bits := by
  have hpos : 0 < 2 ^ bits := Nat.two_pow_pos bits
  have hmask : (2 ^ bits - 1 : Int) = Int.ofNat (2 ^ bits - 1) := by
    rw [Int.ofNat_eq_natCast, Nat.cast_sub hpos]
    push_cast
    rfl
  rw [hmask]
  cases n with
  | ofNat m =>
    show Int.ofNat (m &&& (2 ^ bits - 1)) = _
    rw [Nat.and_two_pow_sub_one_eq_mod]
    rfl
  | negSucc m =>
    have hlt : m % 2 ^ bits < 2 ^ bits := Nat.mod_lt m hpos
    -- The complement of the remainder within the mask.
    have hcomplement : (2 ^ bits - 1) ^^^ ((2 ^ bits - 1) &&& m) = 2 ^ bits - (m % 2 ^ bits + 1) := by
      apply Nat.eq_of_testBit_eq
      intro i
      rw [Nat.testBit_two_pow_sub_succ hlt, Nat.testBit_xor, Nat.testBit_and,
        Nat.testBit_two_pow_sub_one, Nat.testBit_mod_two_pow]
      cases decide (i < bits) <;> cases m.testBit i <;> rfl
    show Int.ofNat ((2 ^ bits - 1) ^^^ ((2 ^ bits - 1) &&& m)) = _
    rw [hcomplement, Int.negSucc_emod m (by positivity), Int.ofNat_eq_natCast, Nat.cast_sub hlt]
    push_cast
    ring

theorem wrap_eq (k : NumericKind) (n : Int) :
    k.wrap n =
      if k.signed = true ∧ k.maxValue < n % 2 ^ k.bits then n % 2 ^ k.bits - 2 ^ k.bits
      else n % 2 ^ k.bits := by
  rw [← commonBits_mask]
  show (if (k.signed && decide (k.maxValue < commonBits n (2 ^ k.bits - 1))) = true then _ else _) = _
  simp only [Bool.and_eq_true, decide_eq_true_eq]
  rfl

theorem wrap_modEq (k : NumericKind) (n : Int) : k.wrap n ≡ n [ZMOD 2 ^ k.bits] := by
  have hlow : n % 2 ^ k.bits ≡ n [ZMOD 2 ^ k.bits] := Int.mod_modEq n _
  rw [wrap_eq]
  split
  · exact (Int.modEq_sub_modulus_iff.2 hlow.symm).symm
  · exact hlow

theorem contains_wrap (hbits : 1 ≤ k.bits) (n : Int) : k.contains (k.wrap n) = true := by
  obtain ⟨half, hpos, hwidth, hrange⟩ := exists_half hbits
  have hnonneg : 0 ≤ n % (2 * half) := Int.emod_nonneg n (by omega)
  have hlt : n % (2 * half) < 2 * half := Int.emod_lt_of_pos n (by omega)
  rw [contains_iff, wrap_eq, hwidth]
  rcases hrange with ⟨hsigned, hmin, hmax⟩ | ⟨hsigned, hmin, hmax⟩
  -- Without a sign the remainder is the value.
  · simp only [hsigned, Bool.false_eq_true, false_and, if_false]
    omega
  · simp only [hsigned, true_and]
    split <;> omega

/-- An integer wraps to the one value that agrees with it modulo the width. -/
theorem wrap_eq_iff (hbits : 1 ≤ k.bits) :
    k.wrap a = b ↔ k.contains b = true ∧ b ≡ a [ZMOD 2 ^ k.bits] := by
  constructor
  · intro h
    rw [← h]
    exact ⟨contains_wrap hbits a, wrap_modEq k a⟩
  · intro h
    exact eq_of_modEq hbits (contains_wrap hbits a) h.1 ((wrap_modEq k a).trans h.2.symm)

theorem wrap_of_contains (hbits : 1 ≤ k.bits) (h : k.contains n = true) : k.wrap n = n :=
  (wrap_eq_iff hbits).2 ⟨h, Int.ModEq.refl n⟩

/-! ## Section 3: registers -/

/-- The bits of an integer that a register of the kind holds. -/
def register (k : NumericKind) (n : Int) : BitVec k.bits := BitVec.ofInt k.bits n

/-- The value that a register of the kind stands for. -/
def read (k : NumericKind) (x : BitVec k.bits) : Int := if k.signed then x.toInt else x.toNat

theorem contains_read (hbits : 1 ≤ k.bits) (x : BitVec k.bits) : k.contains (k.read x) = true := by
  obtain ⟨half, hpos, hwidth, hrange⟩ := exists_half hbits
  have hcast : ((2 ^ k.bits : ℕ) : Int) = 2 * half := by exact_mod_cast hwidth
  have hlt : x.toNat < 2 ^ k.bits := x.isLt
  -- The second half of the register stands for the values below zero.
  have hsmall : x.toNat < 2 ^ k.bits → (x.toNat : Int) < 2 * half := by omega
  rw [contains_iff]
  unfold read
  rcases hrange with ⟨hsigned, hmin, hmax⟩ | ⟨hsigned, hmin, hmax⟩
  · rw [hsigned, if_neg Bool.false_ne_true]
    omega
  · rw [hsigned, if_pos rfl, BitVec.toInt_eq_toNat_cond]
    split <;> omega

theorem read_modEq (k : NumericKind) (x : BitVec k.bits) :
    k.read x ≡ x.toNat [ZMOD 2 ^ k.bits] := by
  unfold read
  split
  · rw [BitVec.toInt_eq_toNat_bmod]
    exact_mod_cast Int.bmod_emod (x := x.toNat) (m := 2 ^ k.bits)
  · exact Int.ModEq.refl _

theorem toNat_register_modEq (k : NumericKind) (n : Int) :
    (k.register n).toNat ≡ n [ZMOD 2 ^ k.bits] := by
  have hnonneg : 0 ≤ n % (2 ^ k.bits : ℕ) := Int.emod_nonneg n (by positivity)
  unfold register
  rw [BitVec.toNat_ofInt, Int.toNat_of_nonneg hnonneg]
  push_cast
  exact Int.mod_modEq n _

/-- Wrapping is putting into a register and reading what it holds. -/
theorem wrap_eq_read (hbits : 1 ≤ k.bits) (n : Int) : k.wrap n = k.read (k.register n) := by
  rw [wrap_eq_iff hbits]
  exact ⟨contains_read hbits _, (read_modEq k _).trans (toNat_register_modEq k n)⟩

/-- A value is read back from its register. -/
theorem read_register (hbits : 1 ≤ k.bits) (h : k.contains n = true) :
    k.read (k.register n) = n := by
  rw [← wrap_eq_read hbits, wrap_of_contains hbits h]

end CalibratedCosts.NumericKind
