import Mathlib
import CalibratedCosts.Proofs.Binary64.Order

/-! # Integers in double precision

    Every natural number up to `2 ^ 53` is a number of the format, and so are
    some above.  For such numbers the double precision sum and product are the
    exact ones, rounded once: both are the number nearest to the natural number
    that exact arithmetic gives, and none of them has a negative sign.
-/

namespace CalibratedCosts.Binary64

/-! ## Section 1: exact integers -/

/-- A natural number that is a number of the format. -/
def IsExact (n : ℕ) : Prop := ∃ x : Binary64, x.isFinite = true ∧ x.toRat = n

variable {n k : ℕ}

theorem IsExact.le_largest (h : IsExact n) : (n : ℚ) ≤ largest := by
  obtain ⟨x, -, hvalue⟩ := h
  rw [← hvalue]
  exact (le_abs_self _).trans x.abs_toRat_le_largest

/-- A number of the format is rounded to itself. -/
theorem IsExact.toRat_ofInt (h : IsExact n) : (ofInt n).toRat = n := by
  obtain ⟨x, hx, hvalue⟩ := h
  have hself := toRat_ofSignedRat_toRat false hx
  rw [hvalue] at hself
  unfold ofInt ofRat
  rw [Int.cast_natCast]
  exact hself

theorem isFinite_ofInt (h : (n : ℚ) ≤ largest) : (ofInt n).isFinite = true := by
  apply isFinite_ofSignedRat
  rwa [Int.cast_natCast, abs_of_nonneg (Nat.cast_nonneg n)]

theorem isNegative_ofInt (n : ℕ) : (ofInt n).isNegative = false := by
  unfold ofInt ofRat
  rw [isNegative_ofSignedRat]
  simp

theorem isExact_of_le (h : n ≤ 2 ^ 53) : IsExact n := by
  rcases h.lt_or_eq with hlt | rfl
  · have habs : |(n : ℤ)| < 0x20000000000000 := by
      rw [abs_of_nonneg (Int.natCast_nonneg n)]
      exact_mod_cast hlt
    have hle : (n : ℚ) ≤ 2 ^ 53 := by exact_mod_cast h
    refine ⟨ofInt n, isFinite_ofInt (le_largest (hle.trans (by norm_num))), ?_⟩
    exact_mod_cast toRat_ofSignedRat_intCast false habs
  -- The bound itself has one bit more, but is even.
  · refine ⟨.finite false 0x10000000000000 1 (by decide), rfl, ?_⟩
    norm_num [toRat]

/-- A positive natural number is not rounded below one. -/
theorem one_le_toRat_ofInt (hpos : 0 < n) (h : (n : ℚ) ≤ largest) : 1 ≤ (ofInt n).toRat := by
  have hone : (ofInt (1 : ℕ)).toRat = (1 : ℕ) := (isExact_of_le (by norm_num)).toRat_ofInt
  have hlow : |(((1 : ℕ) : ℤ) : ℚ)| ≤ largest := le_largest (by norm_num)
  have hhigh : |((n : ℤ) : ℚ)| ≤ largest := by
    rwa [Int.cast_natCast, abs_of_nonneg (Nat.cast_nonneg n)]
  -- One is exact, and rounding keeps the order.
  have hmono := toRat_ofSignedRat_le false false hlow hhigh (by exact_mod_cast hpos)
  calc
    (1 : ℚ) = (ofInt (1 : ℕ)).toRat := by rw [hone, Nat.cast_one]
    _ ≤ (ofInt n).toRat := hmono

/-! ## Section 2: sums and products -/

/-- A sum is rounded from the exact sum. -/
theorem add_eq {x y : Binary64} (hx : x.isFinite = true) (hy : y.isFinite = true) :
    x + y = ofSignedRat (x.isNegative && y.isNegative) (x.toRat + y.toRat) := by
  obtain ⟨negative, m, e, h, rfl⟩ := exists_eq_finite hx
  obtain ⟨negative', m', e', h', rfl⟩ := exists_eq_finite hy
  rfl

/-- A product is rounded from the exact product. -/
theorem mul_eq {x y : Binary64} (hx : x.isFinite = true) (hy : y.isFinite = true) :
    x * y = ofSignedRat (x.isNegative != y.isNegative) (x.toRat * y.toRat) := by
  obtain ⟨negative, m, e, h, rfl⟩ := exists_eq_finite hx
  obtain ⟨negative', m', e', h', rfl⟩ := exists_eq_finite hy
  rfl

theorem ofInt_add (hn : IsExact n) (hk : IsExact k) :
    ofInt n + ofInt k = ofInt (n + k : ℕ) := by
  rw [add_eq (isFinite_ofInt hn.le_largest) (isFinite_ofInt hk.le_largest), isNegative_ofInt,
    isNegative_ofInt, hn.toRat_ofInt, hk.toRat_ofInt]
  unfold ofInt ofRat
  push_cast
  rfl

/-- The second factor need not be exact next to a zero. -/
theorem ofInt_mul (hn : IsExact n) (hk : (k : ℚ) ≤ largest) (h : n = 0 ∨ IsExact k) :
    ofInt n * ofInt k = ofInt (n * k : ℕ) := by
  have hproduct : (ofInt n).toRat * (ofInt k).toRat = n * k := by
    rw [hn.toRat_ofInt]
    -- Either the first factor is zero, or the second one is exact as well.
    rcases h with rfl | hexact
    · rw [Nat.cast_zero, zero_mul, zero_mul]
    · rw [hexact.toRat_ofInt]
  rw [mul_eq (isFinite_ofInt hn.le_largest) (isFinite_ofInt hk), isNegative_ofInt,
    isNegative_ofInt, hproduct]
  unfold ofInt ofRat
  push_cast
  rfl

end CalibratedCosts.Binary64
