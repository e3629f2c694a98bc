import Mathlib
import CalibratedCosts.Proofs.Arithmetic.Kind

/-! # Truncating division

    The quotient of the absolute values, with its sign put back, is the exact
    quotient rounded toward zero, and what is left has the sign of the dividend.

    * **Results**: for every divisor but zero there is one quotient and one
      remainder, and these are the ones computed.
    * **Range**: the remainder of two values is a value.  So is the quotient,
      unless the smallest value of a signed kind is divided by minus one.
-/

namespace CalibratedCosts

variable {lhs rhs quotient remainder quotient' remainder' : Int}

/-- The division of `lhs` by `rhs` with the quotient rounded toward zero. -/
structure Truncates (lhs rhs quotient remainder : Int) : Prop where
  split : lhs = quotient * rhs + remainder
  small : |remainder| < |rhs|
  sign : remainder = 0 ∨ remainder.sign = lhs.sign

/-! ## Section 1: results -/

namespace Truncates

theorem ne_zero (h : Truncates lhs rhs quotient remainder) : rhs ≠ 0 := by
  intro hzero
  have hsmall := h.small
  rw [hzero, abs_zero] at hsmall
  exact absurd hsmall (not_lt.2 (abs_nonneg remainder))

/-- The remainder is on the side of the dividend. -/
theorem same_side (h : Truncates lhs rhs quotient remainder) :
    (0 ≤ lhs → 0 ≤ remainder) ∧ (lhs ≤ 0 → remainder ≤ 0) := by
  rcases h.sign with hzero | hsign
  · omega
  · constructor
    · intro hlhs
      rw [← Int.sign_nonneg_iff, hsign]
      exact Int.sign_nonneg_iff.2 hlhs
    · intro hlhs
      rw [← Int.sign_nonpos_iff, hsign]
      exact Int.sign_nonpos_iff.2 hlhs

/-- There is only one quotient and one remainder. -/
theorem unique (h : Truncates lhs rhs quotient remainder)
    (h' : Truncates lhs rhs quotient' remainder') :
    quotient = quotient' ∧ remainder = remainder' := by
  have hdvd : |rhs| ∣ remainder - remainder' := by
    rw [abs_dvd]
    refine ⟨quotient' - quotient, ?_⟩
    linarith [h.split, h'.split]
  -- Both remainders are on one side of zero, so that they are close.
  have hapart : |remainder - remainder'| < |rhs| := by
    have hsmall := abs_lt.1 h.small
    have hsmall' := abs_lt.1 h'.small
    have hside := h.same_side
    have hside' := h'.same_side
    rw [abs_lt]
    rcases Int.le_total 0 lhs with hlhs | hlhs
    · omega
    · omega
  have heq : remainder = remainder' := sub_eq_zero.1 (Int.eq_zero_of_abs_lt_dvd hdvd hapart)
  have hproduct : quotient * rhs = quotient' * rhs := by
    linarith [h.split, h'.split]
  exact ⟨mul_right_cancel₀ h.ne_zero hproduct, heq⟩

end Truncates

/-- A computed remainder is on the side of the dividend, and no further from
    zero. -/
theorem tmod_bounds (lhs rhs : Int) :
    (0 ≤ lhs → 0 ≤ lhs.tmod rhs) ∧ (lhs ≤ 0 → lhs.tmod rhs ≤ 0) ∧
      (lhs.tmod rhs).natAbs ≤ lhs.natAbs := by
  refine ⟨Int.tmod_nonneg rhs, ?_, ?_⟩
  · intro hlhs
    have hside : 0 ≤ (-lhs).tmod rhs := Int.tmod_nonneg rhs (by omega)
    rw [Int.neg_tmod] at hside
    omega
  · rw [Int.natAbs_tmod]
    exact Nat.mod_le _ _

theorem truncates_tdiv (lhs : Int) (h : rhs ≠ 0) :
    Truncates lhs rhs (lhs.tdiv rhs) (lhs.tmod rhs) := by
  have hsplit : rhs * lhs.tdiv rhs + lhs.tmod rhs = lhs := Int.mul_tdiv_add_tmod lhs rhs
  have hsmall : (lhs.tmod rhs).natAbs < rhs.natAbs := by
    rw [Int.natAbs_tmod]
    exact Nat.mod_lt _ (by omega)
  have hbounds := tmod_bounds lhs rhs
  -- The identity, the bound and the sign of the remainder, in this order.
  constructor
  · rw [mul_comm, hsplit]
  · rw [Int.abs_eq_natAbs, Int.abs_eq_natAbs]
    exact_mod_cast hsmall
  -- A remainder that is not zero is on the dividend's side of zero.
  · rcases lt_trichotomy (lhs.tmod rhs) 0 with hneg | hzero | hpos
    · right
      rw [Int.sign_eq_neg_one_of_neg hneg, Int.sign_eq_neg_one_of_neg (by omega)]
    · exact .inl hzero
    · right
      rw [Int.sign_eq_one_of_pos hpos, Int.sign_eq_one_of_pos (by omega)]

theorem truncatedQuotient_eq (lhs rhs : Int) :
    truncatedQuotient lhs rhs = if rhs = 0 then none else some (lhs.tdiv rhs) := by
  unfold truncatedQuotient
  -- A divisor of zero has no quotient on either side.
  by_cases h : rhs = 0
  · rw [if_pos h, if_pos h]
  · rw [if_neg h, if_neg h]
    -- The program divides the magnitudes and sets the sign afterwards, so that
    -- each pair of signs is a case.
    cases lhs with
    | ofNat m =>
      cases rhs with
      | ofNat n => simp [Int.tdiv, Int.not_lt.2 (Int.natCast_nonneg _)]
      | negSucc n => simp [Int.tdiv]
    | negSucc m =>
      cases rhs with
      | ofNat n => simp [Int.tdiv]
      | negSucc n => simp [Int.tdiv]

theorem truncatedRemainder_eq (lhs rhs : Int) :
    truncatedRemainder lhs rhs = if rhs = 0 then none else some (lhs.tmod rhs) := by
  unfold truncatedRemainder
  rw [truncatedQuotient_eq]
  by_cases h : rhs = 0
  · rw [if_pos h, if_pos h, Option.map_none]
  · rw [if_neg h, if_neg h, Option.map_some, Int.tmod_def]

/-- The quotient and the remainder are those that are computed. -/
theorem truncates_iff :
    Truncates lhs rhs quotient remainder ↔
      truncatedQuotient lhs rhs = some quotient ∧ truncatedRemainder lhs rhs = some remainder := by
  rw [truncatedQuotient_eq, truncatedRemainder_eq]
  -- Nothing is divided by zero, neither by the relation nor by the program.
  by_cases h : rhs = 0
  · rw [if_pos h]
    constructor
    · intro htruncates
      exact absurd h htruncates.ne_zero
    · intro hnone
      cases hnone.1
  · rw [if_neg h, if_neg h]
    constructor
    -- At most one pair of quotient and remainder fits, and the program's does.
    · intro htruncates
      obtain ⟨rfl, rfl⟩ := htruncates.unique (truncates_tdiv lhs h)
      exact ⟨rfl, rfl⟩
    · intro hsome
      rw [← Option.some.inj hsome.1, ← Option.some.inj hsome.2]
      exact truncates_tdiv lhs h

theorem truncatedQuotient_eq_some_iff :
    truncatedQuotient lhs rhs = some quotient ↔
      ∃ remainder, Truncates lhs rhs quotient remainder := by
  constructor
  · intro h
    refine ⟨lhs - rhs * quotient, truncates_iff.2 ⟨h, ?_⟩⟩
    rw [truncatedRemainder, h, Option.map_some]
  · rintro ⟨remainder, h⟩
    exact (truncates_iff.1 h).1

theorem truncatedRemainder_eq_some_iff :
    truncatedRemainder lhs rhs = some remainder ↔
      ∃ quotient, Truncates lhs rhs quotient remainder := by
  constructor
  · intro h
    obtain ⟨quotient, hquotient, -⟩ := Option.map_eq_some_iff.1 h
    exact ⟨quotient, truncates_iff.2 ⟨hquotient, h⟩⟩
  · rintro ⟨quotient, h⟩
    exact (truncates_iff.1 h).2

/-! ## Section 2: range -/

namespace NumericKind

variable {k : NumericKind}

/-- The remainder of a value is a value. -/
theorem contains_tmod (hbits : 1 ≤ k.bits) (hlhs : k.contains lhs = true) (rhs : Int) :
    k.contains (lhs.tmod rhs) = true := by
  obtain ⟨half, hpos, -, hrange⟩ := exists_half hbits
  have hbounds := tmod_bounds lhs rhs
  rw [contains_iff] at hlhs ⊢
  omega

/-- The quotient of two values is a value, unless it is the smallest one with the
    sign turned. -/
theorem contains_tdiv_iff (hbits : 1 ≤ k.bits) (hlhs : k.contains lhs = true)
    (hrhs : k.contains rhs = true) (h : rhs ≠ 0) :
    k.contains (lhs.tdiv rhs) = true ↔
      ¬ (k.signed = true ∧ lhs = k.minValue ∧ rhs = -1) := by
  obtain ⟨half, hpos, -, hrange⟩ := exists_half hbits
  have habs : (lhs.tdiv rhs).natAbs = lhs.natAbs / rhs.natAbs := Int.natAbs_tdiv lhs rhs
  have hdivisor := contains_iff.1 hrhs
  rw [contains_iff] at hlhs ⊢
  by_cases hone : rhs = -1
  -- The sign is turned, which no kind without a sign has a divisor for.
  · rw [hone, Int.tdiv_neg, Int.tdiv_one]
    rcases hrange with ⟨hsigned, hmin, hmax⟩ | ⟨hsigned, hmin, hmax⟩
    · omega
    · simp only [hsigned, true_and, and_true]
      omega
  · have hquotient : k.minValue ≤ lhs.tdiv rhs ∧ lhs.tdiv rhs ≤ k.maxValue := by
      rcases hrange with ⟨hsigned, hmin, hmax⟩ | ⟨hsigned, hmin, hmax⟩
      -- Without a sign no value is below zero, and a quotient is not larger
      -- than its dividend.
      · have hnonneg : 0 ≤ lhs.tdiv rhs := Int.tdiv_nonneg (by omega) (by omega)
        have hle : lhs.natAbs / rhs.natAbs ≤ lhs.natAbs := Nat.div_le_self _ _
        omega
      · by_cases hself : rhs = 1
        · rw [hself, Int.tdiv_one]
          omega
        -- Any other divisor at least halves the dividend.
        · have hhalves : lhs.natAbs / rhs.natAbs ≤ lhs.natAbs / 2 :=
            Nat.div_le_div_left (by omega) (by decide)
          omega
    exact ⟨fun _ hcase => hone hcase.2.2, fun _ => hquotient⟩

end NumericKind
end CalibratedCosts
