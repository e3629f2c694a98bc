import Mathlib
import CalibratedCosts.Numeral.Rounding

/-! # Ties to even

    Within a half, and even if exactly a half away: this fixes the integer that
    a fraction is rounded to.

    * **Order and sign**: rounding keeps the order of fractions, and a fraction
      and its negative are rounded alike.
    * **Integer arithmetic**: for a quotient by a power of two, quotient and
      remainder are enough to find the integer.
-/

namespace CalibratedCosts

/-! ## Section 1: the rule -/

/-- `n` is an integer nearest to `q`, and the even one if there are two. -/
structure IsNearestEven (n : ℤ) (q : ℚ) : Prop where
  near : |(n : ℚ) - q| ≤ 1 / 2
  even : |(n : ℚ) - q| = 1 / 2 → n % 2 = 0

namespace IsNearestEven

variable {m n : ℤ} {p q : ℚ}

/-- Rounding keeps the order. -/
theorem le (hm : IsNearestEven m p) (hn : IsNearestEven n q) (h : p ≤ q) : m ≤ n := by
  by_contra hlt
  have hstep : (n : ℚ) + 1 ≤ m := by exact_mod_cast not_le.1 hlt
  have hlow := (abs_le.1 hm.near).2
  have hhigh := (abs_le.1 hn.near).1
  -- There is room only for one point, halfway between two neighbours.
  have hmTie : (m : ℚ) - p = 1 / 2 := by linarith
  have hnTie : (n : ℚ) - q = -(1 / 2) := by linarith
  have hmEven := hm.even (by rw [hmTie]; norm_num)
  have hnEven := hn.even (by rw [hnTie]; norm_num)
  have hnext : m = n + 1 := by
    have hcast : (m : ℚ) = n + 1 := by linarith
    exact_mod_cast hcast
  omega

theorem unique (hm : IsNearestEven m q) (hn : IsNearestEven n q) : m = n :=
  le_antisymm (hm.le hn le_rfl) (hn.le hm le_rfl)

/-- A fraction that is no farther away is rounded to the same integer. -/
theorem of_abs_sub_le (h : IsNearestEven n q) (hle : |(n : ℚ) - p| ≤ |(n : ℚ) - q|) :
    IsNearestEven n p := by
  refine ⟨hle.trans h.near, fun htie => h.even ?_⟩
  exact le_antisymm h.near (htie.symm.trans_le hle)

theorem neg (h : IsNearestEven n q) : IsNearestEven (-n) (-q) := by
  have habs : |((-n : ℤ) : ℚ) - -q| = |(n : ℚ) - q| := by
    rw [← abs_neg]
    congr 1
    push_cast
    ring
  refine ⟨habs.trans_le h.near, fun htie => ?_⟩
  have heven := h.even (habs.symm.trans htie)
  omega

theorem intCast (n : ℤ) : IsNearestEven n n := by
  refine ⟨by rw [sub_self, abs_zero]; norm_num, fun htie => ?_⟩
  rw [sub_self, abs_zero] at htie
  norm_num at htie

/-- The choice between an integer and the next one, by what is left above the
    first. -/
theorem choose (below : ℤ) {rest : ℚ} (hlow : 0 ≤ rest) (hhigh : rest < 1) :
    IsNearestEven
      (if rest < 1 / 2 then below else if 1 / 2 < rest then below + 1
        else if below % 2 = 0 then below else below + 1) (below + rest) := by
  -- The two candidates are `rest` below and `1 - rest` above.
  have hdown : |(below : ℚ) - (below + rest)| = rest := by
    rw [abs_sub_comm, add_sub_cancel_left, abs_of_nonneg hlow]
  have hup : |((below + 1 : ℤ) : ℚ) - (below + rest)| = 1 - rest := by
    push_cast
    rw [add_sub_add_left_eq_sub, abs_of_pos (sub_pos.2 hhigh)]
  split_ifs with hless hmore heven
  · exact ⟨hdown.trans_le hless.le, fun htie => absurd (hdown.symm.trans htie) hless.ne⟩
  · refine ⟨by rw [hup]; linarith, fun htie => ?_⟩
    rw [hup] at htie
    linarith
  · exact ⟨hdown.trans_le (not_lt.1 hmore), fun _ => heven⟩
  · refine ⟨by rw [hup]; linarith, fun _ => ?_⟩
    omega

end IsNearestEven

/-! ## Section 2: rounding a fraction -/

theorem isNearestEven_nearestInteger (q : ℚ) : IsNearestEven (nearestInteger q) q := by
  have hlow : (q.floor : ℚ) ≤ q := Rat.floor_le q
  have hhigh : q < q.floor + 1 := by exact_mod_cast Rat.lt_floor_add_one q
  have hchoice := IsNearestEven.choose q.floor (sub_nonneg.2 hlow) (by linarith)
  rw [add_sub_cancel] at hchoice
  exact hchoice

theorem nearestInteger_mono {p q : ℚ} (h : p ≤ q) : nearestInteger p ≤ nearestInteger q :=
  (isNearestEven_nearestInteger p).le (isNearestEven_nearestInteger q) h

theorem nearestInteger_neg (q : ℚ) : nearestInteger (-q) = -nearestInteger q :=
  (isNearestEven_nearestInteger (-q)).unique (isNearestEven_nearestInteger q).neg

/-! ## Section 3: rounding in integers -/

/-- The integer nearest to `n / 2 ^ k`, a half going to the even neighbour, by
    quotient and remainder. -/
def shiftedEven (n k : ℕ) : ℕ :=
  let below := n / 2 ^ k
  let rest := n % 2 ^ k
  if 2 * rest < 2 ^ k then below
  else if 2 ^ k < 2 * rest then below + 1
  else if below % 2 = 0 then below
  else below + 1

theorem isNearestEven_shiftedEven (n k : ℕ) : IsNearestEven (shiftedEven n k) (n / 2 ^ k) := by
  have hpos : (0 : ℚ) < 2 ^ k := by positivity
  have hmod : n % 2 ^ k < 2 ^ k := Nat.mod_lt n (by positivity)
  have hdivision : (n : ℚ) / 2 ^ k =
      ((n / 2 ^ k : ℕ) : ℤ) + ((n % 2 ^ k : ℕ) : ℚ) / 2 ^ k := by
    rw [eq_comm, add_div' _ _ _ hpos.ne', div_left_inj' hpos.ne']
    have hnat : n / 2 ^ k * 2 ^ k + n % 2 ^ k = n := Nat.div_add_mod' n (2 ^ k)
    rw [Int.cast_natCast]
    exact_mod_cast congrArg (Nat.cast (R := ℚ)) hnat
  unfold shiftedEven
  -- From here on only the quotient, the remainder and their equation are
  -- needed.
  dsimp only
  generalize n / 2 ^ k = below at hdivision ⊢
  generalize n % 2 ^ k = rest at hmod hdivision ⊢
  have hrest : (rest : ℚ) < 2 ^ k := by exact_mod_cast hmod
  -- The definition compares twice the remainder with the divisor, all in
  -- integers.
  have hless : (rest : ℚ) / 2 ^ k < 1 / 2 ↔ 2 * rest < 2 ^ k := by
    rw [div_lt_div_iff₀ hpos two_pos, one_mul, mul_comm]
    exact_mod_cast Iff.rfl
  have hmore : 1 / 2 < (rest : ℚ) / 2 ^ k ↔ 2 ^ k < 2 * rest := by
    rw [div_lt_div_iff₀ two_pos hpos, one_mul, mul_comm (rest : ℚ)]
    exact_mod_cast Iff.rfl
  have hchoice := IsNearestEven.choose below
    (div_nonneg (Nat.cast_nonneg rest) hpos.le) ((div_lt_one hpos).2 hrest)
  rw [← hdivision] at hchoice
  simp only [hless, hmore] at hchoice
  convert hchoice using 1
  split_ifs <;> omega

end CalibratedCosts
