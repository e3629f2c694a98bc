import Mathlib
import CalibratedCosts.Binary64.Basic
import CalibratedCosts.Proofs.Numeral.Rounding

/-! # Rounding to double precision

    The finite numbers are the points `mantissa * 2 ^ exponent` of the
    canonical pairs.  A magnitude within the format is rounded to the nearest
    multiple of its unit `2 ^ unitExponent`.  No finite number is nearer: one
    with a smaller exponent is below the power of two `2 ^ (unit + 52)`, which
    is a multiple of the unit and not above the magnitude.
-/

namespace CalibratedCosts.Binary64

/-! ## Section 1: values -/

theorem exists_eq_finite {x : Binary64} (hx : x.isFinite = true) :
    ∃ negative m e h, x = .finite negative m e h := by
  cases x with
  | nan => cases hx
  | infinite negative => cases hx
  | finite negative m e h => exact ⟨negative, m, e, h, rfl⟩

/-- The largest finite magnitude. -/
def largest : ℚ := 0x1fffffffffffff * 2 ^ (971 : ℤ)

theorem le_largest {q : ℚ} (h : q ≤ 0x100000000000000000000) : q ≤ largest := by
  have hpow : (2 : ℚ) ^ (80 : ℤ) ≤ 2 ^ (971 : ℤ) :=
    zpow_le_zpow_right₀ (by norm_num) (by norm_num)
  have heighty : (2 : ℚ) ^ (80 : ℤ) = 0x100000000000000000000 := by norm_num
  unfold largest
  rw [heighty] at hpow
  generalize (2 : ℚ) ^ (971 : ℤ) = top at hpow ⊢
  linarith

theorem abs_toRat_finite (negative : Bool) (m : ℕ) (e : ℤ) (h : IsCanonical m e) :
    |toRat (.finite negative m e h)| = m * 2 ^ e := by
  have hnonneg : (0 : ℚ) ≤ (m : ℚ) * 2 ^ e := by positivity
  unfold toRat
  cases negative with
  | false => exact abs_of_nonneg hnonneg
  | true =>
    show |-((m : ℚ) * 2 ^ e)| = m * 2 ^ e
    rw [abs_neg, abs_of_nonneg hnonneg]

/-- No number is beyond the largest one. -/
theorem abs_toRat_le_largest (x : Binary64) : |x.toRat| ≤ largest := by
  have hzero : (0 : ℚ) ≤ largest := by
    unfold largest
    positivity
  -- A finite number has at most the largest mantissa and the largest exponent.
  cases x with
  | nan => exact abs_zero.trans_le hzero
  | infinite negative => exact abs_zero.trans_le hzero
  | finite negative m e h =>
    rw [abs_toRat_finite]
    have hm : (m : ℚ) ≤ 0x1fffffffffffff := by exact_mod_cast Nat.le_of_lt_succ h.1
    have he : (2 : ℚ) ^ e ≤ 2 ^ (971 : ℤ) := zpow_le_zpow_right₀ (by norm_num) h.2.2.1
    exact mul_le_mul hm he (zpow_pos (by norm_num) e).le (by norm_num)

theorem toRat_ofMagnitude {m : ℕ} {e : ℤ} (negative : Bool) (h : IsCanonical m e) :
    (ofMagnitude negative m e).toRat =
      if negative then -((m : ℚ) * 2 ^ e) else (m : ℚ) * 2 ^ e := by
  unfold ofMagnitude
  rw [dif_pos h]
  rfl

theorem isFinite_ofMagnitude {m : ℕ} {e : ℤ} (negative : Bool) (h : IsCanonical m e) :
    (ofMagnitude negative m e).isFinite = true := by
  unfold ofMagnitude
  rw [dif_pos h]
  rfl

/-- A number of magnitude `2 ^ (k + 52)` or more is a multiple of `2 ^ k`. -/
theorem exists_toRat_eq_mul_zpow {x : Binary64} {k : ℤ} (h : 2 ^ (k + 52) ≤ |x.toRat|) :
    ∃ n : ℤ, x.toRat = n * 2 ^ k := by
  have htwo : (2 : ℚ) ≠ 0 := by norm_num
  have hpos : (0 : ℚ) < 2 ^ (k + 52) := zpow_pos (by norm_num) _
  cases x with
  | nan => exact absurd (hpos.trans_le h) (by simp [toRat])
  | infinite negative => exact absurd (hpos.trans_le h) (by simp [toRat])
  | finite negative m e hcanonical =>
    rw [abs_toRat_finite] at h
    -- With a smaller exponent the mantissa would need more than 53 bits.
    have he : k ≤ e := by
      have hm : (m : ℚ) < 2 ^ (53 : ℤ) := by
        norm_num
        exact_mod_cast hcanonical.1
      have hlt : (2 : ℚ) ^ (k + 52) < 2 ^ (53 + e) := by
        rw [zpow_add₀ htwo 53]
        exact h.trans_lt (mul_lt_mul_of_pos_right hm (zpow_pos (by norm_num) e))
      have hexp := (zpow_lt_zpow_iff_right₀ (by norm_num : (1 : ℚ) < 2)).1 hlt
      omega
    obtain ⟨j, hj⟩ := Int.eq_ofNat_of_zero_le (Int.sub_nonneg.2 he)
    have hmultiple : (m : ℚ) * 2 ^ e = ((m * 2 ^ j : ℕ) : ℤ) * 2 ^ k := by
      have hexp : e = j + k := by omega
      rw [hexp, zpow_add₀ htwo, zpow_natCast]
      push_cast
      ring
    cases negative with
    | false => exact ⟨(m * 2 ^ j : ℕ), hmultiple⟩
    | true =>
      refine ⟨-(m * 2 ^ j : ℕ), ?_⟩
      rw [Int.cast_neg, neg_mul, ← hmultiple]
      rfl

/-- A finite number of 53 bits or more is an integer. -/
theorem toRat_eq_intCast {x : Binary64} (h : 0x1fffffffffffff < |x.toRat|) :
    ∃ k : ℤ, x.toRat = k := by
  have hbits : (2 : ℚ) ^ ((0 : ℤ) + 52) ≤ |x.toRat| := by
    norm_num
    linarith
  obtain ⟨n, hn⟩ := exists_toRat_eq_mul_zpow hbits
  exact ⟨n, by rw [hn, zpow_zero, mul_one]⟩

/-! ## Section 2: the unit of a magnitude -/

theorem lt_zpow_unitExponent {q : ℚ} (hq : 0 < q) : q < 2 ^ (unitExponent q + 53) := by
  have hmagnitude := (binaryMagnitude_spec hq).2
  have hle : binaryMagnitude q + 1 ≤ unitExponent q + 53 := by
    unfold unitExponent
    omega
  exact hmagnitude.trans_le (zpow_le_zpow_right₀ (by norm_num) hle)

/-- Above the smallest exponent the magnitude has all 53 bits. -/
theorem zpow_unitExponent_le {q : ℚ} (hq : 0 < q) :
    2 ^ (unitExponent q + 52) ≤ q ∨ unitExponent q = -1074 := by
  by_cases h : binaryMagnitude q - 52 ≤ -1074
  · right
    exact max_eq_right h
  · left
    have hunit : unitExponent q + 52 = binaryMagnitude q := by
      unfold unitExponent
      omega
    rw [hunit]
    exact (binaryMagnitude_spec hq).1

theorem unitExponent_le {q : ℚ} {k : ℤ} (hq : 0 < q) (h : q < 2 ^ (k + 53)) (hk : -1074 ≤ k) :
    unitExponent q ≤ k := by
  have hpow := (binaryMagnitude_spec hq).1.trans_lt h
  have hlt : binaryMagnitude q < k + 53 := (zpow_lt_zpow_iff_right₀ (by norm_num)).1 hpow
  unfold unitExponent
  omega

/-! ## Section 3: rounding a magnitude -/

/-- The nearest multiple of the unit. -/
def roundedMagnitude (q : ℚ) : ℚ :=
  (nearestInteger (q / 2 ^ unitExponent q) : ℚ) * 2 ^ unitExponent q

/-- No multiple of the unit is nearer. -/
theorem abs_roundedMagnitude_sub_le (q : ℚ) (k : ℤ) :
    |roundedMagnitude q - q| ≤ |(k : ℚ) * 2 ^ unitExponent q - q| := by
  unfold roundedMagnitude
  set u : ℚ := 2 ^ unitExponent q with hu
  have hpos : 0 < u := zpow_pos (by norm_num) _
  have hscale : ∀ n : ℤ, |(n : ℚ) * u - q| = |(n : ℚ) - q / u| * u := by
    intro n
    rw [← abs_of_pos hpos, ← abs_mul, abs_of_pos hpos, sub_mul, div_mul_cancel₀ q hpos.ne']
  rw [hscale, hscale]
  exact mul_le_mul_of_nonneg_right (abs_nearestInteger_sub_le_abs_sub _ k) hpos.le

/-- The mantissa has at most 53 bits, or is the next power of two. -/
theorem nearestInteger_unit_bounds {q : ℚ} (hq : 0 < q) :
    0 ≤ nearestInteger (q / 2 ^ unitExponent q) ∧
    nearestInteger (q / 2 ^ unitExponent q) ≤ 0x20000000000000 ∧
    (0x10000000000000 ≤ nearestInteger (q / 2 ^ unitExponent q) ∨ unitExponent q = -1074) := by
  have hpos : (0 : ℚ) < 2 ^ unitExponent q := zpow_pos (by norm_num) _
  have htwo : (2 : ℚ) ≠ 0 := by norm_num
  refine ⟨?_, ?_, ?_⟩
  -- The three bounds: not negative, at most one above the mantissas, and a full
  -- mantissa unless the unit is the smallest.
  · apply le_nearestInteger
    push_cast
    positivity
  · apply nearestInteger_le
    rw [div_le_iff₀ hpos]
    have hlt := lt_zpow_unitExponent hq
    rw [zpow_add₀ htwo] at hlt
    norm_num at hlt ⊢
    linarith
  · rcases zpow_unitExponent_le hq with hle | hmin
    · left
      apply le_nearestInteger
      rw [le_div_iff₀ hpos]
      rw [zpow_add₀ htwo] at hle
      norm_num at hle ⊢
      linarith
    · exact Or.inr hmin

/-- A magnitude within the format is rounded to a canonical pair, which
    stands for the nearest multiple of the unit. -/
theorem roundMagnitude_spec {q : ℚ} (hq : 0 < q) (hle : q ≤ largest) :
    IsCanonical (roundMagnitude q).1 (roundMagnitude q).2 ∧
    ((roundMagnitude q).1 : ℚ) * 2 ^ (roundMagnitude q).2 = roundedMagnitude q := by
  have hpos : (0 : ℚ) < 2 ^ unitExponent q := zpow_pos (by norm_num) _
  obtain ⟨hnonneg, hupper, hlower⟩ := nearestInteger_unit_bounds hq
  have hmin : -1074 ≤ unitExponent q := le_max_right _ _
  have hmax : unitExponent q ≤ 971 := by
    apply unitExponent_le hq _ (by norm_num)
    apply hle.trans_lt
    unfold largest
    rw [zpow_add₀ (by norm_num : (2 : ℚ) ≠ 0), mul_comm]
    norm_num
  unfold roundMagnitude roundedMagnitude
  set n := nearestInteger (q / 2 ^ unitExponent q) with hn
  have hcast : ((n.toNat : ℕ) : ℚ) = n := by exact_mod_cast Int.toNat_of_nonneg hnonneg
  by_cases hfull : n.toNat = 0x20000000000000
  -- The largest mantissa of the largest exponent is not rounded up.
  · have hbelow : unitExponent q < 971 := by
      rcases hmax.lt_or_eq with hlt | heq
      · exact hlt
      · have hround : n ≤ 0x1fffffffffffff := by
          apply nearestInteger_le
          rw [div_le_iff₀ hpos, heq]
          exact hle
        omega
    rw [if_pos hfull]
    refine ⟨⟨by norm_num, by omega, by omega, Or.inl le_rfl⟩, ?_⟩
    rw [← hcast, hfull, zpow_add₀ (by norm_num : (2 : ℚ) ≠ 0)]
    push_cast
    ring
  · rw [if_neg hfull]
    refine ⟨⟨by omega, hmin, hmax, ?_⟩, by rw [hcast]⟩
    rcases hlower with hbits | hbits
    · left
      show 0x10000000000000 ≤ n.toNat
      omega
    · exact Or.inr hbits

/-- No canonical pair is nearer. -/
theorem abs_roundedMagnitude_sub_le_canonical {q : ℚ} {m : ℕ} {e : ℤ} (hq : 0 < q)
    (h : IsCanonical m e) :
    |roundedMagnitude q - q| ≤ |(m : ℚ) * 2 ^ e - q| := by
  have htwo : (2 : ℚ) ≠ 0 := by norm_num
  by_cases hexp : unitExponent q ≤ e
  -- The pair is a multiple of the unit.
  · obtain ⟨k, hk⟩ := Int.eq_ofNat_of_zero_le (Int.sub_nonneg.2 hexp)
    have hmultiple : (m : ℚ) * 2 ^ e = ((m * 2 ^ k : ℕ) : ℤ) * 2 ^ unitExponent q := by
      have he : e = k + unitExponent q := by omega
      rw [he, zpow_add₀ htwo, zpow_natCast]
      push_cast
      ring
    rw [hmultiple]
    exact abs_roundedMagnitude_sub_le q _
  -- The pair is below a power of two that is a multiple of the unit.
  · have hbits : 2 ^ (unitExponent q + 52) ≤ q := by
      rcases zpow_unitExponent_le hq with hle | hmin
      · exact hle
      · exact absurd h.2.1 (by omega)
    have hpower : (2 : ℚ) ^ (unitExponent q + 52) =
        ((0x10000000000000 : ℤ) : ℚ) * 2 ^ unitExponent q := by
      rw [zpow_add₀ htwo, mul_comm]
      norm_num
    have hbelow : (m : ℚ) * 2 ^ e ≤ 2 ^ (unitExponent q + 52) := by
      have hm : (m : ℚ) ≤ 2 ^ (53 : ℤ) := by
        norm_num
        exact_mod_cast h.1.le
      have hpow : (2 : ℚ) ^ e ≤ 2 ^ (unitExponent q - 1) :=
        zpow_le_zpow_right₀ (by norm_num) (by omega)
      calc (m : ℚ) * 2 ^ e ≤ 2 ^ (53 : ℤ) * 2 ^ (unitExponent q - 1) :=
            mul_le_mul hm hpow (zpow_pos (by norm_num) e).le (by norm_num)
        _ = 2 ^ (unitExponent q + 52) := by
            rw [← zpow_add₀ htwo]
            congr 1
            ring
    have hnear := abs_roundedMagnitude_sub_le q 0x10000000000000
    rw [← hpower, abs_of_nonpos (by linarith : (2 : ℚ) ^ (unitExponent q + 52) - q ≤ 0)] at hnear
    rw [abs_of_nonpos (by linarith : (m : ℚ) * 2 ^ e - q ≤ 0)]
    linarith

/-! ## Section 4: rounding with a sign -/

theorem ofSignedRat_zero (negativeZero : Bool) :
    ofSignedRat negativeZero 0 = signedZero negativeZero := if_pos rfl

/-- A fraction within the format is rounded to a finite number, as far from
    it as the rounded magnitude is from its magnitude. -/
theorem ofSignedRat_spec {q : ℚ} (negativeZero : Bool) (hq : q ≠ 0) (hle : |q| ≤ largest) :
    (ofSignedRat negativeZero q).isFinite = true ∧
    |(ofSignedRat negativeZero q).toRat - q| = |roundedMagnitude (|q|) - (|q|)| := by
  have hpos : 0 < |q| := abs_pos.2 hq
  have habs : q.abs = |q| := by
    rcases le_total 0 q with h | h
    · rw [Rat.abs_of_nonneg h, abs_of_nonneg h]
    · rw [Rat.abs_of_nonpos h, abs_of_nonpos h]
  obtain ⟨hcanonical, hvalue⟩ := roundMagnitude_spec hpos hle
  have hdef : ofSignedRat negativeZero q =
      ofMagnitude (decide (q < 0)) (roundMagnitude |q|).1 (roundMagnitude |q|).2 := by
    unfold ofSignedRat
    rw [if_neg hq, habs]
  rw [hdef]
  refine ⟨isFinite_ofMagnitude _ hcanonical, ?_⟩
  rw [toRat_ofMagnitude _ hcanonical, hvalue]
  -- The sign is put on after rounding, on both sides of the difference.
  by_cases hsign : q < 0
  · rw [decide_eq_true hsign, if_pos rfl, abs_of_neg hsign, ← abs_neg]
    congr 1
    ring
  · rw [decide_eq_false hsign, if_neg Bool.false_ne_true, abs_of_nonneg (not_lt.1 hsign)]

theorem isFinite_ofSignedRat {q : ℚ} (negativeZero : Bool) (hle : |q| ≤ largest) :
    (ofSignedRat negativeZero q).isFinite = true := by
  by_cases hq : q = 0
  · rw [hq, ofSignedRat_zero]
    rfl
  · exact (ofSignedRat_spec negativeZero hq hle).1

/-- No finite number is nearer. -/
theorem abs_ofSignedRat_sub_le {q : ℚ} {z : Binary64} (negativeZero : Bool) (hle : |q| ≤ largest)
    (hz : z.isFinite = true) :
    |(ofSignedRat negativeZero q).toRat - q| ≤ |z.toRat - q| := by
  by_cases hq : q = 0
  · rw [hq, ofSignedRat_zero]
    simp [signedZero, toRat]
  · rw [(ofSignedRat_spec negativeZero hq hle).2]
    obtain ⟨negative, m, e, h, rfl⟩ := exists_eq_finite hz
    -- Magnitudes are at most as far apart as the numbers.
    refine (abs_roundedMagnitude_sub_le_canonical (abs_pos.2 hq) h).trans ?_
    rw [← abs_toRat_finite negative m e h]
    exact abs_abs_sub_abs_le _ _

/-- A number is rounded to itself. -/
theorem toRat_ofSignedRat_toRat {x : Binary64} (negativeZero : Bool) (hx : x.isFinite = true) :
    (ofSignedRat negativeZero x.toRat).toRat = x.toRat := by
  have hnear := abs_ofSignedRat_sub_le negativeZero x.abs_toRat_le_largest hx
  rw [sub_self, abs_zero] at hnear
  exact sub_eq_zero.1 (abs_eq_zero.1 (le_antisymm hnear (abs_nonneg _)))

/-- An integer of 53 bits is rounded to itself. -/
theorem toRat_ofSignedRat_intCast {n : ℤ} (negativeZero : Bool) (h : |n| < 0x20000000000000) :
    (ofSignedRat negativeZero n).toRat = n := by
  by_cases hn : (n : ℚ) = 0
  · rw [hn, ofSignedRat_zero]
    simp [signedZero, toRat]
  · have hpos : (0 : ℚ) < |(n : ℚ)| := abs_pos.2 hn
    have hlt : |(n : ℚ)| < 0x20000000000000 := by exact_mod_cast h
    have hle : |(n : ℚ)| ≤ largest := le_largest (by linarith)
    have hunit : unitExponent |(n : ℚ)| ≤ 0 := by
      apply unitExponent_le hpos _ (by norm_num)
      norm_num
      exact hlt
    obtain ⟨k, hk⟩ := Int.eq_ofNat_of_zero_le (Int.neg_nonneg.2 hunit)
    -- The unit divides every integer.
    have hmultiple : ((|n| * 2 ^ k : ℤ) : ℚ) * 2 ^ unitExponent |(n : ℚ)| = |(n : ℚ)| := by
      have he : unitExponent |(n : ℚ)| = -k := by omega
      rw [he, zpow_neg, zpow_natCast]
      push_cast
      field_simp
    have hnear := abs_roundedMagnitude_sub_le |(n : ℚ)| (|n| * 2 ^ k)
    rw [hmultiple, sub_self, abs_zero, ← (ofSignedRat_spec negativeZero hn hle).2] at hnear
    exact sub_eq_zero.1 (abs_eq_zero.1 (le_antisymm hnear (abs_nonneg _)))

end CalibratedCosts.Binary64
