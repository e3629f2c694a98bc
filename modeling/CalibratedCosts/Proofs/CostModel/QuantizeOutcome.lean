import Mathlib
import CalibratedCosts.Proofs.Binary64.Decimal
import CalibratedCosts.Proofs.CostModel.Quantize

/-! # What a parameter is quantized to

    A finite parameter is refused if it is negative or has no 64-bit ceiling,
    and is rounded up from its tenths otherwise.  The way there leads through
    text with one digit after the point, which is read back as a double that
    is not the decimal in general; what comes out is what integers alone give.

    * **Tenths**: ten times the number, rounded in integer arithmetic.
    * **Outcome**: the range decides on the error, and the tenths on the
      integer, which therefore grows with the number and is the number itself
      where that is an integer.
-/

namespace CalibratedCosts

/-! ## Section 1: tenths in integers -/

namespace Binary64

/-- Ten times the number as an integer, a half going to the even neighbour.
    Only integers are computed with. -/
def tenths : Binary64 → ℤ
  | .finite negative m e _ =>
    let magnitude := if 0 ≤ e then 10 * m * 2 ^ e.toNat else shiftedEven (10 * m) (-e).toNat
    if negative then -(magnitude : ℤ) else magnitude
  | _ => 0

/-- The tenths of a magnitude are exact or shifted. -/
theorem isNearestEven_magnitude (m : ℕ) (e : ℤ) :
    IsNearestEven
      ((if 0 ≤ e then 10 * m * 2 ^ e.toNat else shiftedEven (10 * m) (-e).toNat : ℕ) : ℤ)
      (10 * ((m : ℚ) * 2 ^ e)) := by
  -- A non-negative exponent leaves an integer; a negative one is a quotient by
  -- a power of two, rounded half to even.
  by_cases he : 0 ≤ e
  · obtain ⟨k, rfl⟩ := Int.eq_ofNat_of_zero_le he
    have hexact : (10 : ℚ) * (m * 2 ^ (k : ℤ)) = ((10 * m * 2 ^ k : ℕ) : ℤ) := by
      rw [zpow_natCast]
      push_cast
      ring
    rw [if_pos he, hexact]
    exact IsNearestEven.intCast _
  · obtain ⟨k, hk⟩ := Int.eq_ofNat_of_zero_le (Int.neg_nonneg.2 (not_le.1 he).le)
    have hquotient : (10 : ℚ) * (m * 2 ^ e) = ((10 * m : ℕ) : ℚ) / 2 ^ k := by
      have hexponent : e = -k := by omega
      rw [hexponent, zpow_neg, zpow_natCast]
      push_cast
      ring
    rw [if_neg he, hquotient, hk]
    exact isNearestEven_shiftedEven _ _

theorem isNearestEven_tenths (x : Binary64) : IsNearestEven x.tenths (10 * x.toRat) := by
  cases x with
  | nan => simpa [toRat, tenths] using IsNearestEven.intCast 0
  | infinite negative => simpa [toRat, tenths] using IsNearestEven.intCast 0
  | finite negative m e h =>
    have hmagnitude := isNearestEven_magnitude m e
    cases negative with
    | false => exact hmagnitude
    -- Half to even is symmetric, so the sign may be put on either side.
    | true =>
      have hneg := hmagnitude.neg
      rw [← mul_neg] at hneg
      exact hneg

theorem nearestInteger_eq_tenths (x : Binary64) : nearestInteger (10 * x.toRat) = x.tenths :=
  (isNearestEven_nearestInteger _).unique x.isNearestEven_tenths

/-- Tenths grow with the number. -/
theorem tenths_le {x y : Binary64} (h : x.toRat ≤ y.toRat) : x.tenths ≤ y.tenths :=
  x.isNearestEven_tenths.le y.isNearestEven_tenths (mul_le_mul_of_nonneg_left h (by norm_num))

theorem tenths_of_intCast {x : Binary64} {k : ℤ} (h : x.toRat = k) : x.tenths = 10 * k := by
  have hten : (10 : ℚ) * x.toRat = ((10 * k : ℤ) : ℚ) := by rw [h]; push_cast; rfl
  rw [← nearestInteger_eq_tenths, hten, nearestInteger_intCast]

end Binary64

/-! ## Section 2: the outcome -/

variable {x : Binary64}

theorem quantizeParameter_eq_error_iff (hx : x.isFinite = true) {parameter : String}
    {e : CostModelError Binary64} :
    quantizeParameter parameter x = .error e ↔
      x.toRat < 0 ∧ e = .negativeParameter parameter x ∨
      2 ^ 64 ≤ x.toRat ∧ e = .parameterTooLarge parameter x := by
  rw [quantizeParameter_of_isFinite hx]
  -- In this order the code asks: a negative number is never too large.
  by_cases hnegative : x.toRat < 0
  · have hsmall : ¬ 2 ^ 64 ≤ x.toRat := by linarith
    simp [hnegative, hsmall, eq_comm]
  · have hfits : (nearestTenth x.toRat).ceil.toNat ≤ u64Max ↔ ¬ 2 ^ 64 ≤ x.toRat := by
      rw [Int.toNat_le, Binary64.ceil_nearestTenth_le_u64Max_iff (not_lt.1 hnegative), not_le]
      norm_num
    rw [if_neg hnegative]
    by_cases hlarge : 2 ^ 64 ≤ x.toRat
    · rw [dif_neg (mt hfits.1 (not_not.2 hlarge))]
      simp [hnegative, hlarge, eq_comm]
    · rw [dif_pos (hfits.2 hlarge)]
      simp [hnegative, hlarge]

/-- What is accepted is the tenths, rounded up to an integer. -/
theorem eq_of_quantizeParameter (hx : x.isFinite = true) {parameter : String}
    {n : { n : ℕ // n ≤ u64Max }} (h : quantizeParameter parameter x = .ok n) :
    (n.1 : ℤ) = (x.tenths + 9) / 10 := by
  rw [ceil_of_quantizeParameter hx h, ceil_nearestTenth, x.nearestInteger_eq_tenths]

/-- The outcome for a finite parameter.  The decimal that it is written as is
    read back as the rounded double.  It is an error exactly below zero and
    from `2 ^ 64` on.  Everywhere else the result is the number of tenths, a
    half going to the even one, rounded up to an integer; it grows with the
    parameter and is the parameter where that is an integer. -/
theorem quantizeParameter_outcome (hx : x.isFinite = true) (parameter : String) :
    Binary64.ofText? (x.fixed 1) = some (Quantity.roundToTenth x) ∧
    (∀ e, quantizeParameter parameter x = .error e ↔
      x.toRat < 0 ∧ e = .negativeParameter parameter x ∨
      2 ^ 64 ≤ x.toRat ∧ e = .parameterTooLarge parameter x) ∧
    IsNearestEven x.tenths (10 * x.toRat) ∧
    (0 ≤ x.toRat → x.toRat < 2 ^ 64 →
      ∃ n, quantizeParameter parameter x = .ok n ∧ (n.1 : ℤ) = (x.tenths + 9) / 10) ∧
    (∀ y : Binary64, y.isFinite = true → x.toRat ≤ y.toRat →
      ∀ n k, quantizeParameter parameter x = .ok n → quantizeParameter parameter y = .ok k →
        n.1 ≤ k.1) ∧
    (∀ n, quantizeParameter parameter x = .ok n → ∀ k : ℤ, x.toRat = k → (n.1 : ℤ) = k) := by
  refine ⟨x.ofText?_fixed_one, fun e => quantizeParameter_eq_error_iff hx,
    x.isNearestEven_tenths, fun hnonneg hlt => ?_, fun y hy hle n k hn hk => ?_,
    fun n hn k hk => ?_⟩
  · cases houtcome : quantizeParameter parameter x with
    | ok n => exact ⟨n, rfl, eq_of_quantizeParameter hx houtcome⟩
    | error e =>
      rcases (quantizeParameter_eq_error_iff hx).1 houtcome with ⟨hneg, -⟩ | ⟨hlarge, -⟩
      · exact absurd hneg hnonneg.not_gt
      · exact absurd hlt hlarge.not_gt
  -- Both costs are the ceiling of the tenths, and the tenths grow with the
  -- value.
  · have htenths := Binary64.tenths_le hle
    have hx' := eq_of_quantizeParameter hx hn
    have hy' := eq_of_quantizeParameter hy hk
    omega
  · have htenths := Binary64.tenths_of_intCast hk
    have hx' := eq_of_quantizeParameter hx hn
    omega

/-- A negative zero is not below zero, and the negative number next to it is. -/
example :
    Quantity.less (Binary64.signedZero true) 0 = false ∧
      Quantity.less (Binary64.finite true 1 (-1074) (by decide)) 0 = true := by
  decide +kernel

def quarterAbove : Binary64 := .finite false 0x10000000000001 (-2) (by decide)

/-- A tie between two tenths, of which none is a double. -/
theorem quarterAbove_quantized :
    quarterAbove.isFinite = true ∧
    Binary64.ofText? (quarterAbove.fixed 1) = some (Quantity.roundToTenth quarterAbove) ∧
    IsNearestEven 0x28000000000002 (10 * quarterAbove.toRat) ∧
    ∃ n, quantizeParameter "const_param" quarterAbove = .ok n ∧ (n.1 : ℤ) = 0x4000000000001 := by
  have htenths : quarterAbove.tenths = 0x28000000000002 := by decide +kernel
  have hvalue : quarterAbove.toRat = 0x10000000000001 / 4 := by
    norm_num [quarterAbove, Binary64.toRat]
  obtain ⟨hread, -, heven, haccepted, -⟩ :=
    quantizeParameter_outcome (show quarterAbove.isFinite = true from rfl) "const_param"
  obtain ⟨n, hn, hceil⟩ := haccepted (by rw [hvalue]; norm_num) (by rw [hvalue]; norm_num)
  rw [htenths] at heven hceil
  exact ⟨rfl, hread, heven, n, hn, hceil.trans (by norm_num)⟩

end CalibratedCosts
