import Mathlib
import CalibratedCosts.Proofs.Arithmetic.Exactness

/-! # Shifts

    A shift by fewer places than the kind has bits is that of a register of the
    kind.

    * **To the left**: the places that leave the register are lost, so that the
      result agrees with the exact product modulo the width.
    * **To the right**: the quotient is rounded down, and the sign stays.
    * **Back and forth**: a value comes back from a shift to the left exactly if
      nothing was lost.
-/

namespace CalibratedCosts

variable {k : NumericKind} {lhs rhs result : Int}

namespace NumericKind

/-! ## Section 1: registers that are shifted -/

/-- A register shifted to the right, with its sign if it has one. -/
def shiftedRight (k : NumericKind) (x : BitVec k.bits) (places : ℕ) : BitVec k.bits :=
  if k.signed then x.sshiftRight places else x >>> places

/-- A product with a power of two is a shift to the left. -/
theorem wrap_mul_two_pow (hbits : 1 ≤ k.bits) (n : Int) (places : ℕ) :
    k.wrap (n * 2 ^ places) = k.read (k.register n <<< places) := by
  have hpower : BitVec.ofInt k.bits (2 ^ places) = BitVec.twoPow k.bits places := by
    apply BitVec.eq_of_toNat_eq
    have hcast : (2 : Int) ^ places = (2 ^ places : ℕ) := by push_cast; rfl
    rw [hcast, BitVec.ofInt_natCast, BitVec.toNat_ofNat, BitVec.toNat_twoPow]
  have hregister : k.register (n * 2 ^ places) = k.register n <<< places := by
    unfold register
    rw [BitVec.ofInt_mul, hpower, BitVec.shiftLeft_eq_mul_twoPow]
  rw [wrap_eq_read hbits, hregister]

/-- A quotient by a power of two is a shift to the right. -/
theorem div_two_pow_eq_read (hbits : 1 ≤ k.bits) {n : Int} (h : k.contains n = true) (places : ℕ) :
    n / 2 ^ places = k.read (k.shiftedRight (k.register n) places) := by
  have hread := read_register hbits h
  unfold read at hread
  unfold read shiftedRight
  -- A register with a sign is shifted with copies of it, one without a sign
  -- with zeros.
  cases hsigned : k.signed with
  | true =>
    simp only [hsigned, if_true] at hread ⊢
    rw [BitVec.toInt_sshiftRight, hread, Int.shiftRight_eq_div_pow]
    norm_cast
  | false =>
    simp only [hsigned, Bool.false_eq_true, if_false] at hread ⊢
    rw [BitVec.toNat_ushiftRight, Nat.shiftRight_eq_div_pow]
    push_cast
    rw [hread]

/-- A quotient by a power of two is no further from zero. -/
theorem contains_div_two_pow (hbits : 1 ≤ k.bits) {n : Int} (h : k.contains n = true)
    (places : ℕ) : k.contains (n / 2 ^ places) = true := by
  rw [div_two_pow_eq_read hbits h]
  exact contains_read hbits _

/-- A value that is shifted to the left comes back if the exact product is a
    value, and only then. -/
theorem wrap_div_two_pow_eq_iff (hbits : 1 ≤ k.bits) (n : Int) {places : ℕ}
    (hplaces : places ≤ k.bits) :
    k.wrap (n * 2 ^ places) / 2 ^ places = n ↔ k.contains (n * 2 ^ places) = true := by
  have hpos : (0 : Int) < 2 ^ places := by positivity
  constructor
  · intro hback
    -- What is kept is a multiple of the power, like the width.
    have hdvd : (2 : Int) ^ places ∣ k.wrap (n * 2 ^ places) := by
      have hwidth : (2 : Int) ^ places ∣ 2 ^ k.bits := pow_dvd_pow 2 hplaces
      have hmod : k.wrap (n * 2 ^ places) ≡ n * 2 ^ places [ZMOD 2 ^ places] :=
        (wrap_modEq k _).of_dvd hwidth
      exact hmod.dvd_iff.2 (Dvd.intro_left n rfl)
    have heq : k.wrap (n * 2 ^ places) = n * 2 ^ places := by
      rw [← Int.ediv_mul_cancel hdvd, hback]
    rw [← heq]
    exact contains_wrap hbits _
  · intro hcontains
    rw [wrap_of_contains hbits hcontains, Int.mul_ediv_cancel n hpos.ne']

end NumericKind

namespace CheckedOp

/-! ## Section 2: checked shifts -/

theorem yields_shl (hbits : 1 ≤ k.bits) (lhs : Int) (hlt : rhs < k.bits) :
    CheckedOp.shl.Yields k lhs rhs (k.wrap (lhs * 2 ^ rhs.toNat)) := by
  have hcontains := NumericKind.contains_wrap hbits (lhs * 2 ^ rhs.toNat)
  exact ⟨⟨hlt, hcontains, NumericKind.wrap_modEq k _⟩, hcontains⟩

theorem yields_shr (hbits : 1 ≤ k.bits) (hlhs : k.contains lhs = true) (hlt : rhs < k.bits) :
    CheckedOp.shr.Yields k lhs rhs (lhs / 2 ^ rhs.toNat) :=
  ⟨⟨hlt, (floor_div_two_pow lhs rhs.toNat).symm⟩,
    NumericKind.contains_div_two_pow hbits hlhs rhs.toNat⟩

/-- A shift has a result as long as it is by fewer places than there are bits. -/
theorem exists_shifted_iff {op : CheckedOp} (hop : op = .shl ∨ op = .shr) (hbits : 1 ≤ k.bits)
    (h : op.Takes k lhs rhs) : (∃ result, op.Yields k lhs rhs result) ↔ rhs < k.bits := by
  rcases hop with rfl | rfl
  -- Both shifts are limited by the width and by nothing else.
  · constructor
    · rintro ⟨result, ⟨hlt, -⟩, -⟩
      exact hlt
    · intro hlt
      exact ⟨_, yields_shl hbits lhs hlt⟩
  · constructor
    · rintro ⟨result, ⟨hlt, -⟩, -⟩
      exact hlt
    · intro hlt
      exact ⟨_, yields_shr hbits h.1 hlt⟩

theorem checkedBinary_shl (hbits : 1 ≤ k.bits) (h : CheckedOp.shl.Takes k lhs rhs)
    (hlt : rhs < k.bits) :
    checkedBinary k .shl lhs rhs = .ok (k.wrap (lhs * 2 ^ rhs.toNat)) := by
  rw [checkedBinary_eq_ok_iff hbits]
  exact ⟨h, yields_shl hbits lhs hlt⟩

theorem checkedBinary_shr (hbits : 1 ≤ k.bits) (h : CheckedOp.shr.Takes k lhs rhs)
    (hlt : rhs < k.bits) :
    checkedBinary k .shr lhs rhs = .ok (lhs / 2 ^ rhs.toNat) := by
  rw [checkedBinary_eq_ok_iff hbits]
  exact ⟨h, yields_shr hbits h.1 hlt⟩

/-- A shift by at least as many places as the kind has bits is an overflow, and
    any other shift is one of registers: to the left modulo the width, to the right
    rounded down, and back and forth without loss exactly if the product is a
    value.  All of this is exact unless an overflow cannot be written. -/
theorem shifts_fixed_width (hbits : 1 ≤ k.bits) (hlhs : k.contains lhs = true)
    (hrhs : 0 ≤ rhs ∧ rhs < 2 ^ 32) :
    (∀ op, op = .shl ∨ op = .shr →
      ((∃ result, checkedBinary k op lhs rhs = .ok result) ↔ rhs < k.bits) ∧
      (k.bits ≤ rhs → checkedBinary k op lhs rhs = .error (op.overflow k lhs rhs)) ∧
      (op.Exact k lhs rhs ↔ rhs < k.bits ∨ Numeral.isWritable lhs = true)) ∧
    (rhs < k.bits →
      (∃! result, k.contains result = true ∧ result ≡ lhs * 2 ^ rhs.toNat [ZMOD 2 ^ k.bits]) ∧
      (∀ result, checkedBinary k .shl lhs rhs = .ok result ↔
        k.contains result = true ∧ result ≡ lhs * 2 ^ rhs.toNat [ZMOD 2 ^ k.bits]) ∧
      checkedBinary k .shl lhs rhs = .ok (k.read (k.register lhs <<< rhs.toNat)) ∧
      k.contains ⌊(lhs : ℚ) / 2 ^ rhs.toNat⌋ = true ∧
      checkedBinary k .shr lhs rhs = .ok ⌊(lhs : ℚ) / 2 ^ rhs.toNat⌋ ∧
      checkedBinary k .shr lhs rhs = .ok (k.read (k.shiftedRight (k.register lhs) rhs.toNat)) ∧
      ((∃ shifted, checkedBinary k .shl lhs rhs = .ok shifted ∧
          checkedBinary k .shr shifted rhs = .ok lhs) ↔
        k.contains (lhs * 2 ^ rhs.toNat) = true)) := by
  have htakes : ∀ op : CheckedOp, op.takesWord = true → op.Takes k lhs rhs :=
    fun op hop => (takes_of_word hop).2 ⟨hlhs, hrhs⟩
  have hwritable : Numeral.isWritable rhs = true := isWritable_of_word hrhs
  constructor
  -- Distances from the width on are refused in both directions.
  · intro op hop
    have htake : op.Takes k lhs rhs := by
      rcases hop with rfl | rfl
      · exact htakes .shl rfl
      · exact htakes .shr rfl
    have hexists := exists_shifted_iff hop hbits htake
    refine ⟨?_, ?_, ?_⟩
    · simp only [checkedBinary_eq_ok_iff hbits, htake, true_and]
      exact hexists
    · intro hle
      apply checkedBinary_of_not_yields hbits htake
      rw [← not_exists, hexists]
      omega
    · rw [exact_iff hbits, hexists]
      simp only [htake, hwritable, forall_const, and_true]
  · intro hlt
    have hshl := checkedBinary_shl hbits (htakes .shl rfl) hlt
    have hshr := checkedBinary_shr hbits (htakes .shr rfl) hlt
    have hwrap : ∀ result, k.contains result = true ∧
        result ≡ lhs * 2 ^ rhs.toNat [ZMOD 2 ^ k.bits] ↔ k.wrap (lhs * 2 ^ rhs.toNat) = result :=
      fun result => (NumericKind.wrap_eq_iff hbits).symm
    -- One goal for each promise on distances below the width.
    refine ⟨?_, ?_, ?_, ?_, ?_, ?_, ?_⟩
    · simp only [hwrap]
      exact existsUnique_eq'
    · intro result
      rw [hshl, hwrap, Except.ok.injEq]
    · rw [hshl, NumericKind.wrap_mul_two_pow hbits]
    · rw [floor_div_two_pow]
      exact NumericKind.contains_div_two_pow hbits hlhs rhs.toNat
    · rw [hshr, floor_div_two_pow]
    · rw [hshr, ← NumericKind.div_two_pow_eq_read hbits hlhs]
    -- The way back starts from a value of the kind as well.
    · have hback : CheckedOp.shr.Takes k (k.wrap (lhs * 2 ^ rhs.toNat)) rhs :=
        (takes_of_word rfl).2 ⟨NumericKind.contains_wrap hbits _, hrhs⟩
      have hplaces : rhs.toNat ≤ k.bits := by omega
      rw [← NumericKind.wrap_div_two_pow_eq_iff hbits lhs hplaces, hshl]
      simp only [Except.ok.injEq, exists_eq_left', checkedBinary_shr hbits hback hlt]

/-- A bit that is shifted into the sign of a byte does not come back. -/
theorem byte_shifts :
    (1 ≤ byteKind.bits ∧ byteKind.contains 65 = true ∧ 0 ≤ (1 : Int) ∧ (1 : Int) < 2 ^ 32) ∧
    checkedBinary byteKind .shl 65 1 = .ok (-126) ∧
    checkedBinary byteKind .shr 65 1 = .ok 32 ∧
    ¬ ∃ shifted, checkedBinary byteKind .shl 65 1 = .ok shifted ∧
      checkedBinary byteKind .shr shifted 1 = .ok 65 := by
  have hbits : 1 ≤ byteKind.bits := by decide
  have hlhs : byteKind.contains 65 = true := by decide
  obtain ⟨-, hshifts⟩ := @shifts_fixed_width byteKind 65 1 hbits hlhs (by decide)
  obtain ⟨-, hshl, -, -, hshr, -, hback⟩ := hshifts (by decide)
  refine ⟨⟨hbits, hlhs, by decide, by decide⟩, (hshl (-126)).2 ⟨by decide, by decide⟩, ?_, ?_⟩
  · rw [hshr, floor_div_two_pow]
    rfl
  · rw [hback]
    decide

/-- A shift by too many places is not reported as an overflow where the value is
    too long to be written. -/
theorem wide_shift_unreported :
    CheckedOp.shl.Takes wideKind wideKind.maxValue wideKind.bits ∧
    checkedBinary wideKind .shl wideKind.maxValue wideKind.bits = .error .unwritable ∧
    ¬ CheckedOp.shl.Exact wideKind wideKind.maxValue wideKind.bits := by
  have hbits : 1 ≤ wideKind.bits := by decide
  have htakes : CheckedOp.shl.Takes wideKind wideKind.maxValue wideKind.bits :=
    ⟨by decide +kernel, by decide⟩
  -- A shift by the whole width is one place too far.
  have hnone : ∀ result,
      ¬ CheckedOp.shl.Yields wideKind wideKind.maxValue wideKind.bits result := by
    rw [← not_exists, exists_shifted_iff (.inl rfl) hbits htakes]
    exact lt_irrefl _
  exact ⟨htakes, unreported_of_not_yields hbits htakes hnone isWritable_maxValue_wideKind⟩

end CheckedOp
end CalibratedCosts
