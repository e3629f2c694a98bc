import Mathlib
import CalibratedCosts.Proofs.Arithmetic.Exactness

/-! # Powers

    A power whose exponent is above the number of bits is not computed unless the
    base is zero or a unit.  The answer is the one that computing it would give:
    such a power is out of range, whatever the sign of the base and however many
    factors there are.
-/

namespace CalibratedCosts

variable {k : NumericKind} {op : CheckedOp} {lhs rhs : Int}

/-- Applies an operation to two operands of a kind.  Every result is computed
    before it is checked. -/
def plainBinary (k : NumericKind) (op : CheckedOp) (lhs rhs : Int) : Except ArithmeticError Int :=
  if !k.contains lhs then .error (.invalidOperand .lhs lhs k.name)
  else if !(op.rhsKind k).contains rhs then .error (.invalidOperand .rhs rhs (op.rhsKind k).name)
  else
    match op.apply k lhs rhs with
    | none => .error (op.overflow k lhs rhs)
    | some result => if k.contains result then .ok result else .error (op.overflow k lhs rhs)

theorem plainBinary_of_not_yields (hbits : 1 ≤ k.bits) (h : op.Takes k lhs rhs)
    (hnone : ∀ result, ¬ op.Yields k lhs rhs result) :
    plainBinary k op lhs rhs = .error (op.overflow k lhs rhs) := by
  simp only [plainBinary, h.1, h.2, Bool.not_true, Bool.false_eq_true, if_false]
  cases happly : op.apply k lhs rhs with
  | none => rfl
  | some result =>
    have hout : ¬ k.contains result = true :=
      fun hcontains => hnone result ((CheckedOp.yields_iff hbits h).2 ⟨happly, hcontains⟩)
    exact if_neg hout

/-- Leaving certain overflows uncomputed changes no answer. -/
theorem checkedBinary_eq_plainBinary (hbits : 1 ≤ k.bits) (op : CheckedOp) (lhs rhs : Int) :
    checkedBinary k op lhs rhs = plainBinary k op lhs rhs := by
  by_cases h : op.Takes k lhs rhs ∧ op.certainOverflow k lhs rhs = true
  -- Both ways end in an overflow.
  · obtain ⟨htakes, hcertain⟩ := h
    have hnone : ∀ result, ¬ op.Yields k lhs rhs result :=
      fun _ => CheckedOp.not_yields_of_certainOverflow hbits hcertain
    rw [CheckedOp.checkedBinary_of_not_yields hbits htakes hnone,
      plainBinary_of_not_yields hbits htakes hnone]
  -- Otherwise the shortcut is not taken, and the computation is the same.
  · simp only [checkedBinary, plainBinary]
    split
    · rfl
    · split
      · rfl
      · rename_i hlhs hrhs
        have hnot : ¬ op.certainOverflow k lhs rhs = true :=
          fun hcertain => h ⟨⟨by simpa using hlhs, by simpa using hrhs⟩, hcertain⟩
        exact if_neg hnot

namespace CheckedOp

/-- The power is the only result that there can be. -/
theorem exists_power_iff :
    (∃ result, CheckedOp.pow.Yields k lhs rhs result) ↔ k.contains (lhs ^ rhs.toNat) = true := by
  constructor
  · rintro ⟨result, hideal, hcontains⟩
    have hpow : result = lhs ^ rhs.toNat := hideal
    rw [← hpow]
    exact hcontains
  · intro hcontains
    exact ⟨lhs ^ rhs.toNat, rfl, hcontains⟩

/-- The shortcut for powers never changes an answer: a power is given exactly if
    it is a value of the kind, and any other is an overflow, which is the right
    answer unless the base is too long to be written.  What the shortcut leaves
    uncomputed is out of range. -/
theorem power_shortcut_harmless (hbits : 1 ≤ k.bits) (hlhs : k.contains lhs = true)
    (hrhs : 0 ≤ rhs ∧ rhs < 2 ^ 32) :
    checkedBinary k .pow lhs rhs = plainBinary k .pow lhs rhs ∧
    (∀ result, checkedBinary k .pow lhs rhs = .ok result ↔
      result = lhs ^ rhs.toNat ∧ k.contains (lhs ^ rhs.toNat) = true) ∧
    (k.contains (lhs ^ rhs.toNat) = false →
      checkedBinary k .pow lhs rhs = .error (CheckedOp.pow.overflow k lhs rhs)) ∧
    (CheckedOp.pow.Exact k lhs rhs ↔
      k.contains (lhs ^ rhs.toNat) = true ∨ Numeral.isWritable lhs = true) ∧
    (CheckedOp.pow.certainOverflow k lhs rhs = true ↔ (k.bits : Int) < rhs ∧ 1 < lhs.natAbs) ∧
    (CheckedOp.pow.certainOverflow k lhs rhs = true → k.contains (lhs ^ rhs.toNat) = false) := by
  have htakes : CheckedOp.pow.Takes k lhs rhs := (takes_of_word rfl).2 ⟨hlhs, hrhs⟩
  have hwritable : Numeral.isWritable rhs = true := isWritable_of_word hrhs
  refine ⟨checkedBinary_eq_plainBinary hbits .pow lhs rhs, ?_, ?_, ?_, ?_, ?_⟩
  · intro result
    rw [checkedBinary_eq_ok_iff hbits]
    -- A result is the power, whenever the power is a value of the kind.
    constructor
    · rintro ⟨-, hideal, hcontains⟩
      have hpow : result = lhs ^ rhs.toNat := hideal
      exact ⟨hpow, hpow ▸ hcontains⟩
    · rintro ⟨hpow, hcontains⟩
      exact ⟨htakes, hpow, hpow ▸ hcontains⟩
  -- A power that is none leaves nothing to be yielded.
  · intro hout
    apply checkedBinary_of_not_yields hbits htakes
    rw [← not_exists, exists_power_iff, hout]
    exact Bool.false_ne_true
  · rw [exact_iff hbits, exists_power_iff]
    simp only [htakes, hwritable, forall_const, and_true]
  · simp [certainOverflow_eq_true_iff]
  -- From two on a base doubles with each factor and leaves the kind.
  · intro hcertain
    obtain ⟨-, hexponent, hbase⟩ := certainOverflow_eq_true_iff.1 hcertain
    exact not_contains_pow hbits hbase (by omega)

/-- The smallest byte is a power of minus two, and with two factors more the
    shortcut is taken. -/
theorem byte_powers :
    ((1 ≤ byteKind.bits ∧ byteKind.contains (-2) = true) ∧
      (0 ≤ (7 : Int) ∧ (7 : Int) < 2 ^ 32) ∧ 0 ≤ (9 : Int) ∧ (9 : Int) < 2 ^ 32) ∧
    checkedBinary byteKind .pow (-2) 7 = .ok (-128) ∧
    CheckedOp.pow.certainOverflow byteKind (-2) 9 = true ∧
    checkedBinary byteKind .pow (-2) 9 = .error (.overflow "i8" "pow" (-2) 9) := by
  have hbits : 1 ≤ byteKind.bits := by decide
  have hbase : byteKind.contains (-2) = true := by decide
  obtain ⟨-, hsmall, -⟩ := @power_shortcut_harmless byteKind (-2) 7 hbits hbase (by decide)
  obtain ⟨-, -, hlarge, -, hcertain, -⟩ :=
    @power_shortcut_harmless byteKind (-2) 9 hbits hbase (by decide)
  -- The first power is the smallest value, the second is beyond it.
  refine ⟨⟨⟨hbits, hbase⟩, by decide, by decide⟩, ?_, hcertain.2 (by decide), ?_⟩
  · exact (hsmall (-128)).2 ⟨by decide, by decide⟩
  · have hnarrow : 8 ≤ writableBits := by decide
    rw [hlarge (by decide), overflow_of_isWritable (isWritable_of_natAbs_le hnarrow (by decide))
      (isWritable_of_natAbs_le hnarrow (by decide))]
    rfl

/-- A power that is certain to overflow is not reported as an overflow where the
    base is too long to be written. -/
theorem wide_power_unreported :
    CheckedOp.pow.Takes wideKind wideKind.maxValue 14286 ∧
    CheckedOp.pow.certainOverflow wideKind wideKind.maxValue 14286 = true ∧
    checkedBinary wideKind .pow wideKind.maxValue 14286 = .error .unwritable ∧
    ¬ CheckedOp.pow.Exact wideKind wideKind.maxValue 14286 := by
  have hbits : 1 ≤ wideKind.bits := by decide
  have htakes : CheckedOp.pow.Takes wideKind wideKind.maxValue 14286 :=
    ⟨by decide +kernel, by decide⟩
  have hcertain : CheckedOp.pow.certainOverflow wideKind wideKind.maxValue 14286 = true := by
    decide +kernel
  have hnone : ∀ result, ¬ CheckedOp.pow.Yields wideKind wideKind.maxValue 14286 result :=
    fun _ => not_yields_of_certainOverflow hbits hcertain
  exact ⟨htakes, hcertain,
    unreported_of_not_yields hbits htakes hnone isWritable_maxValue_wideKind⟩

end CheckedOp
end CalibratedCosts
