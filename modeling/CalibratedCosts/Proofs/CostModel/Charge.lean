import Mathlib
import CalibratedCosts.CostModel.Charge

/-! # Charges as clamped affine costs

    Saturating twice, once for the product and once for the sum, is the same
    as clamping the exact affine cost once.  The laws of charges are read off
    this closed form.

    * **Range**: a charge is a 64-bit integer.
    * **Monotonicity**: a charge grows with the size and with both parameters.
    * **Splitting**: an input costs at most as much as its parts.
-/

namespace CalibratedCosts

/-! ## Section 1: saturating arithmetic -/

/-- A term that has been clamped before does not change a saturating sum. -/
theorem saturatingAdd_clamp_left (a : Int) {b : Int} (hb : 0 ≤ b) :
    saturatingAdd (min a u64Max) b = min (a + b) u64Max := by
  unfold saturatingAdd
  omega

theorem saturatingAdd_clamp_right {a : Int} (ha : 0 ≤ a) (b : Int) :
    saturatingAdd a (min b u64Max) = min (a + b) u64Max := by
  unfold saturatingAdd
  omega

theorem saturatingAdd_le (a b : Int) : saturatingAdd a b ≤ a + b := min_le_left _ _

/-- Two terms may be added in either order, whether or not the sum is clamped on
    the way. -/
theorem saturatingAdd_right_comm (a : Int) {b c : Int} (hb : 0 ≤ b) (hc : 0 ≤ c) :
    saturatingAdd (saturatingAdd a b) c = saturatingAdd (saturatingAdd a c) b := by
  unfold saturatingAdd
  omega

/-! ## Section 2: evaluation -/

namespace QuantizedModel

/-- The charge is the exact affine cost, clamped once. -/
theorem charge_eq (m : QuantizedModel) (size : Nat) :
    m.charge size = min (m.constParam + m.linParam * size : Int) u64Max := by
  unfold charge
  by_cases hsize : size = 0
  -- The constant alone is never clamped, as it has 64 bits.
  · have hconst : (m.constParam : Int) ≤ u64Max := by exact_mod_cast m.const_le
    rw [if_pos hsize, hsize]
    simp [hconst]
  · rw [if_neg hsize]
    exact saturatingAdd_clamp_right (Int.natCast_nonneg _) _

theorem charge_nonneg (m : QuantizedModel) (size : Nat) : 0 ≤ m.charge size := by
  rw [charge_eq]
  positivity

theorem evaluate_of_mem {size : Int} (m : QuantizedModel) (h : 0 ≤ size ∧ size ≤ u64Max) :
    m.evaluate size = .ok (m.charge size.toNat) := if_pos h

/-- A size that is charged for is a 64-bit one, and the charge is that of the
    model. -/
theorem evaluate_eq_ok {m : QuantizedModel} {size cost : Int} (h : m.evaluate size = .ok cost) :
    (0 ≤ size ∧ size ≤ u64Max) ∧ cost = m.charge size.toNat := by
  unfold evaluate at h
  by_cases hsize : 0 ≤ size ∧ size ≤ u64Max
  · rw [if_pos hsize] at h
    exact ⟨hsize, (Except.ok.inj h).symm⟩
  · rw [if_neg hsize] at h
    cases h

/-- The exact affine cost, clamped once, for every 64-bit size and no other. -/
theorem evaluate_eq (m : QuantizedModel) (size : Int) :
    m.evaluate size =
      if 0 ≤ size ∧ size ≤ u64Max then .ok (min (m.constParam + m.linParam * size) u64Max)
      else .error ⟨size⟩ := by
  unfold evaluate
  by_cases hsize : 0 ≤ size ∧ size ≤ u64Max
  · have hcast : (size.toNat : Int) = size := Int.toNat_of_nonneg hsize.1
    rw [if_pos hsize, if_pos hsize, charge_eq, hcast]
  · rw [if_neg hsize, if_neg hsize]

/-- The charge is on the line of the parameters, within 64 bits. -/
theorem evaluate_line {m : QuantizedModel} {x : ℕ} (hx : x ≤ u64Max)
    (hcost : m.constParam + m.linParam * x ≤ u64Max) :
    m.evaluate x = .ok (m.constParam + m.linParam * x) := by
  rw [m.evaluate_of_mem ⟨Int.natCast_nonneg x, by exact_mod_cast hx⟩, m.charge_eq]
  exact congrArg Except.ok (min_eq_left (by exact_mod_cast hcost))

/-! ## Section 3: range, monotonicity and splitting -/

theorem charge_le (m : QuantizedModel) (size : Nat) : m.charge size ≤ u64Max := by
  rw [charge_eq]
  exact min_le_right _ _

/-- A charge does not fall when the size or a parameter grows. -/
theorem charge_mono {m m' : QuantizedModel} (hconst : m.constParam ≤ m'.constParam)
    (hlin : m.linParam ≤ m'.linParam) {size size' : Nat} (hsize : size ≤ size') :
    m.charge size ≤ m'.charge size' := by
  have hproduct : m.linParam * size ≤ m'.linParam * size' := Nat.mul_le_mul hlin hsize
  have hcost : (m.constParam + m.linParam * size : Int) ≤ m'.constParam + m'.linParam * size' := by
    exact_mod_cast Nat.add_le_add hconst hproduct
  rw [charge_eq, charge_eq]
  -- Clamping keeps the order of the exact costs.
  omega

/-- Splitting an input never lowers the bill: both parts pay the constant, and a
    part that is clamped alone costs as much as anything can. -/
theorem charge_add_le (m : QuantizedModel) (a b : Nat) :
    m.charge (a + b) ≤ saturatingAdd (m.charge a) (m.charge b) := by
  have hfirst : 0 ≤ (m.linParam * a : Int) := by positivity
  have hsecond : 0 ≤ (m.linParam * b : Int) := by positivity
  have hsplit : (m.linParam * (a + b : Nat) : Int) = m.linParam * a + m.linParam * b := by
    push_cast
    ring
  rw [charge_eq, charge_eq, charge_eq, hsplit]
  unfold saturatingAdd
  omega

/-- Evaluation is the clamped affine function: it refuses exactly the sizes that
    are not of 64 bits, it stays in the range of 64 bits, it is monotone in the
    size and in both parameters, and splitting an input never lowers the
    bill. -/
theorem evaluate_clamped_affine (m : QuantizedModel) :
    (∀ size : Int, m.evaluate size =
      if 0 ≤ size ∧ size ≤ u64Max then .ok (min (m.constParam + m.linParam * size) u64Max)
      else .error ⟨size⟩) ∧
    (∀ size cost, m.evaluate size = .ok cost → 0 ≤ cost ∧ cost ≤ u64Max) ∧
    (∀ (m' : QuantizedModel) (size size' cost cost' : Int),
      m.constParam ≤ m'.constParam → m.linParam ≤ m'.linParam → size ≤ size' →
      m.evaluate size = .ok cost → m'.evaluate size' = .ok cost' → cost ≤ cost') ∧
    ∀ a b : Int, 0 ≤ a → 0 ≤ b → a + b ≤ u64Max →
      ∃ whole first second, m.evaluate (a + b) = .ok whole ∧ m.evaluate a = .ok first ∧
        m.evaluate b = .ok second ∧ whole ≤ saturatingAdd first second := by
  refine ⟨m.evaluate_eq, ?_, ?_, ?_⟩
  · intro size cost h
    obtain ⟨-, rfl⟩ := evaluate_eq_ok h
    exact ⟨m.charge_nonneg _, m.charge_le _⟩
  -- Two accepted sizes, so both costs are the clamped line, which grows in each
  -- argument.
  · intro m' size size' cost cost' hconst hlin hsize h h'
    obtain ⟨-, rfl⟩ := evaluate_eq_ok h
    obtain ⟨-, rfl⟩ := evaluate_eq_ok h'
    have hnat : size.toNat ≤ size'.toNat := by omega
    exact charge_mono hconst hlin hnat
  -- The constant is paid twice by the parts and once by the whole.
  · intro a b ha hb hab
    have hsum : (a + b).toNat = a.toNat + b.toNat := by omega
    refine ⟨m.charge (a + b).toNat, m.charge a.toNat, m.charge b.toNat,
      evaluate_of_mem m (by omega), evaluate_of_mem m (by omega), evaluate_of_mem m (by omega), ?_⟩
    rw [hsum]
    exact m.charge_add_le a.toNat b.toNat

end QuantizedModel
end CalibratedCosts
