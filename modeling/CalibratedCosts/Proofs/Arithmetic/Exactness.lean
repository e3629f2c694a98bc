import Mathlib
import CalibratedCosts.Proofs.Arithmetic.Division

/-! # Exact results or refusals

    A checked operation takes the values of its kinds and gives its ideal
    result if that is a value of the kind.  Any other result is an overflow.

    * **Ideal results**: what each operation is without regard to how it is
      computed.
    * **Outcomes**: every answer is a refused operand, the ideal result or an
      overflow, and which one it is depends on the operands and the ideal result
      alone.
    * **Digit limit**: an overflow is reported with both operands.  It is exact
      in this too, unless one of them is too long to be written.
-/

namespace CalibratedCosts

variable {k : NumericKind} {op : CheckedOp} {lhs rhs result : Int}

namespace CheckedOp

/-! ## Section 1: ideal results -/

/-- The result that an operation ought to have.  Only a shift depends on the
    kind. -/
def Ideal (op : CheckedOp) (k : NumericKind) (lhs rhs result : Int) : Prop :=
  match op with
  | .add => result = lhs + rhs
  | .sub => result = lhs - rhs
  | .mul => result = lhs * rhs
  | .div => ∃ remainder, Truncates lhs rhs result remainder
  | .rem => ∃ quotient, Truncates lhs rhs quotient result
  | .pow => result = lhs ^ rhs.toNat
  | .shl => rhs < k.bits ∧ k.contains result = true ∧
      result ≡ lhs * 2 ^ rhs.toNat [ZMOD 2 ^ k.bits]
  | .shr => rhs < k.bits ∧ result = ⌊(lhs : ℚ) / 2 ^ rhs.toNat⌋

/-- Both operands are values of their kinds. -/
def Takes (op : CheckedOp) (k : NumericKind) (lhs rhs : Int) : Prop :=
  k.contains lhs = true ∧ (op.rhsKind k).contains rhs = true

/-- The ideal result is a value of the kind. -/
def Yields (op : CheckedOp) (k : NumericKind) (lhs rhs result : Int) : Prop :=
  op.Ideal k lhs rhs result ∧ k.contains result = true

theorem takes_of_kind (hop : op.takesWord = false) :
    op.Takes k lhs rhs ↔ k.contains lhs = true ∧ k.contains rhs = true := by
  unfold Takes rhsKind
  rw [hop, if_neg Bool.false_ne_true]

theorem takes_of_word (hop : op.takesWord = true) :
    op.Takes k lhs rhs ↔ k.contains lhs = true ∧ 0 ≤ rhs ∧ rhs < 2 ^ 32 := by
  unfold Takes rhsKind
  rw [hop, if_pos rfl]
  apply and_congr_right
  intro _
  rw [NumericKind.contains_iff]
  show 0 ≤ rhs ∧ rhs ≤ 2 ^ 32 - 1 ↔ _
  rw [Int.le_sub_one_iff]

theorem floor_div_two_pow (n : Int) (places : ℕ) :
    ⌊(n : ℚ) / 2 ^ places⌋ = n / 2 ^ places := by
  exact_mod_cast Rat.floor_intCast_div_natCast n (2 ^ places)

/-- The ideal result is the one that is computed. -/
theorem ideal_iff (hbits : 1 ≤ k.bits) (h : op.Takes k lhs rhs) :
    op.Ideal k lhs rhs result ↔ op.apply k lhs rhs = some result := by
  cases op with
  -- Sums, differences and products are always there.
  | add => exact eq_comm.trans (Option.some_inj (a := lhs + rhs)).symm
  | sub => exact eq_comm.trans (Option.some_inj (a := lhs - rhs)).symm
  | mul => exact eq_comm.trans (Option.some_inj (a := lhs * rhs)).symm
  | div => exact truncatedQuotient_eq_some_iff.symm
  | rem => exact truncatedRemainder_eq_some_iff.symm
  -- Behind the second operand's check the exponent or distance is no longer
  -- negative.
  | pow =>
    obtain ⟨-, hnonneg, -⟩ := (takes_of_word rfl).1 h
    show result = lhs ^ rhs.toNat ↔ (if rhs < 0 then none else some (lhs ^ rhs.toNat)) = some result
    rw [if_neg (by omega), Option.some_inj]
    exact eq_comm
  | shl =>
    obtain ⟨-, hnonneg, -⟩ := (takes_of_word rfl).1 h
    show (rhs < k.bits ∧ k.contains result = true ∧ _) ↔
      (if 0 ≤ rhs ∧ rhs < k.bits then some (k.wrap (lhs * 2 ^ rhs.toNat)) else none) = some result
    rw [← NumericKind.wrap_eq_iff hbits]
    by_cases hlt : rhs < k.bits
    · simp [hnonneg, hlt]
    · simp [hlt]
  -- A shift to the right is the floor, written as a quotient of integers.
  | shr =>
    obtain ⟨-, hnonneg, -⟩ := (takes_of_word rfl).1 h
    show (rhs < k.bits ∧ result = _) ↔
      (if 0 ≤ rhs ∧ rhs < k.bits then some (lhs / 2 ^ rhs.toNat) else none) = some result
    rw [floor_div_two_pow]
    by_cases hlt : rhs < k.bits
    · simp [hnonneg, hlt, eq_comm]
    · simp [hlt]

theorem yields_iff (hbits : 1 ≤ k.bits) (h : op.Takes k lhs rhs) :
    op.Yields k lhs rhs result ↔
      op.apply k lhs rhs = some result ∧ k.contains result = true := by
  unfold Yields
  rw [ideal_iff hbits h]

theorem yields_unique {result' : Int} (hbits : 1 ≤ k.bits) (h : op.Takes k lhs rhs)
    (hresult : op.Yields k lhs rhs result) (hresult' : op.Yields k lhs rhs result') :
    result = result' := by
  have hsome := ((yields_iff hbits h).1 hresult).1
  rw [((yields_iff hbits h).1 hresult').1] at hsome
  exact (Option.some.inj hsome).symm

/-! ## Section 2: powers that are not computed -/

/-- A base that is no unit doubles with each factor, so that a power with more
    factors than the kind has bits is out of range. -/
theorem not_contains_pow (hbits : 1 ≤ k.bits) (hbase : 1 < lhs.natAbs) {n : ℕ} (hn : k.bits < n) :
    k.contains (lhs ^ n) = false := by
  rw [← Bool.not_eq_true]
  intro hcontains
  have hle : (lhs ^ n).natAbs ≤ 2 ^ k.bits := NumericKind.natAbs_le_of_contains hbits hcontains
  have hlt : 2 ^ k.bits < (lhs ^ n).natAbs := by
    calc 2 ^ k.bits < 2 ^ n := Nat.pow_lt_pow_right (by decide) hn
      _ ≤ lhs.natAbs ^ n := Nat.pow_le_pow_left hbase n
      _ = (lhs ^ n).natAbs := (Int.natAbs_pow lhs n).symm
  omega

theorem certainOverflow_eq_true_iff :
    op.certainOverflow k lhs rhs = true ↔ op = .pow ∧ (k.bits : Int) < rhs ∧ 1 < lhs.natAbs := by
  simp [certainOverflow, and_assoc]

/-- What is certain to overflow has no result in the kind. -/
theorem not_yields_of_certainOverflow (hbits : 1 ≤ k.bits)
    (h : op.certainOverflow k lhs rhs = true) : ¬ op.Yields k lhs rhs result := by
  obtain ⟨rfl, hexponent, hbase⟩ := certainOverflow_eq_true_iff.1 h
  rintro ⟨hideal, hcontains⟩
  have hpow : result = lhs ^ rhs.toNat := hideal
  rw [hpow, not_contains_pow hbits hbase (by omega)] at hcontains
  cases hcontains

/-! ## Section 3: outcomes -/

/-- What an operation comes to: an operand is refused, the first one before the
    second, or there is a result, or there is an overflow. -/
inductive Comes (op : CheckedOp) (k : NumericKind) (lhs rhs : Int) :
    Except ArithmeticError Int → Prop
  | refusedLeft (h : k.contains lhs = false) :
      Comes op k lhs rhs (.error (.invalidOperand .lhs lhs k.name))
  | refusedRight (hlhs : k.contains lhs = true) (h : (op.rhsKind k).contains rhs = false) :
      Comes op k lhs rhs (.error (.invalidOperand .rhs rhs (op.rhsKind k).name))
  | result (h : op.Takes k lhs rhs) {result : Int} (hresult : op.Yields k lhs rhs result) :
      Comes op k lhs rhs (.ok result)
  | overflow (h : op.Takes k lhs rhs) (hnone : ∀ result, ¬ op.Yields k lhs rhs result) :
      Comes op k lhs rhs (.error (op.overflow k lhs rhs))

theorem comes_checkedBinary (hbits : 1 ≤ k.bits) (op : CheckedOp) (lhs rhs : Int) :
    op.Comes k lhs rhs (checkedBinary k op lhs rhs) := by
  simp only [checkedBinary]
  -- The cases are those of the checks, in their order.
  cases hlhs : k.contains lhs with
  | false => exact .refusedLeft hlhs
  | true =>
    cases hrhs : (op.rhsKind k).contains rhs with
    | false => exact .refusedRight hlhs hrhs
    | true =>
      have htakes : op.Takes k lhs rhs := ⟨hlhs, hrhs⟩
      cases hcertain : op.certainOverflow k lhs rhs with
      | true => exact .overflow htakes fun _ => not_yields_of_certainOverflow hbits hcertain
      | false =>
        cases happly : op.apply k lhs rhs with
        | none =>
          refine .overflow htakes ?_
          intro result hyields
          simp [yields_iff hbits htakes, happly] at hyields
        | some result =>
          show Comes op k lhs rhs (if k.contains result = true then _ else _)
          cases hcontains : k.contains result with
          | true => exact .result htakes ((yields_iff hbits htakes).2 ⟨happly, hcontains⟩)
          | false =>
            refine .overflow htakes ?_
            intro result' hyields
            simp only [yields_iff hbits htakes, happly, Option.some.injEq] at hyields
            rw [← hyields.1, hcontains] at hyields
            exact Bool.false_ne_true hyields.2

/-- Values of the kinds have a result or overflow. -/
theorem checkedBinary_cases (hbits : 1 ≤ k.bits) (h : op.Takes k lhs rhs) :
    (∃ result, checkedBinary k op lhs rhs = .ok result ∧ op.Yields k lhs rhs result) ∨
      (checkedBinary k op lhs rhs = .error (op.overflow k lhs rhs) ∧
        ∀ result, ¬ op.Yields k lhs rhs result) := by
  have hcomes := comes_checkedBinary hbits op lhs rhs
  generalize checkedBinary k op lhs rhs = outcome at hcomes ⊢
  cases hcomes with
  | refusedLeft hlhs => exact absurd h.1 (by simp [hlhs])
  | refusedRight _ hrhs => exact absurd h.2 (by simp [hrhs])
  | result _ hyields => exact .inl ⟨_, rfl, hyields⟩
  | overflow _ hnone => exact .inr ⟨rfl, hnone⟩

theorem checkedBinary_eq_ok_iff (hbits : 1 ≤ k.bits) :
    checkedBinary k op lhs rhs = .ok result ↔
      op.Takes k lhs rhs ∧ op.Yields k lhs rhs result := by
  constructor
  -- What a result comes from is one of the ways in which the call can end.
  · intro h
    have hcomes := comes_checkedBinary hbits op lhs rhs
    rw [h] at hcomes
    cases hcomes with
    | result htakes hyields => exact ⟨htakes, hyields⟩
  -- Conversely the call has an ending, and no other result would be right.
  · rintro ⟨htakes, hyields⟩
    rcases checkedBinary_cases hbits htakes with ⟨result', hok, hyields'⟩ | ⟨-, hnone⟩
    · rw [hok, yields_unique hbits htakes hyields hyields']
    · exact absurd hyields (hnone result)

/-- Values without a result in the kind overflow. -/
theorem checkedBinary_of_not_yields (hbits : 1 ≤ k.bits) (h : op.Takes k lhs rhs)
    (hnone : ∀ result, ¬ op.Yields k lhs rhs result) :
    checkedBinary k op lhs rhs = .error (op.overflow k lhs rhs) := by
  rcases checkedBinary_cases hbits h with ⟨result, -, hyields⟩ | ⟨herror, -⟩
  · exact absurd hyields (hnone result)
  · exact herror

end CheckedOp

/-! ## Section 4: exactness -/

/-- The error says that a result is missing or out of range. -/
def ArithmeticError.IsOverflow : ArithmeticError → Prop
  | .overflow .. => True
  | _ => False

namespace CheckedOp

/-- The operation is exact or refuses: the operands are refused if they are not
    of their kinds, and otherwise the ideal result is given if it is a value of
    the kind, and an overflow is reported if there is none. -/
structure Exact (op : CheckedOp) (k : NumericKind) (lhs rhs : Int) : Prop where
  refuses : (∃ e, checkedBinary k op lhs rhs = .error e ∧ ¬ e.IsOverflow) ↔ ¬ op.Takes k lhs rhs
  gives : op.Takes k lhs rhs → ∀ result,
    checkedBinary k op lhs rhs = .ok result ↔ op.Yields k lhs rhs result
  overflows : op.Takes k lhs rhs →
    (checkedBinary k op lhs rhs = .error (.overflow k.name op.name lhs rhs) ↔
      ∀ result, ¬ op.Yields k lhs rhs result)

theorem overflow_of_isWritable (hlhs : Numeral.isWritable lhs = true)
    (hrhs : Numeral.isWritable rhs = true) :
    op.overflow k lhs rhs = .overflow k.name op.name lhs rhs := by
  simp [overflow, hlhs, hrhs]

theorem overflow_of_not_isWritable
    (h : ¬ (Numeral.isWritable lhs = true ∧ Numeral.isWritable rhs = true)) :
    op.overflow k lhs rhs = .unwritable := by
  simp only [overflow, Bool.and_eq_true]
  exact if_neg h

/-- Any other operands are refused. -/
theorem exists_refusal_of_not_takes (hbits : 1 ≤ k.bits) (h : ¬ op.Takes k lhs rhs) :
    ∃ e, checkedBinary k op lhs rhs = .error e ∧ ¬ e.IsOverflow := by
  have hcomes := comes_checkedBinary hbits op lhs rhs
  generalize checkedBinary k op lhs rhs = outcome at hcomes ⊢
  cases hcomes with
  | refusedLeft _ => exact ⟨_, rfl, not_false⟩
  | refusedRight _ _ => exact ⟨_, rfl, not_false⟩
  | result htakes _ => exact absurd htakes h
  | overflow htakes _ => exact absurd htakes h

/-- An operation is exact if the overflow that is due can be written. -/
theorem exact_of_overflow (hbits : 1 ≤ k.bits)
    (h : op.Takes k lhs rhs → (∀ result, ¬ op.Yields k lhs rhs result) →
      op.overflow k lhs rhs = .overflow k.name op.name lhs rhs) : op.Exact k lhs rhs := by
  constructor
  -- A refusal that is none of the three promised ones could only be an overflow
  -- that has no report.
  · constructor
    · rintro ⟨e, he, hclass⟩ htakes
      rcases checkedBinary_cases hbits htakes with ⟨result, hok, -⟩ | ⟨herror, hnone⟩
      · rw [hok] at he
        cases he
      · rw [herror, h htakes hnone] at he
        rw [← Except.error.inj he] at hclass
        exact hclass trivial
    · exact exists_refusal_of_not_takes hbits
  · intro htakes result
    rw [checkedBinary_eq_ok_iff hbits]
    exact and_iff_right htakes
  -- An overflow is reported exactly if nothing is yielded.
  · intro htakes
    constructor
    · intro herror result hyields
      rw [(checkedBinary_eq_ok_iff hbits).2 ⟨htakes, hyields⟩] at herror
      cases herror
    · intro hnone
      rw [checkedBinary_of_not_yields hbits htakes hnone, h htakes hnone]

/-- An operation is exact, except where it ought to report an overflow and cannot
    write one of the operands. -/
theorem exact_iff (hbits : 1 ≤ k.bits) :
    op.Exact k lhs rhs ↔
      (op.Takes k lhs rhs → (∃ result, op.Yields k lhs rhs result) ∨
        Numeral.isWritable lhs = true ∧ Numeral.isWritable rhs = true) := by
  constructor
  · intro hexact htakes
    by_contra hneither
    rw [not_or, not_exists] at hneither
    -- The overflow that is due is not the error that is raised.
    have hdue := (hexact.overflows htakes).2 hneither.1
    rw [checkedBinary_of_not_yields hbits htakes hneither.1,
      overflow_of_not_isWritable hneither.2] at hdue
    cases hdue
  · intro h
    apply exact_of_overflow hbits
    intro htakes hnone
    rcases h htakes with ⟨result, hyields⟩ | ⟨hlhs, hrhs⟩
    · exact absurd hyields (hnone result)
    · exact overflow_of_isWritable hlhs hrhs

/-- An overflow with an operand that is too long is not reported as one. -/
theorem unreported_of_not_yields (hbits : 1 ≤ k.bits) (htakes : op.Takes k lhs rhs)
    (hnone : ∀ result, ¬ op.Yields k lhs rhs result) (hlong : Numeral.isWritable lhs = false) :
    checkedBinary k op lhs rhs = .error .unwritable ∧ ¬ op.Exact k lhs rhs := by
  have hnot : ¬ (Numeral.isWritable lhs = true ∧ Numeral.isWritable rhs = true) := by
    simp [hlong]
  constructor
  · rw [checkedBinary_of_not_yields hbits htakes hnone, overflow_of_not_isWritable hnot]
  · intro hexact
    rcases (exact_iff hbits).1 hexact htakes with ⟨result, hyields⟩ | hwritable
    · exact hnone result hyields
    · exact hnot hwritable

/-- The largest width of which every value is within the digit limit. -/
def writableBits : ℕ := 14284

theorem two_pow_writableBits_lt : 2 ^ writableBits < Nat.pow 10 Numeral.digitLimit := by
  decide +kernel

theorem isWritable_of_natAbs_le {n : Int} {bits : ℕ} (hle : bits ≤ writableBits)
    (h : n.natAbs ≤ 2 ^ bits) : Numeral.isWritable n = true := by
  have hwidth : 2 ^ bits ≤ 2 ^ writableBits := Nat.pow_le_pow_right (by decide) hle
  unfold Numeral.isWritable
  rw [decide_eq_true_iff]
  exact (h.trans hwidth).trans_lt two_pow_writableBits_lt

theorem isWritable_of_word {n : Int} (h : 0 ≤ n ∧ n < 2 ^ 32) : Numeral.isWritable n = true := by
  have hvalue : n.natAbs ≤ 2 ^ 32 := by omega
  exact isWritable_of_natAbs_le (by decide) hvalue

/-- In a kind that is not wider every operation is exact. -/
theorem exact_of_bits_le (hbits : 1 ≤ k.bits) (hle : k.bits ≤ writableBits) (op : CheckedOp)
    (lhs rhs : Int) : op.Exact k lhs rhs := by
  rw [exact_iff hbits]
  intro htakes
  right
  have hwritable : ∀ n, k.contains n = true → Numeral.isWritable n = true :=
    fun n hn => isWritable_of_natAbs_le hle (NumericKind.natAbs_le_of_contains hbits hn)
  refine ⟨hwritable lhs htakes.1, ?_⟩
  cases hop : op.takesWord with
  | false => exact hwritable rhs ((takes_of_kind hop).1 htakes).2
  | true => exact isWritable_of_word ((takes_of_word hop).1 htakes).2

/-! ## Section 5: sums, products and quotients -/

/-- Only a quotient by zero is missing, and only one other is out of range. -/
theorem exists_quotient_iff (hbits : 1 ≤ k.bits) (hlhs : k.contains lhs = true)
    (hrhs : k.contains rhs = true) :
    (∃ result, CheckedOp.div.Yields k lhs rhs result) ↔
      rhs ≠ 0 ∧ ¬ (k.signed = true ∧ lhs = k.minValue ∧ rhs = -1) := by
  constructor
  -- The only quotient there can be is the truncated one.
  · rintro ⟨quotient, ⟨remainder, htruncates⟩, hcontains⟩
    have hne := htruncates.ne_zero
    obtain ⟨rfl, -⟩ := htruncates.unique (truncates_tdiv lhs hne)
    exact ⟨hne, (NumericKind.contains_tdiv_iff hbits hlhs hrhs hne).1 hcontains⟩
  · rintro ⟨hne, hother⟩
    exact ⟨lhs.tdiv rhs, ⟨lhs.tmod rhs, truncates_tdiv lhs hne⟩,
      (NumericKind.contains_tdiv_iff hbits hlhs hrhs hne).2 hother⟩

theorem exists_remainder_iff (hbits : 1 ≤ k.bits) (hlhs : k.contains lhs = true) :
    (∃ result, CheckedOp.rem.Yields k lhs rhs result) ↔ rhs ≠ 0 := by
  constructor
  · rintro ⟨remainder, ⟨quotient, htruncates⟩, -⟩
    exact htruncates.ne_zero
  · intro hne
    exact ⟨lhs.tmod rhs, ⟨lhs.tdiv rhs, truncates_tdiv lhs hne⟩,
      NumericKind.contains_tmod hbits hlhs rhs⟩

/-- Sums, differences, products, quotients and remainders are exact or refused:
    every answer is a refused operand, the ideal result or an overflow, and it is
    the right one unless the overflow cannot be written.  Quotients and remainders
    are unique, remainders stay in the kind, and so do quotients but for the one
    of the smallest value by minus one. -/
theorem exact_or_refuses (hbits : 1 ≤ k.bits) (hop : op.takesWord = false) (lhs rhs : Int) :
    op.Comes k lhs rhs (checkedBinary k op lhs rhs) ∧
    (op.Exact k lhs rhs ↔
      (k.contains lhs = true ∧ k.contains rhs = true →
        (∃ result, op.Yields k lhs rhs result) ∨
          Numeral.isWritable lhs = true ∧ Numeral.isWritable rhs = true)) ∧
    (rhs ≠ 0 → ∃! division : Int × Int, Truncates lhs rhs division.1 division.2) ∧
    (rhs = 0 → ∀ quotient remainder, ¬ Truncates lhs rhs quotient remainder) ∧
    (k.contains lhs = true ∧ k.contains rhs = true →
      ((∃ result, checkedBinary k .rem lhs rhs = .ok result) ↔ rhs ≠ 0) ∧
      ((∃ result, checkedBinary k .div lhs rhs = .ok result) ↔
        rhs ≠ 0 ∧ ¬ (k.signed = true ∧ lhs = k.minValue ∧ rhs = -1))) := by
  refine ⟨comes_checkedBinary hbits op lhs rhs, ?_, ?_, ?_, ?_⟩
  · rw [exact_iff hbits, takes_of_kind hop]
  · intro hne
    refine ⟨(lhs.tdiv rhs, lhs.tmod rhs), truncates_tdiv lhs hne, ?_⟩
    intro division hdivision
    have hunique := hdivision.unique (truncates_tdiv lhs hne)
    exact Prod.ext hunique.1 hunique.2
  -- Division by zero has no result to speak of.
  · intro hzero quotient remainder htruncates
    exact htruncates.ne_zero hzero
  -- For values of the kind the general statement is about quotients and
  -- remainders alone.
  · intro hvalues
    have htakes : ∀ op : CheckedOp, op.takesWord = false → op.Takes k lhs rhs :=
      fun op hop => (takes_of_kind hop).2 hvalues
    simp only [checkedBinary_eq_ok_iff hbits, htakes .rem rfl, htakes .div rfl, true_and]
    exact ⟨exists_remainder_iff hbits hvalues.1, exists_quotient_iff hbits hvalues.1 hvalues.2⟩

def byteKind : NumericKind := ⟨"i8", 8, true⟩

/-- The smallest byte has a remainder by minus one, but no quotient. -/
theorem byte_division_exact :
    (1 ≤ byteKind.bits ∧ CheckedOp.div.takesWord = false) ∧
    CheckedOp.div.Exact byteKind (-128) (-1) ∧
    (∃ result, checkedBinary byteKind .rem (-128) (-1) = .ok result) ∧
    ¬ ∃ result, checkedBinary byteKind .div (-128) (-1) = .ok result := by
  have hbits : 1 ≤ byteKind.bits := by decide
  obtain ⟨-, hexact, -, -, hvalues⟩ :=
    @exact_or_refuses byteKind .div hbits rfl (-128) (-1)
  obtain ⟨hrem, hdiv⟩ := hvalues ⟨by decide, by decide⟩
  refine ⟨⟨hbits, rfl⟩, hexact.2 ?_, hrem.2 (by decide), ?_⟩
  -- Small operands are written, so that a quotient that does not fit is
  -- reported.
  · intro _
    right
    have hnarrow : 8 ≤ writableBits := by decide
    exact ⟨isWritable_of_natAbs_le hnarrow (by decide), isWritable_of_natAbs_le hnarrow (by decide)⟩
  · intro hquotient
    exact (hdiv.1 hquotient).2 ⟨rfl, rfl, rfl⟩

/-- The narrowest kind without a sign that has values beyond the digit limit. -/
def wideKind : NumericKind := ⟨"u14285", writableBits + 1, false⟩

theorem isWritable_maxValue_wideKind : Numeral.isWritable wideKind.maxValue = false := by
  decide +kernel

/-- A sum that is too large for the widest value is not reported as an
    overflow, since the overflow cannot be written. -/
theorem wide_sum_unreported :
    CheckedOp.add.Takes wideKind wideKind.maxValue 1 ∧
    checkedBinary wideKind .add wideKind.maxValue 1 = .error .unwritable ∧
    ¬ CheckedOp.add.Exact wideKind wideKind.maxValue 1 := by
  have hbits : 1 ≤ wideKind.bits := by decide
  have htakes : CheckedOp.add.Takes wideKind wideKind.maxValue 1 :=
    ⟨by decide +kernel, by decide +kernel⟩
  -- One more than the largest value is no value.
  have hnone : ∀ result, ¬ CheckedOp.add.Yields wideKind wideKind.maxValue 1 result := by
    rintro result ⟨hsum, hcontains⟩
    have hresult : result = wideKind.maxValue + 1 := hsum
    rw [NumericKind.contains_iff] at hcontains
    omega
  exact ⟨htakes, unreported_of_not_yields hbits htakes hnone isWritable_maxValue_wideKind⟩

end CheckedOp
end CalibratedCosts
