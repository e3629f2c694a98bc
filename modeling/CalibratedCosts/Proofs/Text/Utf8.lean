import Mathlib
import CalibratedCosts.Text.Utf8

/-! # Texts come back from their bytes

    Decoding the encoding of a string gives its characters again, one by one:
    the bytes of a character start a sequence of the right length, each of
    them is one that may follow, and their payloads make up the code point.
-/

namespace CalibratedCosts.Text

namespace Utf8

variable {b c d e : UInt8} {rest : List UInt8} {position : ℕ}

/-! ## Section 1: sequences -/

/-- The byte continues a sequence. -/
def Continues (b : UInt8) : Prop := 0x80 ≤ b.toNat ∧ b.toNat ≤ 0xbf

theorem Continues.isContinuation (h : Continues b) : isContinuation b = true := by
  unfold Utf8.isContinuation
  rw [Bool.and_eq_true, decide_eq_true_eq, decide_eq_true_eq, UInt8.le_iff_toNat_le,
    UInt8.le_iff_toNat_le]
  exact h

/-- A second byte may follow a first one if it continues a sequence and does
    not make the form longer than needed, a surrogate, or a number beyond the
    last code point. -/
theorem allowsSecond_of_continues (h : Continues c) (hshort : b.toNat = 0xe0 → 0xa0 ≤ c.toNat)
    (hsurrogate : b.toNat = 0xed → c.toNat ≤ 0x9f) (hlong : b.toNat = 0xf0 → 0x90 ≤ c.toNat)
    (hlast : b.toNat = 0xf4 → c.toNat ≤ 0x8f) : allowsSecond b c = true := by
  have hcontinues := h.isContinuation
  obtain ⟨hlow, hhigh⟩ := h
  unfold allowsSecond
  simp only [UInt8.le_iff_toNat_le, ← UInt8.toNat_inj]
  -- Four first bytes narrow the range of the second.
  split_ifs with h₁ h₂ h₃ h₄
  · simpa using ⟨hshort h₁, hhigh⟩
  · simpa using ⟨hlow, hsurrogate h₂⟩
  · simpa using ⟨hlong h₃, hhigh⟩
  · simpa using ⟨hlow, hlast h₄⟩
  · exact hcontinues

theorem decodeFrom_one (h : b.toNat < 0x80) :
    decodeFrom position (b :: rest) =
      (decodeFrom (position + 1) rest).map (Char.ofNat b.toNat :: ·) := by
  have hb : b < 0x80 := UInt8.lt_iff_toNat_lt.2 h
  rw [decodeFrom.eq_def]
  simp only [if_pos hb]

/-- A byte from `0xc2` to `0xf4` starts a sequence of two bytes or more. -/
theorem starts_sequence (h : 0xc2 ≤ b.toNat) (h' : b.toNat ≤ 0xf4) :
    ¬ b < 0x80 ∧ (b < 0xc2 || 0xf4 < b) = false := by
  simp only [UInt8.lt_iff_toNat_lt, Bool.or_eq_false_iff, decide_eq_false_iff_not]
  have h₁ : UInt8.toNat 0x80 = 0x80 := rfl
  have h₂ : UInt8.toNat 0xc2 = 0xc2 := rfl
  have h₃ : UInt8.toNat 0xf4 = 0xf4 := rfl
  omega

theorem decodeFrom_two (hlow : 0xc2 ≤ b.toNat) (hhigh : b.toNat < 0xe0)
    (hc : allowsSecond b c = true) :
    decodeFrom position (b :: c :: rest) =
      (decodeFrom (position + 2) rest).map (assemble (b.toNat - 0xc0) [c] :: ·) := by
  obtain ⟨hone, hstart⟩ := starts_sequence hlow (by omega)
  have htwo : b < 0xe0 := UInt8.lt_iff_toNat_lt.2 hhigh
  rw [decodeFrom.eq_def]
  simp [hone, hstart, hc, htwo]

theorem decodeFrom_three (hlow : 0xe0 ≤ b.toNat) (hhigh : b.toNat < 0xf0)
    (hc : allowsSecond b c = true) (hd : isContinuation d = true) :
    decodeFrom position (b :: c :: d :: rest) =
      (decodeFrom (position + 3) rest).map (assemble (b.toNat - 0xe0) [c, d] :: ·) := by
  obtain ⟨hone, hstart⟩ := starts_sequence (b := b) (by omega) (by omega)
  have htwo : ¬ b < 0xe0 := by
    rw [UInt8.lt_iff_toNat_lt]
    exact not_lt.2 hlow
  have hthree : b < 0xf0 := UInt8.lt_iff_toNat_lt.2 hhigh
  rw [decodeFrom.eq_def]
  simp [hone, hstart, hc, htwo, hd, hthree]

theorem decodeFrom_four (hlow : 0xf0 ≤ b.toNat) (hhigh : b.toNat ≤ 0xf4)
    (hc : allowsSecond b c = true) (hd : isContinuation d = true) (he : isContinuation e = true) :
    decodeFrom position (b :: c :: d :: e :: rest) =
      (decodeFrom (position + 4) rest).map (assemble (b.toNat - 0xf0) [c, d, e] :: ·) := by
  obtain ⟨hone, hstart⟩ := starts_sequence (by omega) hhigh
  have htwo : ¬ b < 0xe0 := by
    rw [UInt8.lt_iff_toNat_lt]
    exact not_lt.2 (le_trans (by decide) hlow)
  have hthree : ¬ b < 0xf0 := by
    rw [UInt8.lt_iff_toNat_lt]
    exact not_lt.2 hlow
  rw [decodeFrom.eq_def]
  simp [hone, hstart, hc, htwo, hd, hthree, he]

/-! ## Section 2: characters -/

theorem toNat_ofNat_of_lt {n : ℕ} (h : n < 256) : (UInt8.ofNat n).toNat = n := by
  rw [UInt8.toNat_ofNat']
  exact Nat.mod_eq_of_lt h

theorem toNat_following (n : ℕ) : (UInt8.ofNat (n % 64 + 128)).toNat = n % 64 + 128 :=
  toNat_ofNat_of_lt (by omega)

/-- A byte with six bits of payload continues a sequence. -/
theorem continues_following (n : ℕ) : Continues (UInt8.ofNat (n % 64 + 128)) := by
  unfold Continues
  rw [toNat_following]
  omega

theorem ofNat_val (c : Char) : Char.ofNat c.val.toNat = c := Char.ofNat_toNat c

/-- The bytes of a character are decoded as the character. -/
theorem exists_decodeFrom_eq (c : Char) (rest : List UInt8) (position : ℕ) :
    ∃ next, decodeFrom position (String.utf8EncodeChar c ++ rest) =
      (decodeFrom next rest).map (c :: ·) := by
  have hvalid := c.valid
  unfold UInt32.isValidChar Nat.isValidChar at hvalid
  have hchar := ofNat_val c
  generalize hn : c.val.toNat = n at hvalid hchar
  -- The number of bytes goes by the size of the code point.
  unfold String.utf8EncodeChar
  simp only [hn]
  split_ifs with h₁ h₂ h₃
  · have hfirst := toNat_ofNat_of_lt (n := n) (by omega)
    refine ⟨position + 1, ?_⟩
    rw [List.singleton_append, decodeFrom_one (by omega), hfirst, hchar]
  · have hfirst := toNat_ofNat_of_lt (n := n / 64 % 32 + 192) (by omega)
    have hallows := allowsSecond_of_continues (b := UInt8.ofNat (n / 64 % 32 + 192))
      (continues_following n) (by omega) (by omega) (by omega) (by omega)
    refine ⟨position + 2, ?_⟩
    rw [List.cons_append, List.singleton_append,
      decodeFrom_two (by omega) (by omega) hallows]
    have hcode : (n / 64 % 32 + 192 - 0xc0) * 64 + (n % 64 + 128 - 0x80) = n := by omega
    simp only [assemble, List.foldl_cons, List.foldl_nil, hfirst, toNat_following, hcode, hchar]
  · have hfirst := toNat_ofNat_of_lt (n := n / 4096 % 16 + 224) (by omega)
    have hsecond := toNat_following (n / 64)
    have hallows := allowsSecond_of_continues (b := UInt8.ofNat (n / 4096 % 16 + 224))
      (continues_following (n / 64)) (by omega) (by omega) (by omega) (by omega)
    refine ⟨position + 3, ?_⟩
    rw [List.cons_append, List.cons_append, List.singleton_append,
      decodeFrom_three (by omega) (by omega) hallows (continues_following n).isContinuation]
    have hcode : ((n / 4096 % 16 + 224 - 0xe0) * 64 + (n / 64 % 64 + 128 - 0x80)) * 64 +
        (n % 64 + 128 - 0x80) = n := by omega
    simp only [assemble, List.foldl_cons, List.foldl_nil, hfirst, toNat_following, hcode, hchar]
  · have hfirst := toNat_ofNat_of_lt (n := n / 262144 % 8 + 240) (by omega)
    have hsecond := toNat_following (n / 4096)
    have hallows := allowsSecond_of_continues (b := UInt8.ofNat (n / 262144 % 8 + 240))
      (continues_following (n / 4096)) (by omega) (by omega) (by omega) (by omega)
    refine ⟨position + 4, ?_⟩
    rw [List.cons_append, List.cons_append, List.cons_append, List.singleton_append,
      decodeFrom_four (by omega) (by omega) hallows (continues_following (n / 64)).isContinuation
        (continues_following n).isContinuation]
    have hcode : (((n / 262144 % 8 + 240 - 0xf0) * 64 + (n / 4096 % 64 + 128 - 0x80)) * 64 +
        (n / 64 % 64 + 128 - 0x80)) * 64 + (n % 64 + 128 - 0x80) = n := by omega
    simp only [assemble, List.foldl_cons, List.foldl_nil, hfirst, toNat_following, hcode, hchar]

/-! ## Section 3: strings -/

theorem decodeFrom_encode (cs : List Char) (position : ℕ) :
    decodeFrom position (cs.flatMap String.utf8EncodeChar) = .ok cs := by
  induction cs generalizing position with
  | nil => rw [List.flatMap_nil, decodeFrom]
  | cons c rest ih =>
    obtain ⟨next, hnext⟩ := exists_decodeFrom_eq c (rest.flatMap String.utf8EncodeChar) position
    rw [List.flatMap_cons, hnext, ih]
    rfl

/-- A string is decoded from its own bytes. -/
theorem decode_encode (s : String) : decode (encode s) = .ok s.toList :=
  decodeFrom_encode s.toList 0

end Utf8

end CalibratedCosts.Text
