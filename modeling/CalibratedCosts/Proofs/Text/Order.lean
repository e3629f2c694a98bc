import Mathlib
import CalibratedCosts.Text.Basic

/-! # Texts and strings

    The texts without halves are the strings, and they are in the order of the
    strings.
-/

namespace CalibratedCosts.Text

theorem eq_map_char_of_mapM_char? {codes : List Code} {cs : List Char}
    (h : codes.mapM Code.char? = some cs) : codes = cs.map Code.char := by
  induction codes generalizing cs with
  | nil =>
    rw [List.mapM_nil] at h
    cases h
    rfl
  | cons code rest ih =>
    rw [List.mapM_cons] at h
    cases code with
    | half distance => cases h
    | char c =>
      cases hrest : rest.mapM Code.char? with
      | none =>
        rw [hrest] at h
        cases h
      | some cs' =>
        rw [hrest] at h
        cases h
        rw [ih hrest]
        rfl

/-- A text is the string that it is read as. -/
theorem ofString_of_string?_eq_some {t : Text} {s : String} (h : t.string? = some s) :
    ofString s = t := by
  obtain ⟨cs, hcs, rfl⟩ := Option.map_eq_some_iff.1 h
  have hcodes := eq_map_char_of_mapM_char? hcs
  unfold ofString
  rw [String.toList_ofList, ← hcodes]

instance : Std.Irrefl (α := Code) (· < ·) := ⟨fun c => Nat.lt_irrefl c.number⟩

theorem lt_asymm {s t : Text} (h : s < t) : ¬ t < s :=
  fun hlt => List.lt_irrefl _ (lt_trans h hlt)

theorem ofString_lt {s t : String} (h : s < t) : ofString s < ofString t :=
  List.map_lt (fun _ _ hlt => hlt) h

/-- Texts in order are strings in order. -/
theorem le_of_ofString_lt {s t : String} (h : ofString s < ofString t) : s ≤ t := by
  by_contra hlt
  exact lt_asymm h (ofString_lt (not_le.1 hlt))

end CalibratedCosts.Text
