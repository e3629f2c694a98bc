import Mathlib
import CalibratedCosts.Datum

/-! # Facts about unchecked data

    * **Shown**: a datum is shown unless it holds an integer beyond the digit
      limit or is nested deeper than there is room for calls.  Which of the two
      is found first makes no difference to whether it is shown.
    * **Keys**: the keys of a name are the text and the host operation that have
      it, and all of them are one key.
-/

namespace CalibratedCosts.Datum

/-! ## Section 1: shown -/

mutual

/-- There is a fault unless all integers are short enough and there is room for
    the whole depth. -/
theorem showFault?_eq_none_iff (d : Datum) (room : ℕ) :
    d.showFault? room = none ↔ d.isWritable = true ∧ d.depth ≤ room := by
  cases d with
  | whole n =>
    simp only [showFault?, isWritable, depth]
    -- The room is looked at before the digits.
    split_ifs with hroom hshort
    · simp [hroom]
    · simp [hshort, Nat.one_le_iff_ne_zero.2 hroom]
    · simp [hshort]
  | operation o =>
    simp only [showFault?, isWritable, depth]
    split_ifs <;> simp_all
  | list items =>
    have hitems := itemsFault?_eq_none_iff items (room - 1)
    rw [showFault?, isWritable, depth]
    split_ifs with hroom
    · simp [hroom]
    · rw [hitems, Nat.le_sub_one_iff_lt (Nat.pos_of_ne_zero hroom), Nat.one_add_le_iff]
  | tuple items =>
    have hitems := itemsFault?_eq_none_iff items (room - 1)
    rw [showFault?, isWritable, depth]
    split_ifs with hroom
    · simp [hroom]
    · rw [hitems, Nat.le_sub_one_iff_lt (Nat.pos_of_ne_zero hroom), Nat.one_add_le_iff]
  | record fields =>
    have hfields := fieldsFault?_eq_none_iff fields (room - 1)
    rw [showFault?, isWritable, depth]
    split_ifs with hroom
    · simp [hroom]
    · rw [hfields, Nat.le_sub_one_iff_lt (Nat.pos_of_ne_zero hroom), Nat.one_add_le_iff]
  | sample size cost =>
    have hsize := showFault?_eq_none_iff size (room - 2)
    have hcost := showFault?_eq_none_iff cost (room - 2)
    rw [showFault?, isWritable, depth, Bool.and_eq_true]
    split_ifs with hroom
    · simp only [false_iff, not_and]
      omega
    · have hboth : 2 + max size.depth cost.depth ≤ room ↔
          size.depth ≤ room - 2 ∧ cost.depth ≤ room - 2 := by omega
      rw [Option.or_eq_none_iff, hsize, hcost, hboth]
      tauto
  | _ =>
    simp only [showFault?, isWritable, depth, true_and]
    split_ifs with hroom
    · simp [hroom]
    · simp [Nat.one_le_iff_ne_zero.2 hroom]

theorem itemsFault?_eq_none_iff (items : List Datum) (room : ℕ) :
    itemsFault? items room = none ↔ areWritable items = true ∧ depthOfItems items ≤ room := by
  cases items with
  | nil => simp [itemsFault?, areWritable, depthOfItems]
  | cons d rest =>
    rw [itemsFault?, areWritable, depthOfItems, Option.or_eq_none_iff, showFault?_eq_none_iff d room,
      itemsFault?_eq_none_iff rest room, Bool.and_eq_true, max_le_iff]
    tauto

theorem fieldsFault?_eq_none_iff (fields : List (Datum × Datum)) (room : ℕ) :
    fieldsFault? fields room = none ↔ fieldsWritable fields = true ∧ depthOfFields fields ≤ room := by
  cases fields with
  | nil => simp [fieldsFault?, fieldsWritable, depthOfFields]
  | cons field rest =>
    obtain ⟨key, d⟩ := field
    rw [fieldsFault?, fieldsWritable, depthOfFields, Option.or_eq_none_iff, Option.or_eq_none_iff,
      showFault?_eq_none_iff key room, showFault?_eq_none_iff d room,
      fieldsFault?_eq_none_iff rest room, Bool.and_eq_true, Bool.and_eq_true, max_le_iff, max_le_iff]
    tauto

end

/-- A datum is shown if it can be written and there is room for its depth. -/
theorem shown?_eq_ok_iff [CallRoom] {d : Datum} {s : String} :
    d.shown? = .ok s ↔ (d.isWritable = true ∧ d.depth ≤ CallRoom.levels) ∧ d.shown = s := by
  rw [← showFault?_eq_none_iff]
  unfold shown?
  cases d.showFault? CallRoom.levels <;> simp

/-! ## Section 2: keys -/

/-- The keys of a name are those with its text. -/
theorem sameKey_text_iff {key : Datum} {name : Text} :
    (key == .text name) = true ↔ key.asText? = some name := by
  show sameKey key (.text name) = true ↔ _
  cases key <;> simp [sameKey, asText?]

theorem sameKey_of_asText? {key key' : Datum} {name : Text} (h : key.asText? = some name)
    (h' : key'.asText? = some name) : (key == key') = true := by
  show sameKey key key' = true
  cases key <;> cases h <;> cases key' <;> simp_all [sameKey, asText?]

theorem text_beq_text (a b : Text) : (Datum.text a == Datum.text b) = (a == b) := by
  rw [Bool.eq_iff_iff, sameKey_text_iff, beq_iff_eq]
  exact Option.some_inj

/-- A field of a record whose keys are texts is looked up by its text. -/
theorem field?_text (name : Text) (fields : List (Text × Datum)) :
    field? name (fields.map fun f => (.text f.1, f.2)) =
      (fields.find? fun f => f.1 == name).map Prod.snd := by
  unfold field?
  rw [List.find?_map, Option.map_map]
  simp only [Function.comp_def, text_beq_text]

end CalibratedCosts.Datum
