import Mathlib
import CalibratedCosts.Proofs.Outcome
import CalibratedCosts.Proofs.Table.Entries
import CalibratedCosts.Proofs.Table.Lookup

/-! # What a table is built from

    A table that is built from a map of models answers a name as the map does.
    Neither the order of the map nor the spelling of its keys is left in the
    table.
-/

namespace CalibratedCosts

namespace Entries

variable {entries entries' : Entries} {key : Datum} {model? : Option QuantizedModel}

/-- A key that is added names an operation and has a model. -/
theorem insertKey_eq_ok (h : entries.insertKey key model? = .ok entries') :
    ∃ (name : Text) (hname : key.identifier? = some name) (model : QuantizedModel),
      model? = some model ∧
        entries' = entries.insert name model (Datum.identifier?_ne_empty hname) := by
  unfold insertKey at h
  split at h
  · cases h
  · rename_i model
    split at h
    · cases h
    · rename_i name hname
      cases h
      exact ⟨name, hname, model, rfl, rfl⟩

/-- Adding a key changes the answer to its name. -/
theorem get?_insertKey (h : entries.insertKey key model? = .ok entries') (name : Text) :
    (entries'.get? name).map some =
      if key == .text name then some model? else (entries.get? name).map some := by
  obtain ⟨name', hname', model, rfl, rfl⟩ := insertKey_eq_ok h
  -- Two keys are equal exactly if they name one operation.
  have hkey : (key == .text name) = true ↔ name = name' := by
    rw [Datum.sameKey_text_iff, Datum.asText?_of_identifier? hname', Option.some_inj]
    exact eq_comm
  rw [get?_insert]
  by_cases hname : name = name'
  · rw [if_pos hname, if_pos (hkey.2 hname)]
    rfl
  · rw [if_neg hname, if_neg (mt hkey.1 hname)]

/-- Entries made of pairs with distinct keys answer a name as the pairs do. -/
theorem get?_ofPairs {pairs : List (Datum × Option QuantizedModel)}
    (hdistinct : (pairs.map Prod.fst).Pairwise fun k k' => (k == k') = false)
    (h : ofPairs pairs = .ok entries) (name : Text) :
    (entries.get? name).map some = (pairs.find? fun e => e.1 == .text name).map Prod.snd := by
  -- From the right, since the last pair is added to the entries of the others.
  induction pairs using List.reverseRecOn generalizing entries with
  | nil =>
    cases h
    rfl
  | append_singleton pairs e ih =>
    unfold ofPairs at h
    rw [List.foldlM_append] at h
    obtain ⟨earlier, hearlier, hlast⟩ := bind_eq_ok_iff.1 h
    obtain ⟨final, hfinal, hnil⟩ := bind_eq_ok_iff.1 hlast
    cases hnil
    rw [List.map_append, List.pairwise_append] at hdistinct
    obtain ⟨hpairs, -, hapart⟩ := hdistinct
    rw [get?_insertKey hfinal, ih hpairs hearlier, List.find?_append, List.find?_singleton]
    by_cases hkey : (e.1 == .text name) = true
    -- Only the last key is one of this name.
    · have hnone : pairs.find? (fun e => e.1 == .text name) = none := by
        rw [List.find?_eq_none]
        intro e' he' hkey'
        have hne := hapart _ (List.mem_map_of_mem he') _ (List.mem_singleton_self e.1)
        rw [Datum.sameKey_of_asText? (Datum.sameKey_text_iff.1 hkey')
          (Datum.sameKey_text_iff.1 hkey)] at hne
        cases hne
      rw [hnone, if_pos hkey, if_pos hkey]
      rfl
    · rw [if_neg hkey, if_neg hkey, Option.or_none]

end Entries

namespace CostModelTable

theorem entries_stamped (entries : Entries) (time : Option Text) (now : Timestamp) :
    (stamped entries time now).entries = entries := by
  unfold stamped
  split
  · rfl
  · split <;> rfl

/-- A table answers a name as the map that it is built from. -/
theorem get?_of_ofMap {models : OrderedMap Datum (Option QuantizedModel)} {time : Option Text}
    {now : Timestamp} {t : CostModelTable} (h : ofMap models time now = .ok t) (name : Text) :
    (t.entries.get? name).map some = models.get? (.text name) := by
  obtain ⟨entries, hentries, heq⟩ := bind_eq_ok_iff.1 h
  cases heq
  rw [entries_stamped]
  exact Entries.get?_ofPairs models.distinct hentries name

end CostModelTable
end CalibratedCosts
