import Mathlib
import CalibratedCosts.Proofs.OrderedMap
import CalibratedCosts.Proofs.Outcome
import CalibratedCosts.Proofs.Text.Order
import CalibratedCosts.Table.Basic

/-! # Entries as a finite function

    Entries answer which model a name has.  Inserting changes the answer at one
    name.  Entries are made again from their own list, one insertion after the
    other, and are determined by their answers.
-/

namespace CalibratedCosts.Entries

variable {name name' : Text} {model : QuantizedModel}

/-! ## Section 1: insertion -/

/-- The model of a name among entries in order. -/
theorem find?_insertSorted (name name' : Text) (model : QuantizedModel)
    {entries : List (Text × QuantizedModel)} (h : (entries.map Prod.fst).Pairwise (· < ·)) :
    ((insertSorted name model entries).find? fun e => e.1 == name').map Prod.snd =
      if name' = name then some model else (entries.find? fun e => e.1 == name').map Prod.snd := by
  induction entries with
  | nil =>
    by_cases hname : name' = name
    · simp [insertSorted, hname]
    · simp [insertSorted, hname, Ne.symm hname]
  | cons e rest ih =>
    obtain ⟨first, model'⟩ := e
    simp only [List.map_cons, List.pairwise_cons] at h
    -- The name sought is the one inserted, or the insertion only moves other
    -- entries.
    by_cases hname : name' = name
    · subst hname
      simp only [insertSorted, if_true]
      split
      · simp
      · split
        · rename_i hlt
          have hne : first ≠ name' := by
            rintro rfl
            exact List.lt_irrefl _ hlt
          rw [List.find?_cons_of_neg (by simpa using hne), ih h.2, if_pos rfl]
        · simp
    · simp only [insertSorted, if_neg hname]
      split
      · rw [List.find?_cons_of_neg (by simpa using Ne.symm hname)]
      · split
        · by_cases hfirst : first = name'
          · simp [hfirst]
          · rw [List.find?_cons_of_neg (by simpa using hfirst),
              List.find?_cons_of_neg (by simpa using hfirst), ih h.2, if_neg hname]
        · rename_i hge hle
          -- Neither name is below the other, so they are equal.
          have hfirst : name = first := Text.eq_of_not_lt hge hle
          rw [List.find?_cons_of_neg (by simpa using Ne.symm hname),
            List.find?_cons_of_neg (by simpa [hfirst] using hfirst ▸ Ne.symm hname)]

theorem get?_insert (entries : Entries) (hname : name ≠ "") (name' : Text) :
    (entries.insert name model hname).get? name' =
      if name' = name then some model else entries.get? name' :=
  find?_insertSorted name name' model entries.sorted

theorem get?_empty (name : Text) : empty.get? name = none := rfl

/-- The names are those that have a model. -/
theorem mem_names_iff {entries : Entries} : name ∈ entries.names ↔ (entries.get? name).isSome := by
  unfold names get?
  rw [Option.isSome_map, List.find?_isSome]
  simp

/-! ## Section 2: entries in order -/

theorem toList_injective : Function.Injective toList := by
  intro a b h
  cases a
  cases b
  cases h
  rfl

/-- An entry that comes after all others stands behind them. -/
theorem insertSorted_of_forall_lt {entries : List (Text × QuantizedModel)}
    (h : ∀ e ∈ entries, e.1 < name) :
    insertSorted name model entries = entries ++ [(name, model)] := by
  induction entries with
  | nil => rfl
  | cons e rest ih =>
    obtain ⟨hlt, hrest⟩ := List.forall_mem_cons.1 h
    unfold insertSorted
    rw [if_neg (Text.lt_asymm hlt), if_pos hlt, ih hrest]
    rfl

section Fold

variable {ε β : Type} {step : Entries → β → Except ε Entries} {f : Text × QuantizedModel → β}

/-- Entries in order that are put in behind others make up a list with
    them. -/
theorem exists_foldlM_eq_ok
    (hstep : ∀ (entries : Entries) (e : Text × QuantizedModel) (h : e.1 ≠ ""),
      step entries (f e) = .ok (entries.insert e.1 e.2 h))
    {rest : List (Text × QuantizedModel)} {entries : Entries}
    (hsorted : ((entries.toList ++ rest).map Prod.fst).Pairwise (· < ·))
    (hnamed : ∀ e ∈ rest, e.1 ≠ "") :
    ∃ result : Entries, (rest.map f).foldlM step entries = .ok result ∧
      result.toList = entries.toList ++ rest := by
  -- On the entries to come: each of them is behind the entries so far.
  induction rest generalizing entries with
  | nil => exact ⟨entries, rfl, (List.append_nil _).symm⟩
  | cons e rest ih =>
    obtain ⟨hname, hrest⟩ := List.forall_mem_cons.1 hnamed
    have hbehind : ∀ e' ∈ entries.toList, e'.1 < e.1 := by
      intro e' he'
      rw [List.map_append, List.pairwise_append] at hsorted
      exact hsorted.2.2 _ (List.mem_map_of_mem he') _ (List.mem_map_of_mem List.mem_cons_self)
    have hinsert : (entries.insert e.1 e.2 hname).toList = entries.toList ++ [e] :=
      insertSorted_of_forall_lt hbehind
    have hsorted' : (((entries.insert e.1 e.2 hname).toList ++ rest).map Prod.fst).Pairwise
        (· < ·) := by
      rw [hinsert, List.append_assoc]
      exact hsorted
    obtain ⟨result, hresult, hlist⟩ := ih hsorted' hrest
    rw [hinsert, List.append_assoc] at hlist
    refine ⟨result, ?_, hlist⟩
    rw [List.map_cons, List.foldlM_cons]
    exact bind_eq_ok_iff.2 ⟨_, hstep entries e hname, hresult⟩

/-- Entries are made again from their own list. -/
theorem foldlM_toList
    (hstep : ∀ (entries : Entries) (e : Text × QuantizedModel) (h : e.1 ≠ ""),
      step entries (f e) = .ok (entries.insert e.1 e.2 h))
    (entries : Entries) : (entries.toList.map f).foldlM step empty = .ok entries := by
  obtain ⟨result, hresult, hlist⟩ :=
    @exists_foldlM_eq_ok ε β step f hstep entries.toList empty entries.sorted entries.named
  have heq : result = entries := toList_injective hlist
  rw [heq] at hresult
  exact hresult

end Fold

/-! ## Section 3: entries from their answers -/

/-- No two entries have one name. -/
theorem nodup_names (entries : Entries) : entries.names.Nodup :=
  entries.sorted.imp fun hlt heq => by
    subst heq
    exact Text.lt_asymm hlt hlt

/-- The model of a name is that of its entry. -/
theorem get?_eq_some_iff {entries : Entries} :
    entries.get? name = some model ↔ (name, model) ∈ entries.toList :=
  OrderedMap.find?_key_eq_some_iff entries.nodup_names

/-- Entries that answer every name alike are the same. -/
theorem ext_get? {a b : Entries} (h : ∀ name, a.get? name = b.get? name) : a = b := by
  have hasymm : Std.Asymm fun e e' : Text × QuantizedModel => e.1 < e'.1 :=
    ⟨fun _ _ => Text.lt_asymm⟩
  apply toList_injective
  apply List.Pairwise.eq_of_mem_iff (List.pairwise_map.1 a.sorted) (List.pairwise_map.1 b.sorted)
  intro e
  rw [← get?_eq_some_iff, ← get?_eq_some_iff, h]

end CalibratedCosts.Entries
