import Mathlib
import CalibratedCosts.OrderedMap

/-! # Maps in insertion order as tables of a function

    A map is described by its keys in order and by a function that gives the
    value at each of them.  Inserting changes the function at one key, and
    adds the key at the end if it is new.  In a map made of pairs the last pair
    of each key counts.
-/

namespace CalibratedCosts.OrderedMap

section Agreement

variable {κ ν : Type} [BEq κ]

theorem insertEntry_of_forall_ne {k : κ} {v : ν} {entries : List (κ × ν)}
    (h : ∀ e ∈ entries, (e.1 == k) = false) : insertEntry k v entries = entries ++ [(k, v)] := by
  induction entries with
  | nil => rfl
  | cons e rest ih =>
    obtain ⟨he, hrest⟩ := List.forall_mem_cons.1 h
    rw [insertEntry, if_neg (by simp [he]), ih hrest, List.cons_append]

/-- Inserting brings in at most one key. -/
theorem forall_mem_keys_insert {P : κ → Prop} {m : OrderedMap κ ν} (hm : ∀ k ∈ m.keys, P k)
    {k : κ} (hk : P k) (v : ν) : ∀ k' ∈ (m.insert k v).keys, P k' := by
  show ∀ k' ∈ (insertEntry k v m.entries).map Prod.fst, P k'
  rw [keys_insertEntry]
  split
  · exact hm
  · rw [List.forall_mem_append, List.forall_mem_singleton]
    exact ⟨hm, hk⟩

/-- Inserting brings in at most one value. -/
theorem forall_mem_values_insert {P : ν → Prop} {m : OrderedMap κ ν} (hm : ∀ v ∈ m.values, P v)
    (k : κ) {v : ν} (hv : P v) : ∀ v' ∈ (m.insert k v).values, P v' := by
  have hentries : ∀ entries : List (κ × ν), (∀ v' ∈ entries.map Prod.snd, P v') →
      ∀ v' ∈ (insertEntry k v entries).map Prod.snd, P v' := by
    intro entries
    induction entries with
    | nil =>
      intro _
      exact List.forall_mem_singleton.2 hv
    | cons e rest ih =>
      intro h
      obtain ⟨he, hrest⟩ := List.forall_mem_cons.1 h
      unfold insertEntry
      split
      · exact List.forall_mem_cons.2 ⟨hv, hrest⟩
      · exact List.forall_mem_cons.2 ⟨he, ih hrest⟩
  exact hentries m.entries hm

/-- A map of pairs no two of which have one key has them in their order. -/
theorem entries_ofList {pairs : List (κ × ν)}
    (h : (pairs.map Prod.fst).Pairwise fun k k' => (k == k') = false) :
    (ofList pairs).entries = pairs := by
  -- On the pairs to come, behind a map of those that have been inserted.
  have hfold : ∀ (rest : List (κ × ν)) (m : OrderedMap κ ν),
      ((m.entries ++ rest).map Prod.fst).Pairwise (fun k k' => (k == k') = false) →
      (rest.foldl (fun m e => m.insert e.1 e.2) m).entries = m.entries ++ rest := by
    intro rest
    induction rest with
    | nil =>
      intro m _
      exact (List.append_nil _).symm
    | cons e rest ih =>
      intro m hdistinct
      have hnew : ∀ e' ∈ m.entries, (e'.1 == e.1) = false := by
        intro e' he'
        rw [List.map_append, List.pairwise_append] at hdistinct
        exact hdistinct.2.2 _ (List.mem_map_of_mem he') _ (List.mem_map_of_mem List.mem_cons_self)
      have hinsert : (m.insert e.1 e.2).entries = m.entries ++ [e] := insertEntry_of_forall_ne hnew
      rw [List.foldl_cons, ih, hinsert, List.append_assoc, List.singleton_append]
      rw [hinsert, List.append_assoc, List.singleton_append]
      exact hdistinct
  exact hfold pairs empty h

theorem keys_ofList {pairs : List (κ × ν)}
    (h : (pairs.map Prod.fst).Pairwise fun k k' => (k == k') = false) :
    (ofList pairs).keys = pairs.map Prod.fst := by
  unfold keys
  rw [entries_ofList h]

theorem find?_key_cons (first k : κ) (value : ν) (rest : List (κ × ν)) :
    (((first, value) :: rest).find? fun e => e.1 == k).map Prod.snd =
      if (first == k) = true then some value else (rest.find? fun e => e.1 == k).map Prod.snd := by
  by_cases h : (first == k) = true
  · simp [h]
  · simp [h]

/-- A key has a value if an entry with the value agrees with the key. -/
theorem exists_mem_of_get?_eq_some {m : OrderedMap κ ν} {k : κ} {v : ν} (h : m.get? k = some v) :
    ∃ k', (k', v) ∈ m.entries ∧ (k' == k) = true := by
  unfold get? at h
  obtain ⟨e, hfind, rfl⟩ := Option.map_eq_some_iff.1 h
  have hk : (e.1 == k) = true := by simpa using List.find?_some hfind
  exact ⟨e.1, List.mem_of_find?_eq_some hfind, hk⟩

theorem forall_of_get?_eq_none {m : OrderedMap κ ν} {k : κ} (h : m.get? k = none) :
    ∀ e ∈ m.entries, (e.1 == k) = false := by
  unfold get? at h
  intro e he
  simpa using List.find?_eq_none.1 (Option.map_eq_none_iff.1 h) e he

/-- Of two values that are inserted under one key the later one stays. -/
theorem insertEntry_insertEntry {k : κ} (hk : (k == k) = true) (v v' : ν)
    (entries : List (κ × ν)) :
    insertEntry k v' (insertEntry k v entries) = insertEntry k v' entries := by
  induction entries with
  | nil => simp [insertEntry, hk]
  | cons e rest ih =>
    obtain ⟨k', v''⟩ := e
    by_cases h : (k' == k) = true
    · simp [insertEntry, h]
    · simp [insertEntry, h, ih]

theorem insert_insert {m : OrderedMap κ ν} {k : κ} (hk : (k == k) = true) (v v' : ν) :
    (m.insert k v).insert k v' = m.insert k v' := by
  unfold insert
  congr 1
  exact insertEntry_insertEntry hk v v' m.entries

/-- Inserting under a key makes no difference to the entries of the others. -/
theorem filter_insertEntry {k : κ} (hk : (k == k) = true) (v : ν) (entries : List (κ × ν)) :
    (insertEntry k v entries).filter (fun e => !(e.1 == k)) =
      entries.filter fun e => !(e.1 == k) := by
  induction entries with
  | nil => simp [insertEntry, hk]
  | cons e rest ih =>
    obtain ⟨k', v'⟩ := e
    by_cases h : (k' == k) = true
    · simp [insertEntry, h]
    · simp [insertEntry, h, ih]

theorem erase_insert_self {m : OrderedMap κ ν} {k : κ} (hk : (k == k) = true) (v : ν) :
    (m.insert k v).erase k = m.erase k := by
  unfold erase insert
  congr 1
  exact filter_insertEntry hk v m.entries

/-- A new key can be taken back. -/
theorem erase_insert {m : OrderedMap κ ν} {k : κ} (hk : (k == k) = true) (h : m.get? k = none)
    (v : ν) : (m.insert k v).erase k = m := by
  have hne := forall_of_get?_eq_none h
  have hkept : m.entries.filter (fun e => !(e.1 == k)) = m.entries :=
    List.filter_eq_self.2 fun e he => by rw [hne e he]; rfl
  rw [erase_insert_self hk]
  cases m
  simp only [erase, hkept]

/-- Inserting under other names for the keys. -/
theorem insertEntry_map {κ' : Type} [BEq κ'] {f : κ → κ'}
    (hf : ∀ k k', (f k == f k') = (k == k')) (k : κ) (v : ν) (entries : List (κ × ν)) :
    insertEntry (f k) v (entries.map fun e => (f e.1, e.2)) =
      (insertEntry k v entries).map fun e => (f e.1, e.2) := by
  induction entries with
  | nil => rfl
  | cons e rest ih =>
    rw [List.map_cons, insertEntry, insertEntry, hf, ih]
    split <;> rfl

theorem find?_map {κ' : Type} [BEq κ'] {f : κ → κ'} (hf : ∀ k k', (f k == f k') = (k == k'))
    (k : κ) (entries : List (κ × ν)) :
    ((entries.map fun e => (f e.1, e.2)).find? fun e => e.1 == f k).map Prod.snd =
      (entries.find? fun e => e.1 == k).map Prod.snd := by
  simp only [List.find?_map, Function.comp_def, hf, Option.map_map]

/-- The map with a function applied to every value. -/
def mapValues {ν' : Type} (f : ν → ν') (m : OrderedMap κ ν) : OrderedMap κ ν' where
  entries := m.entries.map fun e => (e.1, f e.2)
  distinct := by
    rw [List.map_map]
    exact m.distinct

theorem get?_mapValues {ν' : Type} (f : ν → ν') (m : OrderedMap κ ν) (k : κ) :
    (m.mapValues f).get? k = (m.get? k).map f := by
  simp only [get?, mapValues, List.find?_map, Function.comp_def, Option.map_map]

end Agreement

variable {κ ν : Type} [DecidableEq κ]

/-- The keys of the map are `keys`, in this order, and the value at each key
    is that of `f`. -/
def Tabulates (m : OrderedMap κ ν) (keys : List κ) (f : κ → ν) : Prop :=
  m.entries = keys.map fun k => (k, f k)

/-! ## Section 1: entries -/

theorem insertEntry_of_not_mem (k : κ) (v : ν) (keys : List κ) (f : κ → ν) (hk : k ∉ keys) :
    insertEntry k v (keys.map fun k => (k, f k)) = (keys.map fun k => (k, f k)) ++ [(k, v)] := by
  apply insertEntry_of_forall_ne
  intro e he
  obtain ⟨k', hk', rfl⟩ := List.mem_map.1 he
  have hne : k' ≠ k := fun heq => hk (heq ▸ hk')
  simpa using hne

/-- A function that changes at a key stays as it is at the others. -/
theorem map_update_of_not_mem {k : κ} {keys : List κ} (hk : k ∉ keys) (f : κ → ν) (v : ν) :
    (keys.map fun a => (a, Function.update f k v a)) = keys.map fun a => (a, f a) := by
  apply List.map_congr_left
  intro a ha
  have hne : a ≠ k := fun heq => hk (heq ▸ ha)
  rw [Function.update_of_ne hne]

theorem insertEntry_of_mem (k : κ) (v : ν) (keys : List κ) (f : κ → ν) (hk : k ∈ keys)
    (hnodup : keys.Nodup) :
    insertEntry k v (keys.map fun k => (k, f k)) =
      keys.map fun k' => (k', Function.update f k v k') := by
  induction keys with
  | nil => cases hk
  | cons k' rest ih =>
    obtain ⟨hfresh, hrest⟩ := List.nodup_cons.1 hnodup
    by_cases hkk : k' = k
    -- The key stands here, so that it does not come up again.
    · subst hkk
      simp only [List.map_cons, insertEntry, beq_self_eq_true, if_true, Function.update_self]
      rw [map_update_of_not_mem hfresh]
    · have hmem : k ∈ rest := List.mem_of_ne_of_mem (Ne.symm hkk) hk
      simp only [List.map_cons, insertEntry, beq_iff_eq, if_neg hkk, ih hmem hrest,
        Function.update_of_ne hkk]

/-! ## Section 2: maps -/

theorem tabulates_empty (f : κ → ν) : Tabulates empty [] f := rfl

theorem Tabulates.nodup {m : OrderedMap κ ν} {keys : List κ} {f : κ → ν}
    (h : m.Tabulates keys f) : keys.Nodup := by
  have hkeys : m.entries.map Prod.fst = keys := by
    rw [h, List.map_map]
    exact List.map_id _
  have hdistinct := m.distinct
  rw [hkeys] at hdistinct
  exact hdistinct.imp fun hne heq => by simp [heq] at hne

theorem Tabulates.get?_of_mem {m : OrderedMap κ ν} {keys : List κ} {f : κ → ν}
    (h : m.Tabulates keys f) {k : κ} (hk : k ∈ keys) : m.get? k = some (f k) := by
  unfold get?
  rw [h]
  clear h
  induction keys with
  | nil => cases hk
  | cons k' rest ih =>
    -- The first entry decides unless its key is another one.
    by_cases hkk : k' = k
    · simp [hkk]
    · have hmem : k ∈ rest := List.mem_of_ne_of_mem (Ne.symm hkk) hk
      have hskip : ((k', f k').1 == k) = false := by simp [hkk]
      rw [List.map_cons, List.find?_cons_of_neg (by simp [hskip])]
      exact ih hmem

theorem Tabulates.get?_of_not_mem {m : OrderedMap κ ν} {keys : List κ} {f : κ → ν}
    (h : m.Tabulates keys f) {k : κ} (hk : k ∉ keys) : m.get? k = none := by
  unfold get?
  rw [h, Option.map_eq_none_iff, List.find?_eq_none]
  intro e he
  obtain ⟨k', hk', rfl⟩ := List.mem_map.1 he
  have hne : ¬ k' = k := fun heq => hk (heq ▸ hk')
  simpa using hne

/-- The value at a key, where a key that is missing counts as `f` says. -/
theorem Tabulates.getD_eq {m : OrderedMap κ ν} {keys : List κ} {f : κ → ν} {k : κ} {v : ν}
    (h : m.Tabulates keys f) (hv : k ∉ keys → f k = v) : m.getD k v = f k := by
  unfold getD
  by_cases hk : k ∈ keys
  · rw [h.get?_of_mem hk, Option.getD_some]
  · rw [h.get?_of_not_mem hk, Option.getD_none, hv hk]

/-- Inserting under a key changes the function there.  The key keeps its place,
    or comes last if it is new. -/
theorem Tabulates.insert {m : OrderedMap κ ν} {keys : List κ} {f : κ → ν}
    (h : m.Tabulates keys f) (k : κ) (v : ν) :
    (m.insert k v).Tabulates (if k ∈ keys then keys else keys ++ [k]) (Function.update f k v) := by
  show insertEntry k v m.entries = _
  rw [h]
  by_cases hk : k ∈ keys
  · rw [if_pos hk]
    exact insertEntry_of_mem k v keys f hk h.nodup
  · rw [if_neg hk, insertEntry_of_not_mem k v keys f hk, List.map_append,
      map_update_of_not_mem hk, List.map_singleton, Function.update_self]

/-- A key that comes last is kept only if it is new. -/
theorem eraseDups_append_singleton (keys : List κ) (k : κ) :
    (keys ++ [k]).eraseDups =
      if k ∈ keys.eraseDups then keys.eraseDups else keys.eraseDups ++ [k] := by
  rw [List.eraseDups_append]
  by_cases h : k ∈ keys
  · have hgone : [k].removeAll keys = [] := by simp [List.removeAll, h]
    rw [if_pos (List.mem_eraseDups.2 h), hgone]
    exact List.append_nil _
  · have hkept : [k].removeAll keys = [k] := by simp [List.removeAll, h]
    rw [if_neg (mt List.mem_eraseDups.1 h), hkept]
    rfl

/-! ## Section 3: entries -/

theorem nodup_keys (m : OrderedMap κ ν) : m.keys.Nodup :=
  m.distinct.imp fun hne heq => by simp [heq] at hne

section Keys

variable {κ ν : Type} [BEq κ] [LawfulBEq κ]

/-- Among entries with distinct keys the value of a key is that of its entry. -/
theorem find?_key_eq_some_iff {entries : List (κ × ν)} (h : (entries.map Prod.fst).Nodup) {k : κ}
    {v : ν} : (entries.find? fun e => e.1 == k).map Prod.snd = some v ↔ (k, v) ∈ entries := by
  constructor
  · intro hfound
    obtain ⟨e, hfind, rfl⟩ := Option.map_eq_some_iff.1 hfound
    have hk : e.1 = k := by simpa using List.find?_some hfind
    exact hk ▸ List.mem_of_find?_eq_some hfind
  · intro hmem
    cases hfind : entries.find? fun e => e.1 == k with
    | none =>
      have hne := List.find?_eq_none.1 hfind _ hmem
      simp at hne
    | some e =>
      have hk : e.1 = k := by simpa using List.find?_some hfind
      -- Two entries of one key are one entry.
      have heq : e = (k, v) :=
        List.inj_on_of_nodup_map h (List.mem_of_find?_eq_some hfind) hmem hk
      rw [heq]
      rfl

end Keys

/-- The value of a key is that of its entry. -/
theorem get?_eq_some_iff {m : OrderedMap κ ν} {k : κ} {v : ν} :
    m.get? k = some v ↔ (k, v) ∈ m.entries :=
  find?_key_eq_some_iff (nodup_keys m)

section Values

variable {κ ν : Type} [DecidableEq κ] [BEq κ] [LawfulBEq κ]

theorem find?_insertEntry (k k' : κ) (v : ν) (entries : List (κ × ν)) :
    ((insertEntry k v entries).find? fun e => e.1 == k').map Prod.snd =
      if k' = k then some v else (entries.find? fun e => e.1 == k').map Prod.snd := by
  induction entries with
  | nil =>
    by_cases hk : k' = k
    · simp [insertEntry, hk]
    · simp [insertEntry, hk, Ne.symm hk]
  | cons e rest ih =>
    obtain ⟨first, value⟩ := e
    -- An equal key is overwritten in place; otherwise both sides skip the first
    -- entry.
    by_cases hfirst : first = k
    · subst hfirst
      by_cases hk : k' = first
      · simp [insertEntry, hk]
      · simp [insertEntry, hk, Ne.symm hk]
    · rw [insertEntry, if_neg (by simpa using hfirst)]
      by_cases hk : first = k'
      · subst hk
        simp [hfirst]
      · rw [List.find?_cons_of_neg (by simpa using hk), ih, List.find?_cons_of_neg (by simpa using hk)]

/-- Inserting changes the value at one key. -/
theorem get?_insert (m : OrderedMap κ ν) (k k' : κ) (v : ν) :
    (m.insert k v).get? k' = if k' = k then some v else m.get? k' :=
  find?_insertEntry k k' v m.entries

end Values

/-! ## Section 4: pairs with repeated keys -/

section Pairs

variable {κ ν : Type}

/-- The last pair of a key has this value. -/
def IsLast (pairs : List (κ × ν)) (k : κ) (v : ν) : Prop :=
  ∃ before after, pairs = before ++ (k, v) :: after ∧ ∀ e ∈ after, e.1 ≠ k

theorem IsLast.mem {pairs : List (κ × ν)} {k : κ} {v : ν} (h : IsLast pairs k v) :
    (k, v) ∈ pairs := by
  obtain ⟨before, after, rfl, -⟩ := h
  exact List.mem_append_right before List.mem_cons_self

theorem not_isLast_nil (k : κ) (v : ν) : ¬ IsLast [] k v := fun h => List.not_mem_nil h.mem

/-- A pair that comes behind others counts for its key, and the others count for
    theirs. -/
theorem isLast_append_singleton {pairs : List (κ × ν)} {e : κ × ν} {k : κ} {v : ν} :
    IsLast (pairs ++ [e]) k v ↔ (e.1 = k ∧ e.2 = v) ∨ (e.1 ≠ k ∧ IsLast pairs k v) := by
  constructor
  · rintro ⟨before, after, heq, hafter⟩
    -- Either the new entry is the last one of its key, or it has another key
    -- and is skipped.
    rcases List.eq_nil_or_concat after with rfl | ⟨after, e', rfl⟩
    · obtain ⟨-, hlast⟩ := List.append_inj' heq rfl
      cases hlast
      exact .inl ⟨rfl, rfl⟩
    · rw [List.concat_eq_append, ← List.cons_append, ← List.append_assoc] at heq
      obtain ⟨rfl, hlast⟩ := List.append_inj' heq rfl
      cases hlast
      rw [List.concat_eq_append, List.forall_mem_append] at hafter
      exact .inr ⟨hafter.2 e (List.mem_singleton_self e), before, after, rfl, hafter.1⟩
  · rintro (⟨rfl, rfl⟩ | ⟨hne, before, after, rfl, hafter⟩)
    · exact ⟨pairs, [], rfl, fun _ he => (List.not_mem_nil he).elim⟩
    · refine ⟨before, after ++ [e], by simp, ?_⟩
      rw [List.forall_mem_append]
      exact ⟨hafter, fun e' he' => List.mem_singleton.1 he' ▸ hne⟩

theorem exists_isLast {pairs : List (κ × ν)} {k : κ} {v : ν} (h : (k, v) ∈ pairs) :
    ∃ v', IsLast pairs k v' := by
  induction pairs using List.reverseRecOn with
  | nil => cases h
  | append_singleton pairs e ih =>
    by_cases hk : e.1 = k
    · exact ⟨e.2, isLast_append_singleton.2 (.inl ⟨hk, rfl⟩)⟩
    · rcases List.mem_append.1 h with h | h
      · obtain ⟨v', hv'⟩ := ih h
        exact ⟨v', isLast_append_singleton.2 (.inr ⟨hk, hv'⟩)⟩
      · cases List.mem_singleton.1 h
        exact absurd rfl hk

/-- The last values keep their places when all values are replaced. -/
theorem isLast_map_iff {ν' : Type} {pairs : List (κ × ν)} {k : κ} {f : ν → ν'} {w : ν'} :
    IsLast (pairs.map fun e => (e.1, f e.2)) k w ↔ ∃ v, f v = w ∧ IsLast pairs k v := by
  induction pairs using List.reverseRecOn with
  | nil =>
    constructor
    · intro h
      exact (not_isLast_nil k w h).elim
    · rintro ⟨v, -, h⟩
      exact (not_isLast_nil k v h).elim
  | append_singleton pairs e ih =>
    rw [List.map_append, List.map_singleton, isLast_append_singleton, ih]
    simp only [isLast_append_singleton]
    constructor
    · rintro (⟨hk, hw⟩ | ⟨hk, v, hv, hlast⟩)
      · exact ⟨e.2, hw, .inl ⟨hk, rfl⟩⟩
      · exact ⟨v, hv, .inr ⟨hk, hlast⟩⟩
    · rintro ⟨v, hv, ⟨hk, rfl⟩ | ⟨hk, hlast⟩⟩
      · exact .inl ⟨hk, hv⟩
      · exact .inr ⟨hk, v, hv, hlast⟩

section Related

variable {ν' : Type} {R : κ × ν → κ × ν' → Prop} {pairs : List (κ × ν)} {pairs' : List (κ × ν')}

theorem isLast_cons {e : κ × ν} {k : κ} {v : ν} :
    IsLast (e :: pairs) k v ↔ IsLast pairs k v ∨ (e = (k, v) ∧ ∀ e' ∈ pairs, e'.1 ≠ k) := by
  constructor
  · rintro ⟨before, after, heq, hafter⟩
    rcases List.cons_eq_append_iff.1 heq with ⟨rfl, hcons⟩ | ⟨before, rfl, hpairs⟩
    · cases hcons
      exact .inr ⟨rfl, hafter⟩
    · exact .inl ⟨before, after, hpairs, hafter⟩
  · rintro (⟨before, after, rfl, hafter⟩ | ⟨rfl, hafter⟩)
    · exact ⟨e :: before, after, rfl, hafter⟩
    · exact ⟨[], pairs, rfl, hafter⟩

/-- Pairs that are related one by one have related last values. -/
theorem IsLast.exists_of_forall₂ {k : κ} {v : ν} (h : IsLast pairs k v)
    (hkeys : ∀ e e', R e e' → e.1 = e'.1) (hR : List.Forall₂ R pairs pairs') :
    ∃ v', IsLast pairs' k v' ∧ R (k, v) (k, v') := by
  induction hR with
  | nil => exact (not_isLast_nil k v h).elim
  | @cons e e' pairs pairs' he hrest ih =>
    rcases isLast_cons.1 h with h | ⟨rfl, hne⟩
    · obtain ⟨v', hv', hrel⟩ := ih h
      exact ⟨v', isLast_cons.2 (.inl hv'), hrel⟩
    · obtain ⟨k', v'⟩ := e'
      cases hkeys _ _ he
      -- The tails relate entry by entry, so their keys are the same list.
      have hnames : pairs.map Prod.fst = pairs'.map Prod.fst := by
        clear h ih hne
        induction hrest with
        | nil => rfl
        | cons he _ ih => rw [List.map_cons, List.map_cons, hkeys _ _ he, ih]
      refine ⟨v', isLast_cons.2 (.inr ⟨rfl, fun e' he' => ?_⟩), he⟩
      have hmem : e'.1 ∈ pairs.map Prod.fst := hnames ▸ List.mem_map_of_mem he'
      obtain ⟨e'', he'', heq⟩ := List.mem_map.1 hmem
      exact heq ▸ hne e'' he''

end Related

variable [DecidableEq κ]

/-- In a map made of pairs the last one of each key counts. -/
theorem get?_ofList_eq_some_iff {pairs : List (κ × ν)} {k : κ} {v : ν} :
    (ofList pairs).get? k = some v ↔ IsLast pairs k v := by
  induction pairs using List.reverseRecOn with
  | nil => exact ⟨fun h => (by cases h), fun h => (not_isLast_nil k v h).elim⟩
  | append_singleton pairs e ih =>
    have hinsert : ofList (pairs ++ [e]) = (ofList pairs).insert e.1 e.2 := List.foldl_append
    rw [hinsert, get?_insert, isLast_append_singleton, ← ih]
    by_cases hk : k = e.1
    · simp [hk]
    · simp [hk, Ne.symm hk]

theorem IsLast.unique {pairs : List (κ × ν)} {k : κ} {v v' : ν} (h : IsLast pairs k v)
    (h' : IsLast pairs k v') : v = v' := by
  rw [← get?_ofList_eq_some_iff] at h h'
  rw [h] at h'
  exact Option.some.inj h'

/-- In a map each entry is the last one of its key. -/
theorem isLast_entries_iff {m : OrderedMap κ ν} {k : κ} {v : ν} :
    IsLast m.entries k v ↔ m.get? k = some v := by
  rw [get?_eq_some_iff]
  constructor
  · exact IsLast.mem
  · intro hmem
    obtain ⟨v', hv'⟩ := exists_isLast hmem
    have hget := get?_eq_some_iff.2 hv'.mem
    rw [get?_eq_some_iff.2 hmem] at hget
    exact Option.some.inj hget ▸ hv'

end Pairs

end CalibratedCosts.OrderedMap
