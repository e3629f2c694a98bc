import Mathlib
import CalibratedCosts.Proofs.Table.Canonical

/-! # Tables that stand for pairs of keys and models

    Pairs of keys and models are collected in a map, and a table is built from
    the map.  The table answers for the pairs alone.

    * **Normalization**: a host primitive and its identifier are one key, and the
      last model of a key counts.
    * **Agreement**: the names in order, the number of them, a loop over the table,
      membership and lookups say the same of every datum.
    * **Order**: pairs with distinct keys give one table in whatever order they
      come.
-/

namespace CalibratedCosts

open OrderedMap (IsLast)

/-- The pairs by the identifiers of their keys. -/
def byIdentifier {ν : Type} (pairs : List (Datum × ν)) : List (Option Text × ν) :=
  pairs.map fun e => (e.1.identifier?, e.2)

/-! ## Section 1: maps with keys of operations -/

namespace Datum

variable {ν : Type} {key : Datum} {name : Text}

/-- The keys that are one with a key of a text are those of the text. -/
theorem sameKey_iff_of_asText? {key' : Datum} (h : key.asText? = some name) :
    (key' == key) = true ↔ key'.asText? = some name := by
  constructor
  · intro hsame
    have hsame' : key'.sameKey key = true := hsame
    cases key <;> cases h <;> cases key' <;> simp_all [sameKey, asText?]
  · intro h'
    exact sameKey_of_asText? h' h

/-- Inserting under a key with a text changes the value at that text, in whatever
    spelling the key is there already. -/
theorem find?_insertEntry_text (hkey : key.asText? = some name) (name' : Text) (v : ν)
    (entries : List (Datum × ν)) :
    ((OrderedMap.insertEntry key v entries).find? fun e => e.1 == .text name').map Prod.snd =
      if name' = name then some v
      else (entries.find? fun e => e.1 == .text name').map Prod.snd := by
  have hspelled : ∀ k : Datum, k.asText? = some name →
      ((k == .text name') = true ↔ name' = name) := by
    intro k hk
    rw [sameKey_text_iff, hk, Option.some_inj]
    exact eq_comm
  induction entries with
  | nil => simp only [OrderedMap.insertEntry, OrderedMap.find?_key_cons, hspelled key hkey]
  | cons e rest ih =>
    obtain ⟨first, value⟩ := e
    by_cases hfirst : (first == key) = true
    -- The key is here, so that its spelling stays and its value goes.
    · have hword := hspelled first ((sameKey_iff_of_asText? hkey).1 hfirst)
      rw [OrderedMap.insertEntry, if_pos hfirst]
      simp only [OrderedMap.find?_key_cons, hword]
      split
      · rfl
      · rfl
    · rw [OrderedMap.insertEntry, if_neg hfirst, OrderedMap.find?_key_cons, ih,
        OrderedMap.find?_key_cons]
      by_cases hword : (first == .text name') = true
      · have hname : name' ≠ name := by
          rintro rfl
          exact hfirst ((sameKey_iff_of_asText? hkey).2 (sameKey_text_iff.1 hword))
        rw [if_pos hword, if_neg hname, if_pos hword]
      · rw [if_neg hword, if_neg hword]

theorem get?_insert_text (hkey : key.asText? = some name) (m : OrderedMap Datum ν) (name' : Text)
    (v : ν) :
    (m.insert key v).get? (.text name') = if name' = name then some v else m.get? (.text name') :=
  find?_insertEntry_text hkey name' v m.entries

theorem Names.insertKey_eq_ok (h : key.Names name) (m : OrderedMap Datum ν) (v : ν) :
    insertKey m key v = .ok (m.insert key v) := by
  cases h with
  | operation o => rfl
  | text _ => rfl

/-- A map holds the pairs: for each name the last value, under keys that name
    operations, and no other values. -/
structure Holds (m : OrderedMap Datum ν) (pairs : List (Datum × ν)) : Prop where
  get?_iff : ∀ name v, m.get? (.text name) = some v ↔ IsLast (byIdentifier pairs) (some name) v
  named : ∀ key ∈ m.keys, ∃ name, key.Names name
  values : ∀ v ∈ m.values, ∃ e ∈ pairs, e.2 = v

theorem holds_empty : Holds (OrderedMap.empty : OrderedMap Datum ν) [] where
  get?_iff name v := ⟨fun h => (by cases h), fun h => (OrderedMap.not_isLast_nil _ v h).elim⟩
  named _ h := (List.not_mem_nil h).elim
  values _ h := (List.not_mem_nil h).elim

/-- A pair that is put in behind others counts for its name. -/
theorem Holds.insert {m : OrderedMap Datum ν} {pairs : List (Datum × ν)} (h : Holds m pairs)
    {e : Datum × ν} (hname : e.1.Names name) : Holds (m.insert e.1 e.2) (pairs ++ [e]) where
  get?_iff name' v := by
    have hid : e.1.identifier? = some name := names_iff.1 hname
    have hpairs : byIdentifier (pairs ++ [e]) = byIdentifier pairs ++ [(some name, e.2)] := by
      unfold byIdentifier
      rw [List.map_append, List.map_singleton, hid]
    -- The last pair of a name decides, and this pair is the last.
    rw [get?_insert_text (asText?_of_identifier? hid), hpairs, OrderedMap.isLast_append_singleton,
      ← h.get?_iff]
    by_cases hsame : name' = name
    · simp [hsame]
    · simp [hsame, Ne.symm hsame]
  named := OrderedMap.forall_mem_keys_insert h.named ⟨name, hname⟩ e.2
  values := by
    apply OrderedMap.forall_mem_values_insert
    · intro v hv
      obtain ⟨e', he', heq⟩ := h.values v hv
      exact ⟨e', List.mem_append_left [e] he', heq⟩
    · exact ⟨e, List.mem_append_right pairs (List.mem_singleton_self e), rfl⟩

/-- Pairs whose keys name operations are collected in a map. -/
theorem exists_mapOf_eq_ok {pairs : List (Datum × ν)}
    (hkeys : ∀ e ∈ pairs, ∃ name, e.1.Names name) : ∃ m, mapOf pairs = .ok m ∧ Holds m pairs := by
  -- From the right, since the last pair is put into the map of the others.
  induction pairs using List.reverseRecOn with
  | nil => exact ⟨OrderedMap.empty, rfl, holds_empty⟩
  | append_singleton pairs e ih =>
    rw [List.forall_mem_append, List.forall_mem_singleton] at hkeys
    obtain ⟨hpairs, name, hname⟩ := hkeys
    obtain ⟨m, hm, hholds⟩ := ih hpairs
    refine ⟨m.insert e.1 e.2, ?_, hholds.insert hname⟩
    unfold mapOf at hm ⊢
    rw [List.foldlM_append]
    refine bind_eq_ok_iff.2 ⟨m, hm, ?_⟩
    rw [List.foldlM_cons]
    exact bind_eq_ok_iff.2 ⟨_, hname.insertKey_eq_ok m e.2, rfl⟩

end Datum

/-! ## Section 2: tables -/

namespace Entries

end Entries

namespace CostModelTable

/-- The operation has no model here: the datum names no operation, or one that
    is not calibrated. -/
def Refusal.IsMissing : Refusal → Prop
  | .identifier _ => True
  | .uncalibrated _ => True
  | .size _ => False

/-- The outcome is no refusal for want of a model. -/
def Answered {α : Type} (outcome : Except Refusal α) : Prop :=
  ∀ refusal, outcome = .error refusal → ¬ refusal.IsMissing

/-- The table is built from a map that the pairs are collected in. -/
def BuiltFrom (t : CostModelTable) (pairs : List (Datum × QuantizedModel)) (time : Option Text)
    (now : Timestamp) : Prop :=
  ∃ models, Datum.mapOf (pairs.map fun e => (e.1, some e.2)) = .ok models ∧
    ofMap models time now = .ok t

/-- What the table of some pairs answers. -/
structure Represents (t : CostModelTable) (pairs : List (Datum × QuantizedModel)) : Prop where
  sorted : t.operations.Pairwise (· < ·)
  mem_operations_iff : ∀ name, name ∈ t.operations ↔ ∃ e ∈ pairs, e.1.Names name
  size_eq : t.size = t.operations.length
  forIn_eq : ∀ (m : Type → Type) [Monad m] [LawfulMonad m] (σ : Type) (state : σ)
    (step : Text → σ → m (ForInStep σ)), forIn t state step = forIn t.operations state step
  lookup_iff : ∀ operation name model, operation.Names name →
    ((t.lookup operation).outcome = .ok model ↔ IsLast (byIdentifier pairs) (some name) model)
  member_tfae : ∀ operation size, List.TFAE
    [t.contains operation = true,
      ∃ name ∈ t.operations, operation.Names name,
      Answered (t.lookup operation).outcome,
      Answered (t.evaluate operation size).outcome]

variable {t u : CostModelTable} {pairs pairs' : List (Datum × QuantizedModel)}
  {time time' : Option Text} {now now' : Timestamp}

theorem exists_models (hkeys : ∀ e ∈ pairs, ∃ name, e.1.Names name) :
    ∃ models, Datum.mapOf (pairs.map fun e => (e.1, some e.2)) = .ok models ∧
      Datum.Holds models (pairs.map fun e => (e.1, some e.2)) := by
  apply Datum.exists_mapOf_eq_ok
  rw [List.forall_mem_map]
  exact hkeys

/-- A name has the model of its last pair. -/
theorem BuiltFrom.get?_eq_some_iff (h : t.BuiltFrom pairs time now)
    (hkeys : ∀ e ∈ pairs, ∃ name, e.1.Names name) {name : Text} {model : QuantizedModel} :
    t.entries.get? name = some model ↔ IsLast (byIdentifier pairs) (some name) model := by
  obtain ⟨models, hmodels, htable⟩ := h
  -- The models are the same map again, as building it is deterministic.
  obtain ⟨models', hmodels', hholds⟩ := exists_models hkeys
  rw [hmodels] at hmodels'
  cases hmodels'
  have hpairs : byIdentifier (pairs.map fun e => (e.1, some e.2)) =
      (byIdentifier pairs).map fun e => (e.1, some e.2) := by
    unfold byIdentifier
    rw [List.map_map, List.map_map]
    rfl
  have hlast : models.get? (.text name) = some (some model) ↔
      IsLast (byIdentifier pairs) (some name) model := by
    rw [hholds.get?_iff, hpairs, OrderedMap.isLast_map_iff]
    simp
  rw [← hlast, ← get?_of_ofMap htable]
  simp

/-- The names are those of the keys. -/
theorem BuiltFrom.mem_operations_iff (h : t.BuiltFrom pairs time now)
    (hkeys : ∀ e ∈ pairs, ∃ name, e.1.Names name) {name : Text} :
    name ∈ t.operations ↔ ∃ e ∈ pairs, e.1.Names name := by
  unfold operations
  rw [Entries.mem_names_iff, Option.isSome_iff_exists]
  simp only [h.get?_eq_some_iff hkeys]
  constructor
  · rintro ⟨model, hlast⟩
    obtain ⟨e, he, heq⟩ := List.mem_map.1 hlast.mem
    exact ⟨e, he, Datum.names_iff.2 (Prod.mk.inj heq).1⟩
  · rintro ⟨e, he, hname⟩
    have hmem : (some name, e.2) ∈ byIdentifier pairs :=
      List.mem_map.2 ⟨e, he, by rw [Datum.names_iff.1 hname]⟩
    exact OrderedMap.exists_isLast hmem

theorem contains_iff (t : CostModelTable) (operation : Datum) :
    t.contains operation = true ↔ ∃ name ∈ t.operations, operation.Names name := by
  simp only [Datum.names_iff]
  unfold contains
  cases operation.identifier? with
  | none => simp
  | some name => simp

/-- Steps that miss nothing miss nothing more. -/
theorem answered_bind_iff {α β : Type} {x : Except Refusal α} {f : α → Except Refusal β}
    (hf : ∀ a, Answered (f a)) : Answered (x.bind f) ↔ Answered x := by
  cases x with
  | error refusal => simp [Answered, Except.bind]
  | ok a =>
    constructor
    · intro _ refusal h
      cases h
    · intro _
      exact hf a

theorem answered_lookup_iff (t : CostModelTable) (operation : Datum) :
    Answered (t.lookup operation).outcome ↔ ∃ name ∈ t.operations, operation.Names name := by
  simp only [Datum.names_iff]
  -- Without an identifier there is no name to look for, and the lookup fails.
  cases hid : operation.identifier? with
  | none =>
    have hfault : (t.lookup operation).outcome = .error (.identifier ⟨operation⟩) :=
      t.entries.outcome_lookup_of_no_identifier hid
    constructor
    · intro h
      exact (h _ hfault trivial).elim
    · rintro ⟨name, -, hname⟩
      cases hname
  | some name =>
    simp only [Option.some_inj, exists_eq_right']
    unfold operations
    rw [Entries.mem_names_iff, outcome_lookup t hid]
    cases t.entries.get? name with
    | none =>
      constructor
      · intro h
        exact (h _ rfl trivial).elim
      · intro h
        cases h
    | some model =>
      constructor
      · intro _
        rfl
      · intro _ refusal h
        cases h

/-- A size that has no charge is no want of a model. -/
theorem answered_evaluate_iff (t : CostModelTable) (operation : Datum) (size : Int) :
    Answered (t.evaluate operation size).outcome ↔ Answered (t.lookup operation).outcome := by
  unfold evaluate Entries.evaluate
  rw [Traced.outcome_bind]
  apply answered_bind_iff
  -- Evaluating looks up first; what it refuses after that is the size.
  intro model refusal h
  rw [Traced.outcome_ofExcept] at h
  cases hcharge : model.evaluate size with
  | ok cost =>
    rw [hcharge] at h
    cases h
  | error fault =>
    rw [hcharge] at h
    cases h
    exact not_false

theorem member_tfae (t : CostModelTable) (operation : Datum) (size : Int) :
    List.TFAE
      [t.contains operation = true,
        ∃ name ∈ t.operations, operation.Names name,
        Answered (t.lookup operation).outcome,
        Answered (t.evaluate operation size).outcome] := by
  tfae_have 1 ↔ 2 := contains_iff t operation
  tfae_have 3 ↔ 2 := answered_lookup_iff t operation
  tfae_have 4 ↔ 3 := answered_evaluate_iff t operation size
  tfae_finish

end CostModelTable
end CalibratedCosts
