/-! # Maps in insertion order

    A finite map whose entries stand in the order in which their keys were
    first inserted.  Inserting under a key that is already there keeps the
    place and the first spelling of the key and replaces the value.
-/

namespace CalibratedCosts

variable {κ ν : Type}

/-- A finite map with its entries in insertion order.  No two keys agree. -/
structure OrderedMap (κ ν : Type) [BEq κ] where
  entries : List (κ × ν)
  distinct : (entries.map Prod.fst).Pairwise (fun k k' => (k == k') = false)

namespace OrderedMap

/-! ## Section 1: lists of entries -/

/-- Replaces the value of the first entry whose key agrees with `k`, or adds
    an entry at the end. -/
def insertEntry [BEq κ] (k : κ) (v : ν) : List (κ × ν) → List (κ × ν)
  | [] => [(k, v)]
  | (k', v') :: rest =>
    if k' == k then (k', v) :: rest else (k', v') :: insertEntry k v rest

/-- A key that is there already leaves the keys as they are; any other comes
    last. -/
theorem keys_insertEntry [BEq κ] (k : κ) (v : ν) (entries : List (κ × ν)) :
    (insertEntry k v entries).map Prod.fst =
      if entries.any (fun e => e.1 == k) then entries.map Prod.fst
      else entries.map Prod.fst ++ [k] := by
  induction entries with
  | nil => rfl
  | cons e rest ih =>
    obtain ⟨k', v'⟩ := e
    by_cases h : (k' == k) = true
    · simp [insertEntry, h]
    · simp only [insertEntry, h, Bool.false_eq_true, if_false, List.map_cons, ih, List.any_cons,
        Bool.false_or]
      split <;> simp

theorem distinct_insertEntry [BEq κ] (k : κ) (v : ν) (entries : List (κ × ν))
    (h : (entries.map Prod.fst).Pairwise (fun k k' => (k == k') = false)) :
    ((insertEntry k v entries).map Prod.fst).Pairwise (fun k k' => (k == k') = false) := by
  rw [keys_insertEntry]
  split
  · exact h
  · rename_i hk
    rw [List.pairwise_append]
    refine ⟨h, List.pairwise_singleton _ _, ?_⟩
    intro a ha b hb
    simp only [List.mem_singleton] at hb
    subst hb
    simp only [List.any_eq_true, not_exists, not_and, Bool.not_eq_true] at hk
    obtain ⟨e, he, rfl⟩ := List.mem_map.1 ha
    exact hk e he

/-! ## Section 2: operations -/

variable [BEq κ]

def empty : OrderedMap κ ν := ⟨[], List.Pairwise.nil⟩

instance : Inhabited (OrderedMap κ ν) := ⟨empty⟩

/-- The map with the value `v` at `k`. -/
def insert (m : OrderedMap κ ν) (k : κ) (v : ν) : OrderedMap κ ν :=
  ⟨insertEntry k v m.entries, distinct_insertEntry k v m.entries m.distinct⟩

/-- The map without an entry at `k`. -/
def erase (m : OrderedMap κ ν) (k : κ) : OrderedMap κ ν :=
  ⟨m.entries.filter fun e => !(e.1 == k),
    m.distinct.sublist (List.filter_sublist.map Prod.fst)⟩

/-- The value at `k`. -/
def get? (m : OrderedMap κ ν) (k : κ) : Option ν :=
  (m.entries.find? fun e => e.1 == k).map Prod.snd

/-- The value at `k`, or `v` if there is none. -/
def getD (m : OrderedMap κ ν) (k : κ) (v : ν) : ν := (m.get? k).getD v

/-- Some key agrees with `k`. -/
def contains (m : OrderedMap κ ν) (k : κ) : Bool := m.entries.any fun e => e.1 == k

/-- The keys in insertion order. -/
def keys (m : OrderedMap κ ν) : List κ := m.entries.map Prod.fst

/-- The values in insertion order of their keys. -/
def values (m : OrderedMap κ ν) : List ν := m.entries.map Prod.snd

def size (m : OrderedMap κ ν) : Nat := m.entries.length

/-- Inserts pairs from the left, so that of pairs with one key the last one
    gives the value. -/
def ofList (pairs : List (κ × ν)) : OrderedMap κ ν :=
  pairs.foldl (fun m (k, v) => m.insert k v) empty

end OrderedMap
end CalibratedCosts
