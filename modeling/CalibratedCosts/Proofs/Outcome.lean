import Mathlib

/-! # Outcomes

    A sequence of computations succeeds exactly if each of them does.
-/

namespace CalibratedCosts

variable {ε α β : Type}

theorem bind_eq_ok_iff {x : Except ε α} {f : α → Except ε β} {b : β} :
    x >>= f = .ok b ↔ ∃ a, x = .ok a ∧ f a = .ok b := by
  cases x with
  | error e => simp [bind, Except.bind]
  | ok a => simp [bind, Except.bind]

/-- A sequence of two succeeds if the first step does, and the second on its
    result. -/
theorem exists_bind_eq_ok_iff {x : Except ε α} {f : α → Except ε β} :
    (∃ b, x >>= f = .ok b) ↔ ∃ a, x = .ok a ∧ ∃ b, f a = .ok b := by
  constructor
  · rintro ⟨b, hb⟩
    obtain ⟨a, ha, hfa⟩ := bind_eq_ok_iff.1 hb
    exact ⟨a, ha, b, hfa⟩
  · rintro ⟨a, ha, b, hfa⟩
    exact ⟨b, bind_eq_ok_iff.2 ⟨a, ha, hfa⟩⟩

/-- A sequence of two does not fail with an error that neither of them fails
    with. -/
theorem bind_ne_error {e : ε} {x : Except ε α} {f : α → Except ε β} (hx : x ≠ .error e)
    (hf : ∀ a, f a ≠ .error e) : x.bind f ≠ .error e := by
  cases x with
  | error e' =>
    intro h
    cases h
    exact hx rfl
  | ok a => exact hf a

theorem map_eq_ok_iff {x : Except ε α} {f : α → β} {b : β} :
    x.map f = .ok b ↔ ∃ a, x = .ok a ∧ f a = b := by
  cases x with
  | error e => simp [Except.map]
  | ok a => simp [Except.map]

theorem map_bind_eq {γ : Type} (x : Except ε α) (f : α → Except ε β) (g : β → γ) :
    (x >>= f).map g = x >>= fun a => (f a).map g := by
  cases x with
  | error e => rfl
  | ok a => rfl

theorem mapError_eq_ok_iff {ε' : Type} {x : Except ε α} {f : ε → ε'} {a : α} :
    x.mapError f = .ok a ↔ x = .ok a := by
  cases x with
  | error e => simp [Except.mapError]
  | ok a => simp [Except.mapError]

theorem toOption_eq_some_iff {x : Except ε α} {a : α} : x.toOption = some a ↔ x = .ok a := by
  cases x with
  | error e => simp [Except.toOption]
  | ok a => simp [Except.toOption]

theorem mapM_eq_ok_iff {f : α → Except ε β} {as : List α} {bs : List β} :
    as.mapM f = .ok bs ↔ List.Forall₂ (fun a b => f a = .ok b) as bs := by
  induction as generalizing bs with
  | nil =>
    rw [List.mapM_nil, List.forall₂_nil_left_iff]
    exact ⟨fun h => (Except.ok.inj h).symm, fun h => by rw [h]; rfl⟩
  | cons a rest ih =>
    rw [List.mapM_cons, List.forall₂_cons_left_iff, bind_eq_ok_iff]
    constructor
    · rintro ⟨b, hb, hrest⟩
      obtain ⟨bs', hbs', heq⟩ := bind_eq_ok_iff.1 hrest
      exact ⟨b, bs', hb, ih.1 hbs', (Except.ok.inj heq).symm⟩
    · rintro ⟨b, bs', hb, hbs', rfl⟩
      exact ⟨b, hb, bind_eq_ok_iff.2 ⟨bs', ih.2 hbs', rfl⟩⟩

/-- A sequence succeeds if each computation does. -/
theorem exists_mapM_eq_ok_iff {f : α → Except ε β} {as : List α} :
    (∃ bs, as.mapM f = .ok bs) ↔ ∀ a ∈ as, ∃ b, f a = .ok b := by
  induction as with
  | nil => exact ⟨fun _ _ ha => (List.not_mem_nil ha).elim, fun _ => ⟨[], rfl⟩⟩
  | cons a rest ih =>
    rw [List.mapM_cons, exists_bind_eq_ok_iff, List.forall_mem_cons, ← ih]
    constructor
    · rintro ⟨b, hb, bs, hrest⟩
      obtain ⟨bs', hbs', -⟩ := bind_eq_ok_iff.1 hrest
      exact ⟨⟨b, hb⟩, bs', hbs'⟩
    · rintro ⟨⟨b, hb⟩, bs, hbs⟩
      exact ⟨b, hb, b :: bs, bind_eq_ok_iff.2 ⟨bs, hbs, rfl⟩⟩

/-- Each result comes from one of the computations. -/
theorem exists_of_mem_mapM {f : α → Except ε β} {as : List α} {bs : List β}
    (h : as.mapM f = .ok bs) {b : β} (hb : b ∈ bs) : ∃ a ∈ as, f a = .ok b := by
  rw [mapM_eq_ok_iff] at h
  induction h with
  | nil => cases hb
  | cons hab _ ih =>
    rcases List.mem_cons.1 hb with rfl | hb
    · exact ⟨_, List.mem_cons_self, hab⟩
    · obtain ⟨a, ha, hfa⟩ := ih hb
      exact ⟨a, List.mem_cons_of_mem _ ha, hfa⟩

/-- What each step keeps is kept by a sequence of steps. -/
theorem of_foldlM_eq_ok {f : β → α → Except ε β} {P : β → Prop} {as : List α} {b b' : β}
    (h : as.foldlM f b = .ok b') (hb : P b)
    (hstep : ∀ a ∈ as, ∀ c c', P c → f c a = .ok c' → P c') : P b' := by
  induction as generalizing b with
  | nil =>
    cases h
    exact hb
  | cons a rest ih =>
    obtain ⟨ha, hrest⟩ := List.forall_mem_cons.1 hstep
    rw [List.foldlM_cons] at h
    obtain ⟨c, hc, h⟩ := bind_eq_ok_iff.1 h
    exact ih h (ha b c hb hc) hrest

/-- A sequence of steps succeeds if each step does from wherever it starts. -/
theorem exists_foldlM_eq_ok {f : β → α → Except ε β} {as : List α}
    (h : ∀ a ∈ as, ∀ b, ∃ b', f b a = .ok b') (b : β) : ∃ b', as.foldlM f b = .ok b' := by
  induction as generalizing b with
  | nil => exact ⟨b, rfl⟩
  | cons a rest ih =>
    obtain ⟨ha, hrest⟩ := List.forall_mem_cons.1 h
    rw [List.foldlM_cons, exists_bind_eq_ok_iff]
    obtain ⟨c, hc⟩ := ha b
    exact ⟨c, hc, ih hrest c⟩

/-- If a sequence of steps fails, one of them does. -/
theorem exists_of_foldlM_eq_error {f : β → α → Except ε β} {as : List α} {b : β} {e : ε}
    (h : as.foldlM f b = .error e) : ∃ a ∈ as, ∃ c, f c a = .error e := by
  induction as generalizing b with
  | nil => cases h
  | cons a rest ih =>
    rw [List.foldlM_cons] at h
    cases hc : f b a with
    | error e' =>
      rw [hc] at h
      cases h
      exact ⟨a, List.mem_cons_self, b, hc⟩
    | ok c =>
      rw [hc] at h
      obtain ⟨a', ha', c', hc'⟩ := ih h
      exact ⟨a', List.mem_cons_of_mem _ ha', c', hc'⟩

/-- Where not all elements have a property, there is a first one without it. -/
theorem exists_first_not {P : α → Prop} {as : List α} (h : ¬ ∀ a ∈ as, P a) :
    ∃ before a after, as = before ++ a :: after ∧ (∀ b ∈ before, P b) ∧ ¬ P a := by
  induction as with
  | nil => exact absurd (fun _ ha => (List.not_mem_nil ha).elim) h
  | cons first rest ih =>
    by_cases hfirst : P first
    · have hrest : ¬ ∀ a ∈ rest, P a := fun hrest => h (List.forall_mem_cons.2 ⟨hfirst, hrest⟩)
      obtain ⟨before, a, after, rfl, hbefore, ha⟩ := ih hrest
      exact ⟨first :: before, a, after, rfl, List.forall_mem_cons.2 ⟨hfirst, hbefore⟩, ha⟩
    · exact ⟨[], first, rest, rfl, fun _ hb => (List.not_mem_nil hb).elim, hfirst⟩

/-- The same for steps, each of which fails or not wherever it starts. -/
theorem foldlM_append_of_error {f : β → α → Except ε β} {before after : List α} {a : α} {e : ε}
    (hbefore : ∀ a ∈ before, ∀ b, ∃ b', f b a = .ok b') (ha : ∀ b, f b a = .error e) (b : β) :
    (before ++ a :: after).foldlM f b = .error e := by
  obtain ⟨c, hc⟩ := exists_foldlM_eq_ok hbefore b
  rw [List.foldlM_append, hc]
  show (f c a >>= _) = _
  rw [ha c]
  rfl

variable {γ : Type} {R : α → β → Prop} {as : List α} {bs : List β}

theorem forall_mem_of_forall₂ {P : β → Prop} (h : List.Forall₂ R as bs)
    (hstep : ∀ a b, R a b → P b) : ∀ b ∈ bs, P b := by
  induction h with
  | nil => simp
  | cons hab _ ih => exact List.forall_mem_cons.2 ⟨hstep _ _ hab, ih⟩

theorem exists_mem_of_forall₂ (h : List.Forall₂ R as bs) {a : α} (ha : a ∈ as) :
    ∃ b ∈ bs, R a b := by
  obtain ⟨k, hk, rfl⟩ := List.getElem_of_mem ha
  have hk' : k < bs.length := by rwa [← h.length_eq]
  exact ⟨_, List.getElem_mem hk', h.get hk hk'⟩

/-- What the relation carries over for two elements it carries over for all
    pairs of them. -/
theorem pairwise_of_forall₂ {P : α → α → Prop} {Q : β → β → Prop} (h : List.Forall₂ R as bs)
    (hpairs : as.Pairwise P)
    (hstep : ∀ {a a' b b'}, R a b → R a' b' → P a a' → Q b b') : bs.Pairwise Q := by
  induction h with
  | nil => exact .nil
  | @cons a b as bs hab hrest ih =>
    obtain ⟨hfirst, hpairs⟩ := List.pairwise_cons.1 hpairs
    refine List.pairwise_cons.2 ⟨?_, ih hpairs⟩
    intro b' hb'
    -- A member of one list stands at the same place as its partner in the
    -- other.
    obtain ⟨k, hk, rfl⟩ := List.getElem_of_mem hb'
    have hk' : k < as.length := by rwa [hrest.length_eq]
    exact hstep hab (hrest.get hk' hk) (hfirst _ (List.getElem_mem hk'))

/-- Related elements make up related lists. -/
theorem exists_forall₂ (h : ∀ a ∈ as, ∃ b, R a b) : ∃ bs, List.Forall₂ R as bs := by
  induction as with
  | nil => exact ⟨[], .nil⟩
  | cons a rest ih =>
    obtain ⟨⟨b, hb⟩, hrest⟩ := List.forall_mem_cons.1 h
    obtain ⟨bs, hbs⟩ := ih hrest
    exact ⟨b :: bs, .cons hb hbs⟩

/-- Two sequences, the second one on the results of the first, succeed if each
    element passes both. -/
theorem mapM_bind_mapM_eq_ok_iff {f : α → Except ε β} {g : β → Except ε γ} {cs : List γ} :
    (as.mapM f >>= fun bs => bs.mapM g) = .ok cs ↔
      List.Forall₂ (fun a c => ∃ b, f a = .ok b ∧ g b = .ok c) as cs := by
  rw [bind_eq_ok_iff]
  simp only [mapM_eq_ok_iff]
  constructor
  -- Induction on the first pass, which tells what the second one starts from.
  · rintro ⟨bs, hfirst, hsecond⟩
    induction hfirst generalizing cs with
    | nil =>
      cases hsecond
      exact .nil
    | cons hb _ ih =>
      cases hsecond with
      | cons hc hrest => exact .cons ⟨_, hb, hc⟩ (ih hrest)
  · intro h
    induction h with
    | nil => exact ⟨[], .nil, .nil⟩
    | cons hbc _ ih =>
      obtain ⟨b, hb, hc⟩ := hbc
      obtain ⟨bs, hfirst, hsecond⟩ := ih
      exact ⟨b :: bs, .cons hb hfirst, .cons hc hsecond⟩

/-- What is related to each element of a list is related to the list. -/
theorem exists_forall₂_and {S : β → γ → Prop} {T : α → γ → Prop} (h : List.Forall₂ R as bs)
    (hstep : ∀ a b, R a b → ∃ c, S b c ∧ T a c) :
    ∃ cs, List.Forall₂ S bs cs ∧ List.Forall₂ T as cs := by
  induction h with
  | nil => exact ⟨[], .nil, .nil⟩
  | cons hab _ ih =>
    obtain ⟨c, hbc, hac⟩ := hstep _ _ hab
    obtain ⟨cs, hbcs, hacs⟩ := ih
    exact ⟨c :: cs, .cons hbc hbcs, .cons hac hacs⟩

end CalibratedCosts
