import Mathlib
import CalibratedCosts.Calibration
import CalibratedCosts.Proofs.Datum
import CalibratedCosts.Proofs.Outcome

/-! # Operations are calibrated one by one

    What becomes of an operation in a run depends on its own samples.

    * **Own outcome**: what the samples of one operation come to, without a
      run around them.  A step of a run reports it as it is, as a success or
      as a failure.
    * **No report**: an error without a message ends the run.  It comes up
      only where the first sample that is no integer of 64 bits cannot be
      shown, since it holds an integer beyond the digit limit or is nested too
      deep.
-/

namespace CalibratedCosts.Calibration

variable {α : Type} [Quantity α] [Numerics α] {key samples : Datum} {name : Text}

/-! ## Section 1: keys -/

/-- The only key of the empty name is the empty text. -/
theorem eq_text_of_asText?_eq_empty (h : key.asText? = some ("" : Text)) : key = .text "" := by
  cases key with
  | text t =>
    cases h
    rfl
  | operation o =>
    have hidentifier : (o.identifier : Text) = "" := Option.some.inj h
    cases o <;> exact absurd hidentifier (by decide)
  | _ => cases h

theorem identifier?_eq_some (h : key.asText? = some name) (hname : name ≠ "") :
    key.identifier? = some name := by
  unfold Datum.identifier?
  rw [h]
  exact if_neg hname

theorem plain_of_asText? (h : key.asText? = some name) : key.plain = name := by
  unfold Datum.plain
  rw [h]
  rfl

variable [Datum.CallRoom]

/-- A text stands for itself, and so does the identifier of an operation. -/
theorem plain?_of_asText? (h : key.asText? = some name) : key.plain? = .ok name := by
  unfold Datum.plain? Datum.plainFault?
  rw [h, plain_of_asText? h]

/-! ## Section 2: own outcomes -/

/-- What the samples of an operation come to on their own: a fitted model with
    its quantized form, or the error of the first step that fails.  There is
    no operation without a name. -/
def ownOutcome (name : Text) (samples : Datum) :
    Except (CostModelError α) (CostModel α × QuantizedModel) :=
  if name = "" then .error (.invalidSampleSet (.invalidIdentifier (Datum.text name).shown))
  else (calibrateSamples name samples).outcome

/-- What a run may report of an operation. -/
inductive Outcome.Reports (name : Text) (samples : Datum) : Outcome α → Prop
  | calibrated {c : Calibrated α} (hname : c.name = name)
    (h : ownOutcome name samples = .ok (c.model, c.quantized)) : Reports name samples (.calibrated c)
  | failed {e : CostModelError α} (h : ownOutcome name samples = .error e)
    (hshown : ∀ fault, e ≠ .unshown fault) : Reports name samples (.failed name e)

/-! ## Section 3: one step -/

theorem outcome_calibrateNamed_empty :
    (calibrateNamed (α := α) (.text "") samples).outcome =
      .error (.invalidSampleSet (.invalidIdentifier (Datum.text "").shown)) := by
  unfold calibrateNamed
  split
  · rfl
  · rename_i hsome
    cases hsome

theorem outcome_calibrateNamed (hkey : key.asText? = some name) (hname : name ≠ "") :
    (calibrateNamed (α := α) key samples).outcome =
      (calibrateSamples name samples).outcome.map fun r => ⟨name, hname, r.1, r.2⟩ := by
  have hsome := identifier?_eq_some hkey hname
  unfold calibrateNamed
  split
  -- The key has a name, so that it is not refused.
  · rename_i hnone
    rw [hsome] at hnone
    cases hnone
  · rename_i name' hsome'
    obtain rfl : name = name' := Option.some.inj (hsome.symm.trans hsome')
    rw [Traced.outcome_bind]
    cases (calibrateSamples (α := α) name samples).outcome with
    | error e => rfl
    | ok result => rfl

/-- What a key gives a run, given what it gives on its own. -/
theorem outcome_calibrateOne (hkey : key.asText? = some name) :
    (calibrateOne (α := α) key samples).outcome =
      match (calibrateNamed key samples).outcome with
      | .ok result => .ok (.calibrated result)
      | .error (.unshown fault) => .error (.unshown fault)
      | .error e => .ok (.failed name e) := by
  unfold calibrateOne
  rw [plain?_of_asText? hkey]
  -- Only two outcomes are told apart here: a failure that can be shown and one
  -- that cannot.
  show (match (calibrateNamed key samples).outcome with
    | .ok result => (⟨.ok (.calibrated result), _⟩ : Traced Fault (Outcome α))
    | .error (.unshown fault) => ⟨.error (.unshown fault), _⟩
    | .error e => ⟨.ok (.failed name e), _⟩).outcome = _
  cases (calibrateNamed (α := α) key samples).outcome with
  | ok result => rfl
  | error e => cases e <;> rfl

/-- A step reports what the samples come to on their own, unless that is an
    error without a message. -/
theorem calibrateOne_cases (hkey : key.asText? = some name) :
    (∃ o : Outcome α, (calibrateOne key samples).outcome = .ok o ∧ o.Reports name samples) ∨
    ∃ fault, (calibrateOne (α := α) key samples).outcome = .error (.unshown fault) ∧
      ownOutcome (α := α) name samples = .error (.unshown fault) := by
  rw [outcome_calibrateOne hkey]
  by_cases hname : name = ""
  -- Without a name the job fails before its samples are looked at.
  · subst hname
    obtain rfl := eq_text_of_asText?_eq_empty hkey
    rw [outcome_calibrateNamed_empty]
    exact .inl ⟨_, rfl, .failed (if_pos rfl) (by simp)⟩
  · rw [outcome_calibrateNamed hkey hname]
    have hown : ownOutcome (α := α) name samples = (calibrateSamples name samples).outcome :=
      if_neg hname
    cases hsamples : (calibrateSamples (α := α) name samples).outcome with
    | ok result =>
      rw [hsamples] at hown
      exact .inl ⟨_, rfl, .calibrated rfl hown⟩
    | error e =>
      rw [hsamples] at hown
      -- Any other failure is caught and becomes one of the report.
      by_cases hshown : ∀ fault, e ≠ .unshown fault
      · refine .inl ⟨.failed name e, ?_, .failed hown hshown⟩
        cases e <;> first | rfl | exact absurd rfl (hshown _)
      · push Not at hshown
        obtain ⟨fault, rfl⟩ := hshown
        exact .inr ⟨fault, rfl, hown⟩

/-! ## Section 4: all steps -/

/-- All keys are texts or host operations. -/
def Jobs.Named (jobs : Jobs) : Prop := ∀ key ∈ jobs.keys, key.asText?.isSome

instance (jobs : Jobs) : Decidable jobs.Named :=
  inferInstanceAs (Decidable (∀ key ∈ jobs.keys, key.asText?.isSome))

theorem outcome_calibrateAll (jobs : List (Datum × Datum)) :
    (calibrateAll (α := α) jobs).outcome =
      jobs.mapM fun job => (calibrateOne job.1 job.2).outcome := by
  -- Each job is calibrated by itself, and the first fault ends the run.
  induction jobs with
  | nil => rfl
  | cons job rest ih =>
    obtain ⟨key, samples⟩ := job
    rw [calibrateAll, Traced.outcome_bind, List.mapM_cons]
    show Except.bind _ _ = Except.bind _ _
    congr 1
    funext outcome
    rw [Traced.outcome_bind, ih]
    rfl

/-- Every job is reported on, in job order. -/
theorem reports_of_calibrateAll {jobs : List (Datum × Datum)}
    (hkeys : ∀ job ∈ jobs, job.1.asText?.isSome) {outcomes : List (Outcome α)}
    (h : (calibrateAll jobs).outcome = .ok outcomes) :
    List.Forall₂ (fun job o => Outcome.Reports job.1.plain job.2 o) jobs outcomes := by
  rw [outcome_calibrateAll, mapM_eq_ok_iff] at h
  refine ((List.forall₂_and_left jobs outcomes).2 ⟨hkeys, h⟩).imp ?_
  rintro job o ⟨hkey, ho⟩
  obtain ⟨name, hname⟩ := Option.isSome_iff_exists.1 hkey
  rw [plain_of_asText? hname]
  -- A job that has an outcome has none of the faults.
  rcases calibrateOne_cases (α := α) hname with ⟨o', ho', hreports⟩ | ⟨fault, herror, -⟩
  · rw [ho'] at ho
    cases ho
    exact hreports
  · rw [herror] at ho
    cases ho

/-- All steps are taken unless the samples of some job come to an error without
    a message. -/
theorem exists_calibrateAll_iff {jobs : List (Datum × Datum)}
    (hkeys : ∀ job ∈ jobs, job.1.asText?.isSome) :
    (∃ outcomes : List (Outcome α), (calibrateAll jobs).outcome = .ok outcomes) ↔
      ∀ job ∈ jobs,
        ¬ ∃ fault, ownOutcome (α := α) job.1.plain job.2 = .error (.unshown fault) := by
  rw [outcome_calibrateAll, exists_mapM_eq_ok_iff]
  apply forall₂_congr
  intro job hjob
  obtain ⟨name, hname⟩ := Option.isSome_iff_exists.1 (hkeys job hjob)
  rw [plain_of_asText? hname]
  rcases calibrateOne_cases (α := α) hname with ⟨o, ho, hreports⟩ | ⟨fault, herror, hown⟩
  -- An outcome is reported under the name, and what it reports can be shown.
  · refine ⟨fun _ ⟨fault, hown⟩ => ?_, fun _ => ⟨o, ho⟩⟩
    cases hreports with
    | calibrated _ h =>
      rw [hown] at h
      cases h
    | failed h hshown =>
      rw [hown] at h
      cases h
      exact hshown fault rfl
  · refine ⟨fun ⟨o, ho⟩ => ?_, fun hne => absurd ⟨fault, hown⟩ hne⟩
    rw [herror] at ho
    cases ho

/-! ## Section 5: errors without a message -/

/-- A 64-bit unsigned integer. -/
def isU64 : Datum → Bool
  | .whole n => (u64OfInt? n).isSome
  | _ => false

/-- The datum has no integer beyond the digit limit, and its nesting leaves
    room for all calls. -/
def isShowable (d : Datum) : Bool := d.isWritable && decide (d.depth ≤ Datum.CallRoom.levels)

/-- The first entry that is no 64-bit integer, of the sizes or else of the
    costs, cannot be shown. -/
def hidesUnshowable (samples : Datum) : Bool :=
  match SampleSet.splitPairs samples with
  | .error _ => false
  | .ok pairs =>
    ((pairs.map Prod.fst ++ pairs.map Prod.snd).find? fun d => !isU64 d).any fun d => !isShowable d

theorem showFault?_eq_none_iff {d : Datum} :
    d.showFault? Datum.CallRoom.levels = none ↔ isShowable d = true := by
  rw [Datum.showFault?_eq_none_iff, isShowable, Bool.and_eq_true, decide_eq_true_iff]

/-- An integer has no parts, so that only its digits can be too many. -/
theorem isShowable_whole (n : Int) : isShowable (.whole n) = Numeral.isWritable n := by
  have hroom : (Datum.whole n).depth ≤ Datum.CallRoom.levels :=
    le_trans (by simp only [Datum.depth]; decide) Datum.CallRoom.three_le
  rw [isShowable, decide_eq_true hroom, Bool.and_true, Datum.isWritable]

section Columns

variable {β : Type} {column : Column} {index : ℕ} {d : Datum} {ds : List Datum}

theorem exists_checkEntry_of_isU64 (h : isU64 d) :
    ∃ n, SampleSet.checkEntry (α := β) column index d = .ok n := by
  cases d with
  | whole n =>
    obtain ⟨value, hvalue⟩ := Option.isSome_iff_exists.1 h
    refine ⟨value, ?_⟩
    simp only [SampleSet.checkEntry, hvalue]
  | _ => cases h

/-- An entry that is refused is refused without a message if it cannot be
    shown. -/
theorem exists_checkEntry_of_not_isU64 (h : isU64 d = false) :
    ∃ e, SampleSet.checkEntry (α := β) column index d = .error e ∧
      ((∃ fault, e = .unshown fault) ↔ isShowable d = false) := by
  by_cases hwhole : ∃ n, d = .whole n
  · obtain ⟨n, rfl⟩ := hwhole
    have hnone : u64OfInt? n = none := by simpa [isU64] using h
    simp only [SampleSet.checkEntry, hnone, isShowable_whole]
    cases Numeral.isWritable n <;> simp
  -- What is no integer is shown in the message, if it can be.
  · rw [← Bool.not_eq_true, ← showFault?_eq_none_iff]
    cases hfault : d.showFault? Datum.CallRoom.levels with
    | none =>
      have hshown : d.shown? = .ok d.shown := by rw [Datum.shown?, hfault]
      refine ⟨.invalidSampleSet (.notAnInteger column index d.shown), ?_, by simp⟩
      cases d with
      | whole n => exact absurd ⟨n, rfl⟩ hwhole
      | _ => simp only [SampleSet.checkEntry, hshown]
    | some fault =>
      have hshown : d.shown? = .error fault := by rw [Datum.shown?, hfault]
      refine ⟨.unshown fault, ?_, by simp⟩
      cases d with
      | whole n => exact absurd ⟨n, rfl⟩ hwhole
      | _ => simp only [SampleSet.checkEntry, hshown]

theorem exists_checkColumn_of_find?_eq_none (h : ds.find? (fun d => !isU64 d) = none) :
    ∃ ns, SampleSet.checkColumn (α := β) column index ds = .ok ns := by
  induction ds generalizing index with
  | nil => exact ⟨[], rfl⟩
  | cons d rest ih =>
    obtain ⟨hd, hrest⟩ := List.forall_mem_cons.1 (List.find?_eq_none.1 h)
    obtain ⟨n, hn⟩ := @exists_checkEntry_of_isU64 _ β column index d (by simpa using hd)
    obtain ⟨ns, hns⟩ := @ih (index + 1) (List.find?_eq_none.2 hrest)
    refine ⟨n :: ns, ?_⟩
    rw [SampleSet.checkColumn]
    exact bind_eq_ok_iff.2 ⟨n, hn, bind_eq_ok_iff.2 ⟨ns, hns, rfl⟩⟩

/-- A column is refused for its first entry that is no 64-bit integer. -/
theorem exists_checkColumn_of_find?_eq_some (h : ds.find? (fun d => !isU64 d) = some d) :
    ∃ e, SampleSet.checkColumn (α := β) column index ds = .error e ∧
      ((∃ fault, e = .unshown fault) ↔ isShowable d = false) := by
  induction ds generalizing index with
  | nil => cases h
  | cons d' rest ih =>
    rw [SampleSet.checkColumn]
    -- An entry of 64 bits is passed over, and the next one has another index.
    by_cases hd : isU64 d' = true
    · rw [List.find?_cons_of_neg (by simp [hd])] at h
      obtain ⟨n, hn⟩ := @exists_checkEntry_of_isU64 _ β column index d' hd
      obtain ⟨e, he, hiff⟩ := @ih (index + 1) h
      rw [hn]
      exact ⟨e, by show Except.bind _ _ = _; rw [he]; rfl, hiff⟩
    · rw [Bool.not_eq_true] at hd
      rw [List.find?_cons_of_pos (by simp [hd])] at h
      cases h
      obtain ⟨e, he, hiff⟩ := @exists_checkEntry_of_not_isU64 _ β column index d hd
      rw [he]
      exact ⟨e, rfl, hiff⟩

end Columns

theorem ofPairs_eq_unshown_iff {β : Type} :
    (∃ fault, SampleSet.ofPairs (α := β) samples = .error (.unshown fault)) ↔
      hidesUnshowable samples := by
  unfold hidesUnshowable SampleSet.ofPairs
  cases SampleSet.splitPairs samples with
  | error shape => simp
  | ok pairs =>
    simp only [SampleSet.ofColumns, List.length_map, ne_eq,
      not_true_eq_false, if_false, List.find?_append]
    -- The sizes are all checked before the costs.
    cases hsizes : (pairs.map Prod.fst).find? (fun d => !isU64 d) with
    | some d =>
      obtain ⟨e, he, hiff⟩ :=
        @exists_checkColumn_of_find?_eq_some _ β .sizes 0 d _ hsizes
      rw [he]
      simpa [bind, Except.bind] using hiff
    | none =>
      obtain ⟨xs, hxs⟩ :=
        @exists_checkColumn_of_find?_eq_none _ β .sizes 0 _ hsizes
      rw [hxs]
      cases hcosts : (pairs.map Prod.snd).find? (fun d => !isU64 d) with
      | some d =>
        obtain ⟨e, he, hiff⟩ :=
          @exists_checkColumn_of_find?_eq_some _ β .costs 0 d _ hcosts
        rw [he]
        simpa [bind, Except.bind] using hiff
      | none =>
        obtain ⟨ys, hys⟩ :=
          @exists_checkColumn_of_find?_eq_none _ β .costs 0 _ hcosts
        rw [hys]
        cases xs <;> cases ys <;> simp [bind, Except.bind, throw, throwThe, MonadExceptOf.throw]

/-! ## Section 6: fits and quantized models -/

/-- An error about the samples themselves, which are looked at before anything
    is fitted. -/
def IsSampleError : CostModelError α → Prop
  | .invalidSampleSet _ => True
  | .unshown _ => True
  | _ => False

section SampleError

omit [Datum.CallRoom]

variable {e : CostModelError α} (he : IsSampleError e)
include he

theorem fitQuality_ne_error (points : List (Point α)) (const lin : α) :
    fitQuality points const lin ≠ .error e := by
  simp only [fitQuality]
  split_ifs
  · simp
  · intro h
    cases h
    exact he
  · simp

theorem outcome_fitLine_ne_error (set : SampleSet) (operation : Option Text) :
    (set.fitLine (α := α) operation).outcome ≠ .error e := by
  simp only [SampleSet.fitLine, Traced.outcome_bind, Traced.outcome_ofExcept]
  -- A line is measured up to three times, and no measurement is a fault of this
  -- kind.
  apply bind_ne_error (fitQuality_ne_error he _ _ _)
  intro quality
  split_ifs
  · intro h
    cases h
    exact he
  · simp only [Traced.outcome_bind, Traced.outcome_ofExcept, Traced.outcome_report]
    exact bind_ne_error (by simp)
      fun _ => bind_ne_error (fitQuality_ne_error he _ _ _) fun _ => by simp [Except.bind]
  · simp [Except.bind]

/-- A sample set is not refused by the fit. -/
theorem outcome_fit_ne_error (set : SampleSet) (operation : Option Text) :
    (set.fit (α := α) operation).outcome ≠ .error e := by
  unfold SampleSet.fit
  split_ifs
  · simp [Except.bind]
  · exact outcome_fitLine_ne_error he set operation
  · exact outcome_fitLine_ne_error he set operation

end SampleError

omit [Numerics α] [Datum.CallRoom] in
theorem quantizeParameter_ne_unshown (parameter : String) (x : α) (fault : Datum.ShowFault) :
    quantizeParameter parameter x ≠ .error (.unshown fault) := by
  simp only [quantizeParameter]
  split_ifs <;> simp

omit [Numerics α] [Datum.CallRoom] in
theorem outcome_quantize_ne_unshown (m : CostModel α) (fault : Datum.ShowFault) :
    m.quantize.outcome ≠ .error (.unshown fault) := by
  simp only [CostModel.quantize, Traced.outcome_bind, Traced.outcome_ofExcept]
  exact bind_ne_error (quantizeParameter_ne_unshown _ _ _)
    fun _ => bind_ne_error (quantizeParameter_ne_unshown _ _ _) fun _ => by simp [Except.bind]

/-- On their own the samples of an operation come to an error without a message
    only if they hide what cannot be shown. -/
theorem ownOutcome_eq_unshown_iff :
    (∃ fault, ownOutcome (α := α) name samples = .error (.unshown fault)) ↔
      name ≠ "" ∧ hidesUnshowable samples := by
  unfold ownOutcome
  by_cases hname : name = ""
  · simp [hname]
  -- The samples are checked before anything is fitted, and nothing later
  -- formats a datum.
  · rw [if_neg hname, ← ofPairs_eq_unshown_iff (β := α)]
    simp only [calibrateSamples, Traced.outcome_bind, Traced.outcome_ofExcept]
    cases SampleSet.ofPairs (α := α) samples with
    | error e => simp [Except.bind, hname]
    | ok set =>
      have hlater (fault : Datum.ShowFault) :
          ((set.fit (some name)).outcome.bind fun model : CostModel α =>
            model.quantize.outcome.bind fun quantized => (pure (model, quantized) :
              Traced (CostModelError α) _).outcome) ≠ .error (.unshown fault) :=
        bind_ne_error (outcome_fit_ne_error (e := .unshown fault) trivial set _)
          fun model => bind_ne_error (outcome_quantize_ne_unshown model fault) fun _ => by simp
      simpa [Except.bind] using hlater

end CalibratedCosts.Calibration
