import Mathlib
import CalibratedCosts.Proofs.Calibration.Isolation
import CalibratedCosts.Proofs.Numeral.Integer
import CalibratedCosts.Proofs.OrderedMap
import CalibratedCosts.Proofs.Table.Entries
import CalibratedCosts.Proofs.Table.Lookup

/-! # What a report holds

    A report divides the operations of its jobs: each of them has its model in
    the table or its error among the failures, and nothing else is in either.

    * **Order**: models and failures stand in job order.
    * **Independence**: two runs that have the same samples for an operation
      report the same of it.
    * **Review**: the threshold decides which operations are listed for
      review, and nothing else.
-/

namespace CalibratedCosts.Calibration

variable {α : Type} [Quantity α]

/-! ## Section 1: review -/

/-- The model is a line whose quality is below the bound. -/
def fitsBelow (bound : Extended) (m : CostModel α) : Bool :=
  !m.isConstant && (Quantity.value m.rSquared).less bound

theorem needsReview_eq_ok {threshold : Datum} {bound : Extended}
    (h : thresholdValue? threshold = some bound) (m : CostModel α) :
    needsReview threshold m = .ok (fitsBelow bound m) := by
  unfold needsReview fitsBelow
  cases m.isConstant with
  | true => rfl
  | false => simp [h]

/-- With a numeric threshold the review always comes to its end. -/
theorem outcome_reviewAll {threshold : Datum} {bound : Extended}
    (h : thresholdValue? threshold = some bound) (results : List (Calibrated α)) :
    (reviewAll threshold results).outcome =
      .ok ((results.filter fun c => fitsBelow bound c.model).map (·.name)) := by
  -- The threshold is compared with each quality, and a number can always be
  -- compared.
  induction results with
  | nil => rfl
  | cons c rest ih =>
    rw [reviewAll, Traced.outcome_bind, Traced.outcome_ofExcept, needsReview_eq_ok h]
    show (if fitsBelow bound c.model then _ else _ : Traced Fault (List Text)).outcome = _
    cases hfits : fitsBelow bound c.model with
    | true =>
      simp [ih, Except.bind, hfits]
    | false =>
      simp [ih, hfits]

/-- The operations to review, in job order. -/
def flaggedAmong (bound : Extended) (outcomes : List (Outcome α)) : List Text :=
  ((successes outcomes).filter fun c => fitsBelow bound c.model).map (·.name)

theorem calibrate_eq_ok_iff [Numerics α] [Datum.CallRoom] {jobs : Jobs} {threshold : Datum}
    {bound : Extended} (h : thresholdValue? threshold = some bound) {now : Timestamp}
    {report : Report α} :
    (calibrate jobs threshold now).outcome = .ok report ↔
      ∃ outcomes, (calibrateAll jobs.entries).outcome = .ok outcomes ∧
        reportOf outcomes (flaggedAmong bound outcomes) now = report := by
  unfold calibrate
  rw [Traced.outcome_bind]
  -- Reviewing never fails behind this threshold.
  cases (calibrateAll (α := α) jobs.entries).outcome with
  | error e => simp [Except.bind]
  | ok outcomes =>
    simp only [Except.bind, Traced.outcome_bind, outcome_reviewAll h, Traced.outcome_report,
      Traced.outcome_pure, Except.ok.injEq, exists_eq_left']
    rfl

/-! ## Section 2: jobs by name -/

namespace Jobs

/-- The operations of the jobs, each with its samples, in job order. -/
def named (jobs : Jobs) : List (Text × Datum) := jobs.entries.map fun job => (job.1.plain, job.2)

/-- The names of the operations in job order. -/
def names (jobs : Jobs) : List Text := jobs.keys.map Datum.plain

theorem map_fst_named (jobs : Jobs) : jobs.named.map Prod.fst = jobs.names := by
  unfold named names OrderedMap.keys
  rw [List.map_map, List.map_map]
  rfl

theorem nodup_names {jobs : Jobs} (h : jobs.Named) : jobs.names.Nodup := by
  apply List.pairwise_map.2
  refine jobs.distinct.imp_of_mem fun {key key'} hkey hkey' hne heq => ?_
  obtain ⟨name, hname⟩ := Option.isSome_iff_exists.1 (h key hkey)
  obtain ⟨name', hname'⟩ := Option.isSome_iff_exists.1 (h key' hkey')
  rw [plain_of_asText? hname, plain_of_asText? hname'] at heq
  subst heq
  rw [Datum.sameKey_of_asText? hname hname'] at hne
  cases hne

theorem asText?_eq_plain {jobs : Jobs} (h : jobs.Named) {job : Datum × Datum}
    (hjob : job ∈ jobs.entries) : job.1.asText? = some job.1.plain := by
  obtain ⟨name, hname⟩ := Option.isSome_iff_exists.1 (h job.1 (List.mem_map_of_mem hjob))
  rw [plain_of_asText? hname]
  exact hname

theorem mem_named_of_get?_text {jobs : Jobs} {name : Text} {samples : Datum}
    (hget : jobs.get? (.text name) = some samples) : (name, samples) ∈ jobs.named := by
  obtain ⟨key, hmem, hkey⟩ := OrderedMap.exists_mem_of_get?_eq_some hget
  have hplain := plain_of_asText? (Datum.sameKey_text_iff.1 hkey)
  exact List.mem_map.2 ⟨(key, samples), hmem, by rw [hplain]⟩

/-- The samples of an operation are those of the job with its name. -/
theorem get?_text_eq_some_iff {jobs : Jobs} (h : jobs.Named) {name : Text} {samples : Datum} :
    jobs.get? (.text name) = some samples ↔ (name, samples) ∈ jobs.named := by
  refine ⟨mem_named_of_get?_text, fun hmem => ?_⟩
  cases hget : jobs.get? (.text name) with
  -- Each key is that of its name, so that a job under the name would have been
  -- found.
  | none =>
    obtain ⟨job, hjob, heq⟩ := List.mem_map.1 hmem
    have hkey := asText?_eq_plain h hjob
    rw [(Prod.mk.inj heq).1] at hkey
    have hne := OrderedMap.forall_of_get?_eq_none hget job hjob
    rw [Datum.sameKey_text_iff.2 hkey] at hne
    cases hne
  -- No two jobs have one name.
  | some samples' =>
    have hmem' := mem_named_of_get?_text hget
    have hnodup := nodup_names h
    rw [← map_fst_named] at hnodup
    have heq := List.inj_on_of_nodup_map hnodup hmem hmem' rfl
    rw [(Prod.mk.inj heq).2]

end Jobs

/-! ## Section 3: successes and failures -/

/-- What some operations give, in job order. -/
def selected {β : Type} (pick : Text → Datum → Option β) (jobs : List (Text × Datum)) :
    List (Text × β) :=
  jobs.filterMap fun job => (pick job.1 job.2).map fun b => (job.1, b)

section Selected

variable {β : Type} {pick : Text → Datum → Option β} {jobs : List (Text × Datum)}

theorem mem_selected {name : Text} {b : β} :
    (name, b) ∈ selected pick jobs ↔
      ∃ samples, (name, samples) ∈ jobs ∧ pick name samples = some b := by
  unfold selected
  rw [List.mem_filterMap]
  constructor
  -- What is picked comes from a job, under the job's own name.
  · rintro ⟨⟨name', samples⟩, hmem, hpick⟩
    obtain ⟨b', hb', heq⟩ := Option.map_eq_some_iff.1 hpick
    cases heq
    exact ⟨samples, hmem, hb'⟩
  · rintro ⟨samples, hmem, hpick⟩
    exact ⟨(name, samples), hmem, by rw [hpick]; rfl⟩

theorem selected_sublist (pick : Text → Datum → Option β) (jobs : List (Text × Datum)) :
    ((selected pick jobs).map Prod.fst).Sublist (jobs.map Prod.fst) := by
  unfold selected
  induction jobs with
  | nil => exact .slnil
  | cons job rest ih =>
    rw [List.filterMap_cons, List.map_cons]
    cases pick job.1 job.2 with
    | none => exact ih.cons job.1
    | some b => exact ih.cons_cons job.1

end Selected

section Own

variable [Numerics α] [Datum.CallRoom]

/-- The model that the samples of an operation come to. -/
def ownModel? (name : Text) (samples : Datum) : Option (CostModel α × QuantizedModel) :=
  match ownOutcome name samples with
  | .ok result => some result
  | .error _ => none

/-- The error that the samples of an operation come to. -/
def ownError? (name : Text) (samples : Datum) : Option (CostModelError α) :=
  match ownOutcome name samples with
  | .ok _ => none
  | .error e => some e

theorem ownModel?_eq_some_iff {name : Text} {samples : Datum}
    {result : CostModel α × QuantizedModel} :
    ownModel? name samples = some result ↔ ownOutcome name samples = .ok result := by
  unfold ownModel?
  cases ownOutcome (α := α) name samples <;> simp

theorem ownError?_eq_some_iff {name : Text} {samples : Datum} {e : CostModelError α} :
    ownError? name samples = some e ↔ ownOutcome name samples = .error e := by
  unfold ownError?
  cases ownOutcome (α := α) name samples <;> simp

theorem successes_eq {jobs : List (Datum × Datum)} {outcomes : List (Outcome α)}
    (h : List.Forall₂ (fun job o => Outcome.Reports job.1.plain job.2 o) jobs outcomes) :
    (successes outcomes).map (fun c => (c.name, c.model, c.quantized)) =
      selected ownModel? (jobs.map fun job => (job.1.plain, job.2)) := by
  -- Job by job: an outcome reports what the job's own samples come to.
  induction h with
  | nil => rfl
  | @cons job o jobs outcomes hreports _ ih =>
    unfold selected successes at ih ⊢
    rw [List.map_cons, List.filterMap_cons, List.filterMap_cons]
    cases hreports with
    | calibrated hname hown => simp only [ownModel?, hown, Option.map_some, List.map_cons, ih, hname]
    | failed hown _ => simp only [ownModel?, hown, Option.map_none, ih]

theorem failuresOf_eq {jobs : List (Datum × Datum)} {outcomes : List (Outcome α)}
    (h : List.Forall₂ (fun job o => Outcome.Reports job.1.plain job.2 o) jobs outcomes) :
    failuresOf outcomes = selected ownError? (jobs.map fun job => (job.1.plain, job.2)) := by
  induction h with
  | nil => rfl
  | @cons job o jobs outcomes hreports _ ih =>
    unfold selected failuresOf at ih ⊢
    rw [List.map_cons, List.filterMap_cons, List.filterMap_cons]
    cases hreports with
    | calibrated hname hown => simp only [ownError?, hown, Option.map_none, ih]
    | failed hown _ => simp only [ownError?, hown, Option.map_some, ih]

end Own

/-! ## Section 4: the table -/

omit [Quantity α] in
/-- Calibrated operations of different names each have their model among the
    entries. -/
theorem get?_entriesOf {results : List (Calibrated α)} (hnodup : (results.map (·.name)).Nodup)
    {name : Text} {model : QuantizedModel} :
    (entriesOf results).get? name = some model ↔
      ∃ c ∈ results, c.name = name ∧ c.quantized = model := by
  -- On the operations to come, of which the entries so far know nothing.
  have hfold : ∀ (rest : List (Calibrated α)) (entries : Entries), (rest.map (·.name)).Nodup →
      (∀ c ∈ rest, entries.get? c.name = none) →
      ((rest.foldl (fun entries c => entries.insert c.name c.quantized c.named) entries).get? name =
        some model ↔ entries.get? name = some model ∨
          ∃ c ∈ rest, c.name = name ∧ c.quantized = model) := by
    intro rest
    induction rest with
    | nil =>
      intro entries _ _
      simp
    | cons c rest ih =>
      intro entries hnodup hfresh
      obtain ⟨hc, hrest⟩ := List.forall_mem_cons.1 hfresh
      rw [List.map_cons, List.nodup_cons] at hnodup
      have hfresh' : ∀ c' ∈ rest,
          (entries.insert c.name c.quantized c.named).get? c'.name = none := by
        intro c' hc'
        have hne : c'.name ≠ c.name := fun heq => hnodup.1 (heq ▸ List.mem_map_of_mem hc')
        rw [Entries.get?_insert, if_neg hne, hrest c' hc']
      rw [List.foldl_cons, ih _ hnodup.2 hfresh', Entries.get?_insert, List.exists_mem_cons_iff]
      by_cases hname : name = c.name
      · subst hname
        simp [hc]
      · simp [hname, Ne.symm hname]
  have hempty := hfold results Entries.empty hnodup fun _ _ => rfl
  rw [Entries.get?_empty] at hempty
  simp only [reduceCtorEq, false_or] at hempty
  exact hempty

/-! ## Section 5: reports -/

section Reports

variable [Numerics α] [Datum.CallRoom]

/-- The report divides the operations of the jobs into those of the table and
    those that failed, each by what its own samples come to, and lists the
    operations of the table that fit too badly. -/
structure Report.Divides (report : Report α) (jobs : Jobs) (bound : Extended) : Prop where
  table : ∀ name quantized, report.table.entries.get? name = some quantized ↔
    ∃ samples, ∃ model : CostModel α, jobs.get? (.text name) = some samples ∧
      ownOutcome name samples = .ok (model, quantized)
  models : ∀ name model, report.models.get? name = some model ↔
    ∃ samples quantized, jobs.get? (.text name) = some samples ∧
      ownOutcome name samples = .ok (model, quantized)
  failures : ∀ name e, report.failures.get? name = some e ↔
    ∃ samples, jobs.get? (.text name) = some samples ∧ ownOutcome name samples = .error e
  covered : ∀ name, (jobs.get? (.text name)).isSome ↔
    (report.table.entries.get? name).isSome ∨ (report.failures.get? name).isSome
  separate : ∀ name, ¬ ((report.table.entries.get? name).isSome ∧
    (report.failures.get? name).isSome)
  modelsInOrder : report.models.keys.Sublist jobs.names
  failuresInOrder : report.failures.keys.Sublist jobs.names
  reviewInOrder : report.needsReview.Pairwise (· < ·)
  review : ∀ name, name ∈ report.needsReview ↔
    ∃ model, report.models.get? name = some model ∧ fitsBelow bound model

section Reported

variable {jobs : Jobs} {outcomes : List (Outcome α)} {bound : Extended} {now : Timestamp}

/-- The outcomes of all jobs, in job order. -/
def Reported (jobs : Jobs) (outcomes : List (Outcome α)) : Prop :=
  List.Forall₂ (fun job o => Outcome.Reports job.1.plain job.2 o) jobs.entries outcomes

theorem Reported.names_successes (h : Reported jobs outcomes) :
    ((successes outcomes).map (·.name)).Sublist jobs.names := by
  have hnames := congrArg (List.map Prod.fst) (successes_eq h)
  rw [List.map_map] at hnames
  rw [← Jobs.map_fst_named]
  show ((successes outcomes).map (Prod.fst ∘ fun c => (c.name, c.model, c.quantized))).Sublist _
  rw [hnames]
  exact selected_sublist _ _

theorem Reported.names_failures (h : Reported jobs outcomes) :
    ((failuresOf outcomes).map Prod.fst).Sublist jobs.names := by
  rw [failuresOf_eq h, ← Jobs.map_fst_named]
  exact selected_sublist _ _

theorem Reported.exists_success_iff (h : Reported jobs outcomes) (hnamed : jobs.Named)
    {name : Text} {model : CostModel α} {quantized : QuantizedModel} :
    (∃ c ∈ successes outcomes, c.name = name ∧ c.model = model ∧ c.quantized = quantized) ↔
      ∃ samples, jobs.get? (.text name) = some samples ∧
        ownOutcome name samples = .ok (model, quantized) := by
  have hmem : (name, model, quantized) ∈
      (successes outcomes).map (fun c => (c.name, c.model, c.quantized)) ↔
      ∃ samples, (name, samples) ∈ jobs.named ∧ ownModel? name samples = some (model, quantized) := by
    rw [successes_eq h]
    exact mem_selected
  -- Under names that occur once the jobs are a map.
  simp only [ownModel?_eq_some_iff, ← Jobs.get?_text_eq_some_iff hnamed] at hmem
  rw [← hmem, List.mem_map]
  simp only [Prod.mk.injEq]

omit [Datum.CallRoom] in
theorem beq_false_of_nodup {names : List Text} (h : names.Nodup) :
    names.Pairwise fun a b => (a == b) = false :=
  h.imp fun {a b : Text} hne => (beq_eq_false_iff_ne (a := a) (b := b)).2 hne

theorem Reported.distinct_failures (h : Reported jobs outcomes) (hnamed : jobs.Named) :
    ((failuresOf outcomes).map Prod.fst).Pairwise fun a b => (a == b) = false :=
  beq_false_of_nodup (h.names_failures.nodup (Jobs.nodup_names hnamed))

theorem Reported.distinct_models (h : Reported jobs outcomes) (hnamed : jobs.Named) :
    (((successes outcomes).map fun c => (c.name, c.model)).map Prod.fst).Pairwise
      fun a b => (a == b) = false := by
  rw [List.map_map]
  exact beq_false_of_nodup (h.names_successes.nodup (Jobs.nodup_names hnamed))

theorem Reported.get?_failures (h : Reported jobs outcomes) (hnamed : jobs.Named) {name : Text}
    {e : CostModelError α} :
    (OrderedMap.ofList (failuresOf outcomes)).get? name = some e ↔
      ∃ samples, jobs.get? (.text name) = some samples ∧ ownOutcome name samples = .error e := by
  rw [OrderedMap.get?_eq_some_iff, OrderedMap.entries_ofList (h.distinct_failures hnamed),
    failuresOf_eq h]
  have hmem := @mem_selected _ (ownError? (α := α)) jobs.named name e
  simp only [ownError?_eq_some_iff, ← Jobs.get?_text_eq_some_iff hnamed] at hmem
  exact hmem

theorem Reported.mem_models (h : Reported jobs outcomes) (hnamed : jobs.Named) {name : Text}
    {model : CostModel α} :
    (OrderedMap.ofList ((successes outcomes).map fun c => (c.name, c.model))).get? name =
        some model ↔
      ∃ c ∈ successes outcomes, c.name = name ∧ c.model = model := by
  rw [OrderedMap.get?_eq_some_iff, OrderedMap.entries_ofList (h.distinct_models hnamed),
    List.mem_map]
  simp only [Prod.mk.injEq]

theorem Reported.get?_models (h : Reported jobs outcomes) (hnamed : jobs.Named) {name : Text}
    {model : CostModel α} :
    (OrderedMap.ofList ((successes outcomes).map fun c => (c.name, c.model))).get? name =
        some model ↔
      ∃ samples quantized, jobs.get? (.text name) = some samples ∧
        ownOutcome name samples = .ok (model, quantized) := by
  rw [h.mem_models hnamed]
  -- Models and table entries are two views of the same successes.
  constructor
  · rintro ⟨c, hc, hname, hmodel⟩
    obtain ⟨samples, hsamples, hown⟩ :=
      (h.exists_success_iff hnamed).1 ⟨c, hc, hname, hmodel, rfl⟩
    exact ⟨samples, c.quantized, hsamples, hown⟩
  · rintro ⟨samples, quantized, hsamples, hown⟩
    obtain ⟨c, hc, hname, hmodel, -⟩ := (h.exists_success_iff hnamed).2 ⟨samples, hsamples, hown⟩
    exact ⟨c, hc, hname, hmodel⟩

theorem Reported.get?_entries (h : Reported jobs outcomes) (hnamed : jobs.Named) {name : Text}
    {quantized : QuantizedModel} :
    (entriesOf (successes outcomes)).get? name = some quantized ↔
      ∃ samples, ∃ model : CostModel α, jobs.get? (.text name) = some samples ∧
        ownOutcome name samples = .ok (model, quantized) := by
  -- No name stands twice among the successes, so the first entry of a name is
  -- its only one.
  rw [get?_entriesOf (h.names_successes.nodup (Jobs.nodup_names hnamed))]
  constructor
  · rintro ⟨c, hc, hname, hquantized⟩
    obtain ⟨samples, hsamples, hown⟩ :=
      (h.exists_success_iff hnamed).1 ⟨c, hc, hname, rfl, hquantized⟩
    exact ⟨samples, c.model, hsamples, hown⟩
  · rintro ⟨samples, model, hsamples, hown⟩
    obtain ⟨c, hc, hname, -, hquantized⟩ := (h.exists_success_iff hnamed).2 ⟨samples, hsamples, hown⟩
    exact ⟨c, hc, hname, hquantized⟩

omit [Numerics α] [Datum.CallRoom] in
theorem mem_flaggedAmong {name : Text} :
    name ∈ flaggedAmong bound outcomes ↔
      ∃ c ∈ successes outcomes, c.name = name ∧ fitsBelow bound c.model := by
  unfold flaggedAmong
  simp only [List.mem_map, List.mem_filter]
  exact exists_congr fun c => by tauto

end Reported

/-- What a run reports on divides its jobs. -/
theorem Reported.divides {jobs : Jobs} {outcomes : List (Outcome α)} (h : Reported jobs outcomes)
    (hnamed : jobs.Named) (bound : Extended) (now : Timestamp) :
    (reportOf outcomes (flaggedAmong bound outcomes) now).Divides jobs bound where
  table _ _ := h.get?_entries hnamed
  models _ _ := h.get?_models hnamed
  failures _ _ := h.get?_failures hnamed
  covered name := by
    show _ ↔ ((entriesOf (successes outcomes)).get? name).isSome ∨
      ((OrderedMap.ofList (failuresOf outcomes)).get? name).isSome
    simp only [Option.isSome_iff_exists, h.get?_entries hnamed, h.get?_failures hnamed]
    -- Every job's own samples come to one thing or the other.
    constructor
    · rintro ⟨samples, hsamples⟩
      cases hown : ownOutcome (α := α) name samples with
      | ok result => exact .inl ⟨result.2, samples, result.1, hsamples, hown⟩
      | error e => exact .inr ⟨e, samples, hsamples, hown⟩
    · rintro (⟨-, samples, -, hsamples, -⟩ | ⟨-, samples, hsamples, -⟩) <;>
        exact ⟨samples, hsamples⟩
  separate name := by
    show ¬ (((entriesOf (successes outcomes)).get? name).isSome ∧
      ((OrderedMap.ofList (failuresOf outcomes)).get? name).isSome)
    simp only [Option.isSome_iff_exists, h.get?_entries hnamed, h.get?_failures hnamed]
    rintro ⟨⟨quantized, samples, model, hsamples, hown⟩, e, samples', hsamples', hown'⟩
    rw [hsamples] at hsamples'
    cases hsamples'
    rw [hown] at hown'
    cases hown'
  modelsInOrder := by
    show (OrderedMap.ofList ((successes outcomes).map fun c => (c.name, c.model))).keys.Sublist _
    rw [OrderedMap.keys_ofList (h.distinct_models hnamed), List.map_map]
    exact h.names_successes
  failuresInOrder := by
    show (OrderedMap.ofList (failuresOf outcomes)).keys.Sublist _
    rw [OrderedMap.keys_ofList (h.distinct_failures hnamed)]
    exact h.names_failures
  reviewInOrder := (entriesOf (successes outcomes)).sorted.filter _
  review name := by
    show name ∈ (entriesOf (successes outcomes)).names.filter (flaggedAmong bound outcomes).contains
      ↔ ∃ model,
        (OrderedMap.ofList ((successes outcomes).map fun c => (c.name, c.model))).get? name =
          some model ∧ fitsBelow bound model
    rw [List.mem_filter, List.contains_iff_mem, mem_flaggedAmong, Entries.mem_names_iff]
    constructor
    · rintro ⟨-, c, hc, hname, hfits⟩
      exact ⟨c.model, (h.mem_models hnamed).2 ⟨c, hc, hname, rfl⟩, hfits⟩
    · rintro ⟨model, hmodel, hfits⟩
      obtain ⟨c, hc, hname, rfl⟩ := (h.mem_models hnamed).1 hmodel
      refine ⟨?_, c, hc, hname, hfits⟩
      have hsuccess := (h.exists_success_iff hnamed).1 ⟨c, hc, hname, rfl, rfl⟩
      obtain ⟨samples, hsamples, hown⟩ := hsuccess
      rw [(h.get?_entries hnamed).2 ⟨samples, c.model, hsamples, hown⟩]
      rfl

/-- Reports agree on an operation that has the same samples in both runs. -/
theorem Report.Divides.agree {report report' : Report α} {jobs jobs' : Jobs}
    {bound bound' : Extended} (h : report.Divides jobs bound) (h' : report'.Divides jobs' bound')
    {name : Text} (hsame : jobs'.get? (.text name) = jobs.get? (.text name)) :
    report'.table.entries.get? name = report.table.entries.get? name ∧
    report'.models.get? name = report.models.get? name ∧
    report'.failures.get? name = report.failures.get? name := by
  refine ⟨Option.ext fun quantized => ?_, Option.ext fun model => ?_, Option.ext fun e => ?_⟩
  · rw [h.table, h'.table, hsame]
  · rw [h.models, h'.models, hsame]
  · rw [h.failures, h'.failures, hsame]

end Reports

/-! ## Section 6: runs -/

section Runs

variable [Numerics α] [Datum.CallRoom]
variable {jobs : Jobs} {threshold : Datum} {bound : Extended} {now : Timestamp} {report : Report α}

theorem divides_of_calibrate (hnamed : jobs.Named) (hbound : thresholdValue? threshold = some bound)
    (h : (calibrate jobs threshold now).outcome = .ok report) : report.Divides jobs bound := by
  obtain ⟨outcomes, houtcomes, rfl⟩ := (calibrate_eq_ok_iff hbound).1 h
  have hkeys : ∀ job ∈ jobs.entries, job.1.asText?.isSome :=
    fun job hjob => hnamed job.1 (List.mem_map_of_mem hjob)
  exact Reported.divides (reports_of_calibrateAll hkeys houtcomes) hnamed bound now

/-- A report divides the operations of its jobs by what their own samples come
    to.  Whatever else another run calibrates, it reports the same of an
    operation with the same samples, and another threshold changes nothing but
    what is listed for review. -/
theorem calibrate_divides (jobs : Jobs) (threshold : Datum) (bound : Extended) (now : Timestamp)
    (report : Report α) (hnamed : jobs.Named) (hbound : thresholdValue? threshold = some bound)
    (h : (calibrate jobs threshold now).outcome = .ok report) :
    report.Divides jobs bound ∧
    (∀ (jobs' : Jobs) (threshold' : Datum) (bound' : Extended) (now' : Timestamp)
      (report' : Report α), jobs'.Named → thresholdValue? threshold' = some bound' →
      (calibrate jobs' threshold' now').outcome = .ok report' →
      ∀ name, jobs'.get? (.text name) = jobs.get? (.text name) →
        report'.table.entries.get? name = report.table.entries.get? name ∧
        report'.models.get? name = report.models.get? name ∧
        report'.failures.get? name = report.failures.get? name) ∧
    ∀ (threshold' : Datum) (bound' : Extended), thresholdValue? threshold' = some bound' →
      ∃ listed, (calibrate jobs threshold' now).outcome =
        .ok { report with needsReview := listed } := by
  -- One report says of every name what its own samples say; two reports agree
  -- because the same samples stand under the name.
  have hdivides := divides_of_calibrate hnamed hbound h
  refine ⟨hdivides, ?_, ?_⟩
  · intro jobs' threshold' bound' now' report' hnamed' hbound' h' name hsame
    exact hdivides.agree (divides_of_calibrate hnamed' hbound' h') hsame
  -- The threshold is read after the fits are done: the same outcomes answer for
  -- every threshold.
  · intro threshold' bound' hbound'
    obtain ⟨outcomes, houtcomes, rfl⟩ := (calibrate_eq_ok_iff hbound).1 h
    exact ⟨_, (calibrate_eq_ok_iff hbound').2 ⟨outcomes, houtcomes, rfl⟩⟩

end Runs

section Examples

open scoped Datum.CallRoom Numerics

def mixedJobs : Jobs :=
  ⟨[(.operation .hostMemAlloc, .list [.list [.whole 0, .whole 7]]),
    (.text "HostMemCpy", .list [.list [.bool true, .whole 1]]),
    (.text "", .null)], by decide⟩

theorem mixedJobs_divided :
    (mixedJobs.Named ∧ thresholdValue? (.whole 1) = some (.finite 1)) ∧
    ∃ report : Report Binary64, (calibrate mixedJobs (.whole 1) ⟨0, 0⟩).outcome = .ok report ∧
      report.table.operations = [("HostMemAlloc" : Text)] ∧
      report.failures.keys = [("HostMemCpy" : Text), ("" : Text)] ∧
      report.Divides mixedJobs (.finite 1) := by
  have hnamed : mixedJobs.Named := by decide
  have hbound : thresholdValue? (.whole 1) = some (.finite 1) := rfl
  -- Only keys are compared: models and texts of the whole report are large.
  have hrun : ((calibrate (α := Binary64) mixedJobs (.whole 1) ⟨0, 0⟩).outcome.toOption.map
      fun report => (report.table.operations, report.failures.keys)) =
      some ([("HostMemAlloc" : Text)], [("HostMemCpy" : Text), ("" : Text)]) := by decide +kernel
  obtain ⟨report, hreport, hkeys⟩ := Option.map_eq_some_iff.1 hrun
  have houtcome := toOption_eq_some_iff.1 hreport
  obtain ⟨htable, hfailures⟩ := Prod.mk.inj hkeys
  have hdivides := calibrate_divides mixedJobs (.whole 1) (.finite 1) ⟨0, 0⟩ report hnamed hbound
    houtcome
  exact ⟨⟨hnamed, hbound⟩, report, houtcome, htable, hfailures, hdivides.1⟩

def namelessJobs : Jobs := ⟨[(.text "", .list [.list [.whole 0, .whole 7]])], by decide⟩

/-- Samples that a model and its quantized form come from are not enough for a
    place in the table: without a name an operation has failed. -/
theorem namelessJobs_failed :
    namelessJobs.get? (.text "") = some (.list [.list [.whole 0, .whole 7]]) ∧
    ((calibrateSamples (α := Binary64) "" (.list [.list [.whole 0, .whole 7]])).outcome.map
      Prod.snd).toOption = some ⟨7, 0, by decide, by decide⟩ ∧
    ((calibrate (α := Binary64) namelessJobs (.whole 1) ⟨0, 0⟩).outcome.toOption.map
      fun report => (report.table.operations, report.models.keys, report.failures.keys)) =
      some ([], [], [("" : Text)]) :=
  ⟨rfl, by decide +kernel, by decide +kernel⟩

end Examples

/-! ## Section 7: runs without a report -/

section Runs

variable [Numerics α] [Datum.CallRoom]
variable {jobs : Jobs} {threshold : Datum} {bound : Extended} {now : Timestamp}

theorem exists_calibrate_iff (hnamed : jobs.Named)
    (hbound : thresholdValue? threshold = some bound) :
    (∃ report : Report α, (calibrate jobs threshold now).outcome = .ok report) ↔
      ∀ name samples, jobs.get? (.text name) = some samples → name ≠ "" →
        hidesUnshowable samples = false := by
  have hkeys : ∀ job ∈ jobs.entries, job.1.asText?.isSome :=
    fun job hjob => hnamed job.1 (List.mem_map_of_mem hjob)
  have houtcomes : (∃ report : Report α, (calibrate jobs threshold now).outcome = .ok report) ↔
      ∃ outcomes : List (Outcome α), (calibrateAll jobs.entries).outcome = .ok outcomes := by
    simp only [calibrate_eq_ok_iff hbound]
    exact ⟨fun ⟨_, outcomes, h, _⟩ => ⟨outcomes, h⟩, fun ⟨outcomes, h⟩ => ⟨_, outcomes, h, rfl⟩⟩
  -- What remains is to name a job by its key; a name stands in the jobs once.
  rw [houtcomes, exists_calibrateAll_iff hkeys]
  simp only [Ne, ownOutcome_eq_unshown_iff, Jobs.get?_text_eq_some_iff hnamed, Jobs.named,
    List.mem_map, Prod.mk.injEq, not_and, Bool.not_eq_true]
  constructor
  · rintro hjobs name samples ⟨job, hjob, rfl, rfl⟩
    exact hjobs job hjob
  · intro hnames job hjob
    exact hnames _ _ ⟨job, hjob, rfl, rfl⟩

/-- A run comes to a report, in which every operation that is not calibrated
    has failed with its own error, exactly if no samples hide what cannot be
    shown in a message. -/
theorem exists_report_iff (jobs : Jobs) (threshold : Datum) (bound : Extended) (now : Timestamp)
    (hnamed : jobs.Named) (hbound : thresholdValue? threshold = some bound) :
    (∃ report : Report α, (calibrate jobs threshold now).outcome = .ok report ∧
      ∀ name samples e, jobs.get? (.text name) = some samples →
        ownOutcome name samples = .error e → report.failures.get? name = some e) ↔
    ∀ name samples, jobs.get? (.text name) = some samples → name ≠ "" →
      hidesUnshowable samples = false := by
  -- The failures are those of the partition, so only that a report exists is at
  -- stake.
  rw [← @exists_calibrate_iff α _ _ _ jobs threshold bound now hnamed hbound]
  constructor
  · rintro ⟨report, hreport, -⟩
    exact ⟨report, hreport⟩
  · rintro ⟨report, hreport⟩
    refine ⟨report, hreport, fun name samples e hsamples hown => ?_⟩
    exact ((divides_of_calibrate hnamed hbound hreport).failures name e).2 ⟨samples, hsamples, hown⟩

end Runs

section Examples

open scoped Datum.CallRoom Numerics

theorem mixedJobs_reported :
    (mixedJobs.Named ∧ thresholdValue? (.whole 1) = some (.finite 1)) ∧
    ∃ report : Report Binary64, (calibrate mixedJobs (.whole 1) ⟨0, 0⟩).outcome = .ok report ∧
      ∀ name samples e, mixedJobs.get? (.text name) = some samples →
        ownOutcome name samples = .error e → report.failures.get? name = some e := by
  have hnamed : mixedJobs.Named := by decide
  have hbound : thresholdValue? (.whole 1) = some (.finite 1) := rfl
  have hshort : ∀ job ∈ mixedJobs.entries, hidesUnshowable job.2 = false := by decide
  refine ⟨⟨hnamed, hbound⟩, ?_⟩
  refine (exists_report_iff mixedJobs (.whole 1) (.finite 1) ⟨0, 0⟩ hnamed hbound).2 ?_
  intro name samples hsamples _
  obtain ⟨job, hjob, heq⟩ := List.mem_map.1 (Jobs.mem_named_of_get?_text hsamples)
  rw [← (Prod.mk.inj heq).2]
  exact hshort job hjob

end Examples

/-- The shortest integer beyond the digit limit. -/
def longInteger : ℤ := (Nat.pow 10 Numeral.digitLimit : ℕ)

theorem u64OfInt?_longInteger : u64OfInt? longInteger = none := by
  apply dif_neg
  rintro ⟨-, hle⟩
  rw [longInteger, Int.toNat_natCast] at hle
  exact lt_irrefl _ (Numeral.lt_pow_of_le_u64Max (by decide) hle)

theorem isWritable_longInteger : Numeral.isWritable longInteger = false := by
  rw [longInteger, Numeral.isWritable, Int.natAbs_natCast]
  exact decide_eq_false (lt_irrefl _)

def nestedLists : ℕ → Datum
  | 0 => .list []
  | n + 1 => .list [nestedLists n]

theorem showFault?_nestedLists {n room : ℕ} (h : room ≤ n) :
    (nestedLists n).showFault? room = some .tooDeep := by
  -- A level of nesting takes one unit of room, so the walk stops before it
  -- meets the end.
  induction n generalizing room with
  | zero =>
    obtain rfl := Nat.le_zero.1 h
    rfl
  | succ n ih =>
    rw [nestedLists, Datum.showFault?]
    split_ifs with hroom
    · rfl
    · rw [Datum.itemsFault?, ih (by omega)]
      rfl

theorem shown?_nestedLists [Datum.CallRoom] {n : ℕ} (h : Datum.CallRoom.levels ≤ n) :
    (nestedLists n).shown? = .error .tooDeep := by
  rw [Datum.shown?, showFault?_nestedLists h]

/-- The size `d` in the samples of one operation, and good samples for another. -/
def jobsWithSize (d : Datum) : Jobs :=
  ⟨[(.text "HostMemCpy", .list [.list [d, .whole 1]]),
    (.text "HostMemAlloc", .list [.list [.whole 0, .whole 7]])], by
    show List.Pairwise _ [Datum.text "HostMemCpy", Datum.text "HostMemAlloc"]
    decide⟩

/-- A size that cannot be shown leaves all operations without a report. -/
theorem outcome_calibrate_jobsWithSize [Numerics α] [Datum.CallRoom] {d threshold : Datum}
    {now : Timestamp} {fault : Datum.ShowFault}
    (h : SampleSet.checkEntry (α := α) .sizes 0 d = .error (.unshown fault)) :
    (calibrate (α := α) (jobsWithSize d) threshold now).outcome = .error (.unshown fault) := by
  have hset : SampleSet.ofPairs (α := α) (.list [.list [d, .whole 1]]) =
      .error (.unshown fault) := by
    show Except.bind (Except.bind (SampleSet.checkEntry .sizes 0 d) _) _ = _
    rw [h]
    rfl
  have hown : ownOutcome (α := α) "HostMemCpy" (.list [.list [d, .whole 1]]) =
      .error (.unshown fault) := by
    rw [ownOutcome, if_neg (by decide), calibrateSamples, Traced.outcome_bind,
      Traced.outcome_ofExcept, hset]
    rfl
  have hfirst : (calibrateOne (α := α) (.text "HostMemCpy")
      (.list [.list [d, .whole 1]])).outcome = .error (.unshown fault) := by
    have hkey : (Datum.text "HostMemCpy").asText? = some ("HostMemCpy" : Text) := rfl
    rcases calibrateOne_cases (α := α) hkey with ⟨o, -, hreports⟩ | ⟨fault', herror, hown'⟩
    · cases hreports with
      | calibrated _ h =>
        rw [hown] at h
        cases h
      | failed h hshown =>
        rw [hown] at h
        cases h
        exact absurd rfl (hshown fault)
    · rw [hown] at hown'
      cases hown'
      exact herror
  -- The jobs are taken in order, and the first one has ended the run.
  rw [calibrate, Traced.outcome_bind, outcome_calibrateAll]
  show Except.bind (List.mapM _ ((_, _) :: _)) _ = _
  rw [List.mapM_cons, hfirst]
  rfl

section Examples

open scoped Datum.CallRoom Numerics

/-- A size that is too long for a message leaves the other operation without a
    report, and so does one that is nested too deep. -/
theorem jobsWithSize_unreported :
    ((jobsWithSize (.whole longInteger)).Named ∧ (jobsWithSize (nestedLists 100000)).Named ∧
      thresholdValue? (.whole 1) = some (.finite 1)) ∧
    (calibrate (α := Binary64) (jobsWithSize (.whole longInteger)) (.whole 1) ⟨0, 0⟩).outcome =
      .error (.unshown .tooLong) ∧
    (calibrate (α := Binary64) (jobsWithSize (nestedLists 100000)) (.whole 1) ⟨0, 0⟩).outcome =
      .error (.unshown .tooDeep) := by
  refine ⟨⟨by decide, by decide, rfl⟩, outcome_calibrate_jobsWithSize ?_,
    outcome_calibrate_jobsWithSize ?_⟩
  · simp only [SampleSet.checkEntry, u64OfInt?_longInteger, isWritable_longInteger]
    rfl
  -- Only one list is opened: the rest of the nesting must not be unfolded.
  · have hdeep : (nestedLists 100000).shown? = .error .tooDeep := shown?_nestedLists (by decide)
    rw [nestedLists] at hdeep ⊢
    simp only [SampleSet.checkEntry, hdeep]

end Examples

end CalibratedCosts.Calibration
