import Mathlib
import CalibratedCosts.Proofs.Meter.History
import CalibratedCosts.Proofs.Outcome

/-! # Charges in any order

    Requests that fit the budget together come out the same in whatever order
    the meter takes them up.

    * **Quotes**: a request is answered by the table alone as long as the budget
      does not come in.
    * **Totals**: adding bills to what has been charged commutes, whether or not
      a sum is clamped on the way.
    * **Clients**: several clients send their requests, each at its own pace.
      A charge is one step, and no step changes what the totals and the answers
      will be in the end.
-/

namespace CalibratedCosts.CostMeter

/-! ## Section 1: requests and their bills -/

/-- A request to charge one run of an operation. -/
structure Request where
  operation : Datum
  size : Int

/-- The request as a call on a meter. -/
def Request.call (r : Request) : Call := .charge r.operation r.size

/-- The answer to a request as far as the table decides it. -/
def quote (t : CostModelTable) (r : Request) : Answer :=
  match (t.evaluate r.operation r.size).outcome with
  | .ok cost => .cost cost
  | .error refusal => .refused (.refused refusal)

/-- What a valid request is billed: its operation and its cost. -/
def bill? (t : CostModelTable) (r : Request) : Option (Text × Int) :=
  match r.operation.identifier?, (t.evaluate r.operation r.size).outcome with
  | some name, .ok cost => some (name, cost)
  | _, _ => none

/-- The bills of the valid ones among some requests. -/
def bills (t : CostModelTable) (requests : List Request) : List (Text × Int) :=
  requests.filterMap (bill? t)

/-- The exact sum of the bills. -/
def billed (t : CostModelTable) (requests : List Request) : Int :=
  ((bills t requests).map Prod.snd).sum

/-- There is no limit, or else what has been consumed and the bills of the
    requests are together within it. -/
def Fits (m : CostMeter) (requests : List Request) : Prop :=
  ∀ limit, m.limit = some limit → m.consumed + billed m.table requests ≤ limit.1

section Bills

variable {t : CostModelTable} {r : Request} {rest requests requests' : List Request}

theorem prices_of_bill? {b : Text × Int} (h : bill? t r = some b) :
    t.Prices r.operation r.size b.1 b.2 := by
  unfold bill? at h
  split at h
  · rename_i name cost hname hcost
    cases h
    exact CostModelTable.prices_iff.2 ⟨hname, hcost⟩
  · cases h

/-- A request without a bill is refused by the table. -/
theorem exists_refusal_of_bill? (h : bill? t r = none) :
    ∃ refusal, (t.evaluate r.operation r.size).outcome = .error refusal := by
  cases hname : r.operation.identifier? with
  | none => exact ⟨_, t.outcome_evaluate_of_no_identifier hname r.size⟩
  | some name =>
    cases houtcome : (t.evaluate r.operation r.size).outcome with
    | error refusal => exact ⟨refusal, rfl⟩
    | ok cost =>
      unfold bill? at h
      rw [hname, houtcome] at h
      cases h

theorem nonneg_of_mem_bills : ∀ b ∈ bills t requests, 0 ≤ b.2 := by
  intro b hb
  obtain ⟨r, _, hbill⟩ := List.mem_filterMap.1 hb
  exact (prices_of_bill? hbill).nonneg

theorem billed_nonneg : 0 ≤ billed t requests := by
  apply List.sum_nonneg
  intro cost hcost
  obtain ⟨b, hb, rfl⟩ := List.mem_map.1 hcost
  exact nonneg_of_mem_bills b hb

theorem bills_cons_of_none (h : bill? t r = none) : bills t (r :: rest) = bills t rest :=
  List.filterMap_cons_none h

theorem bills_cons_of_some {b : Text × Int} (h : bill? t r = some b) :
    bills t (r :: rest) = b :: bills t rest :=
  List.filterMap_cons_some h

theorem billed_perm (h : requests.Perm requests') : billed t requests = billed t requests' :=
  ((h.filterMap (bill? t)).map Prod.snd).sum_eq

end Bills

/-! ## Section 2: totals -/

/-- What has been charged, in all and by operation, without the order of the
    operations. -/
structure Totals where
  consumed : Int
  charges : Text → Option Int
  counts : Text → Option Nat

def totals (m : CostMeter) : Totals := ⟨m.consumed, m.charges.get?, m.counts.get?⟩

namespace Totals

def add (v : Totals) (b : Text × Int) : Totals where
  consumed := saturatingAdd v.consumed b.2
  charges := Function.update v.charges b.1 (some (saturatingAdd ((v.charges b.1).getD 0) b.2))
  counts := Function.update v.counts b.1 (some ((v.counts b.1).getD 0 + 1))

def addAll (v : Totals) (bs : List (Text × Int)) : Totals := bs.foldl add v

theorem add_right_comm (v : Totals) {b c : Text × Int} (hb : 0 ≤ b.2) (hc : 0 ≤ c.2) :
    (v.add b).add c = (v.add c).add b := by
  have hconsumed := saturatingAdd_right_comm v.consumed hb hc
  by_cases hname : b.1 = c.1
  -- One operation: its own two sums commute.
  · have hcharge := saturatingAdd_right_comm ((v.charges b.1).getD 0) hb hc
    simp only [add, hconsumed, ← hname, Function.update_self, Function.update_idem,
      Option.getD_some, hcharge]
  -- Two operations: neither bill comes near the entries of the other.
  · simp only [add, hconsumed, Function.update_of_ne hname, Function.update_of_ne (Ne.symm hname),
      Function.update_comm hname]

theorem addAll_perm (v : Totals) {bs cs : List (Text × Int)} (h : bs.Perm cs)
    (hnonneg : ∀ b ∈ bs, 0 ≤ b.2) : v.addAll bs = v.addAll cs := by
  apply h.foldl_eq'
  intro b hb c hc v
  exact add_right_comm v (hnonneg b hb) (hnonneg c hc)

end Totals

theorem totals_record (m : CostMeter) (name : Text) (cost : Int) :
    (m.record name cost).totals = m.totals.add (name, cost) := by
  -- Totals do not see where a name stands in the map, only what it maps to.
  have hcharges : (m.record name cost).charges.get? =
      Function.update m.charges.get? name
        (some (saturatingAdd ((m.charges.get? name).getD 0) cost)) := by
    funext operation
    show (m.charges.insert name _).get? operation = _
    rw [OrderedMap.get?_insert, Function.update_apply]
    rfl
  have hcounts : (m.record name cost).counts.get? =
      Function.update m.counts.get? name (some ((m.counts.get? name).getD 0 + 1)) := by
    funext operation
    show (m.counts.insert name _).get? operation = _
    rw [OrderedMap.get?_insert, Function.update_apply]
    rfl
  unfold totals Totals.add
  rw [hcharges, hcounts]
  rfl

/-- The meters show the same: the same total, the same rest of the budget, and
    the same charges and counts for every operation. -/
structure ShowsAs (m m' : CostMeter) : Prop where
  consumed_eq : m.consumed = m'.consumed
  remaining_eq : m.remaining = m'.remaining
  charges_eq : ∀ operation, m.charges.get? operation = m'.charges.get? operation
  counts_eq : ∀ operation, m.counts.get? operation = m'.counts.get? operation

theorem showsAs_of_totals_eq {m m' : CostMeter} (h : m.totals = m'.totals)
    (hlimit : m.limit = m'.limit) : m.ShowsAs m' where
  consumed_eq := congrArg Totals.consumed h
  remaining_eq := by
    have hconsumed : m.consumed = m'.consumed := congrArg Totals.consumed h
    unfold remaining
    rw [hlimit, hconsumed]
  charges_eq := congrFun (congrArg Totals.charges h)
  counts_eq := congrFun (congrArg Totals.counts h)

/-! ## Section 3: requests one after the other -/

/-- A bill that fits the budget is recorded. -/
theorem call_of_bill {m : CostMeter} {r : Request} {b : Text × Int}
    (h : bill? m.table r = some b)
    (hfits : ∀ limit, m.limit = some limit → m.consumed + b.2 ≤ limit.1) :
    m.call r.call = (quote m.table r, m.record b.1 b.2) := by
  have hprice := prices_of_bill? h
  have hnone : m.exceeded? (saturatingAdd m.consumed b.2) = none := by
    rw [exceeded?_eq_none_iff]
    intro limit hlimit
    exact le_trans (saturatingAdd_le _ _) (hfits limit hlimit)
  simp only [Request.call, call, quote, charge_of_fits hprice hnone, hprice.evaluate.1]

/-- A request without a bill changes nothing. -/
theorem call_of_no_bill {m : CostMeter} {r : Request} (h : bill? m.table r = none) :
    m.call r.call = (quote m.table r, m) := by
  obtain ⟨refusal, hrefusal⟩ := exists_refusal_of_bill? h
  simp only [Request.call, call, quote, charge_of_refused hrefusal, hrefusal]

/-- The meter has this table and this limit, the requests to come fit its budget,
    and once they are billed its totals are `final`. -/
structure OnCourse (t : CostModelTable) (limit : Option { n : Nat // n ≤ u64Max })
    (final : Totals) (m : CostMeter) (pending : List Request) : Prop where
  table_eq : m.table = t
  limit_eq : m.limit = limit
  fits : m.Fits pending
  final_eq : m.totals.addAll (bills t pending) = final

section Course

variable {t : CostModelTable} {limit : Option { n : Nat // n ≤ u64Max }} {final : Totals}
  {m : CostMeter} {pending pending' rest : List Request} {r : Request}

theorem Fits.onCourse (h : m.Fits pending) :
    OnCourse m.table m.limit (m.totals.addAll (bills m.table pending)) m pending :=
  ⟨rfl, rfl, h, rfl⟩

/-- Meters that come to the end of one course show the same. -/
theorem OnCourse.showsAs {m' : CostMeter} (h : OnCourse t limit final m [])
    (h' : OnCourse t limit final m' []) : m.ShowsAs m' :=
  showsAs_of_totals_eq (h.final_eq.trans h'.final_eq.symm) (h.limit_eq.trans h'.limit_eq.symm)

/-- The order of the requests to come makes no difference. -/
theorem OnCourse.perm (h : OnCourse t limit final m pending) (hperm : pending.Perm pending') :
    OnCourse t limit final m pending' where
  table_eq := h.table_eq
  limit_eq := h.limit_eq
  fits := by
    intro n hn
    rw [← billed_perm hperm]
    exact h.fits n hn
  final_eq := by
    rw [← h.final_eq]
    exact (Totals.addAll_perm m.totals (hperm.filterMap _) nonneg_of_mem_bills).symm

/-- The step: the next request gets its quote, and the meter stays on course. -/
theorem OnCourse.call (h : OnCourse t limit final m (r :: rest)) :
    (m.call r.call).1 = quote t r ∧ OnCourse t limit final (m.call r.call).2 rest := by
  -- What is left to bill fits the limit together with what is consumed.
  obtain ⟨rfl, rfl, hfits, rfl⟩ := h
  cases hbill : bill? m.table r with
  | none =>
    rw [call_of_no_bill hbill]
    refine ⟨rfl, rfl, rfl, ?_, ?_⟩
    · unfold Fits billed at hfits
      rw [bills_cons_of_none hbill] at hfits
      exact hfits
    · rw [bills_cons_of_none hbill]
  -- This request is billed now and no longer counted among the rest, so the sum
  -- stays.
  | some b =>
    have hsum : billed m.table (r :: rest) = b.2 + billed m.table rest := by
      unfold billed
      rw [bills_cons_of_some hbill, List.map_cons, List.sum_cons]
    have hrest : 0 ≤ billed m.table rest := billed_nonneg
    have hnow : ∀ limit, m.limit = some limit → m.consumed + b.2 ≤ limit.1 := by
      intro limit hlimit
      have hall := hfits limit hlimit
      omega
    rw [call_of_bill hbill hnow]
    refine ⟨rfl, rfl, rfl, ?_, ?_⟩
    · intro limit hlimit
      have hall := hfits limit hlimit
      have hadd := saturatingAdd_le m.consumed b.2
      show saturatingAdd m.consumed b.2 + billed m.table rest ≤ limit.1
      omega
    · rw [bills_cons_of_some hbill, totals_record]
      rfl

/-- The run: each request gets its quote, and the meter ends with the final
    totals. -/
theorem OnCourse.after (h : OnCourse t limit final m pending) :
    m.answers (pending.map Request.call) = pending.map (quote t) ∧
      OnCourse t limit final (m.after (pending.map Request.call)) [] := by
  induction pending generalizing m with
  | nil => exact ⟨rfl, h⟩
  | cons r rest ih =>
    obtain ⟨hanswer, hnext⟩ := h.call
    obtain ⟨hanswers, hlast⟩ := ih hnext
    refine ⟨?_, hlast⟩
    rw [List.map_cons, answers, hanswer, hanswers, List.map_cons]

end Course

/-! ## Section 4: several clients -/

/-- A client with the requests it has not sent yet and the answers it has got. -/
structure Client where
  pending : List Request
  received : List Answer

/-- A meter and its clients. -/
structure Session where
  meter : CostMeter
  clients : List Client

namespace Session

/-- The clients start with their requests and without answers. -/
def start (m : CostMeter) (queues : List (List Request)) : Session :=
  ⟨m, queues.map fun queue => ⟨queue, []⟩⟩

/-- Some client sends its next request, and the meter answers it at once. -/
inductive Step : Session → Session → Prop
  | charge (m : CostMeter) (before after : List Client) (r : Request) (rest : List Request)
      (received : List Answer) :
    Step ⟨m, before ++ ⟨r :: rest, received⟩ :: after⟩
      ⟨(m.call r.call).2, before ++ ⟨rest, received ++ [(m.call r.call).1]⟩ :: after⟩

def IsDone (s : Session) : Prop := ∀ c ∈ s.clients, c.pending = []

def pending (s : Session) : List Request := s.clients.flatMap Client.pending

/-- The answers that a client has, and the quotes for its requests to come. -/
def promised (t : CostModelTable) (c : Client) : List Answer :=
  c.received ++ c.pending.map (quote t)

variable {t : CostModelTable} {limit : Option { n : Nat // n ≤ u64Max }} {final : Totals}
  {m : CostMeter} {queues : List (List Request)} {s s' : Session}

/-- The meter is on course with what the clients have not sent yet, and each
    client is promised the quotes of all its requests. -/
structure Keeps (t : CostModelTable) (limit : Option { n : Nat // n ≤ u64Max }) (final : Totals)
    (queues : List (List Request)) (s : Session) : Prop where
  onCourse : OnCourse t limit final s.meter s.pending
  promised_eq : s.clients.map (promised t) = queues.map fun queue => queue.map (quote t)

theorem pending_start : (start m queues).pending = queues.flatten := by
  show (queues.map _).flatMap Client.pending = _
  rw [List.flatMap_map]
  exact List.flatMap_id'

theorem keeps_start (h : OnCourse t limit final m queues.flatten) :
    Keeps t limit final queues (start m queues) where
  onCourse := by
    rw [pending_start]
    exact h
  promised_eq := by
    show (queues.map _).map _ = _
    rw [List.map_map]
    rfl

/-- The request that is sent comes first in one order of what is pending. -/
theorem pending_perm (m m' : CostMeter) (before after : List Client) (r : Request)
    (rest : List Request) (received received' : List Answer) :
    (⟨m, before ++ ⟨r :: rest, received⟩ :: after⟩ : Session).pending.Perm
      (r :: (⟨m', before ++ ⟨rest, received'⟩ :: after⟩ : Session).pending) := by
  simp only [pending, List.flatMap_append, List.flatMap_cons, List.cons_append]
  exact List.perm_middle

/-- A step of any client keeps the promises. -/
theorem Keeps.step (h : Keeps t limit final queues s) (hstep : Step s s') :
    Keeps t limit final queues s' := by
  obtain ⟨hcourse, hpromised⟩ := h
  cases hstep with
  | charge m before after r rest received =>
    obtain ⟨hanswer, hnext⟩ := (hcourse.perm (pending_perm m (m.call r.call).2 before after r rest
      received (received ++ [(m.call r.call).1]))).call
    constructor
    · exact hnext
    · rw [← hpromised, hanswer]
      simp [promised]

theorem Keeps.run (h : Keeps t limit final queues s) (hrun : Relation.ReflTransGen Step s s') :
    Keeps t limit final queues s' := by
  induction hrun with
  | refl => exact h
  | tail _ hstep ih => exact ih.step hstep

/-- When all requests have been sent the totals are the final ones and the
    promises are the answers. -/
theorem Keeps.done (h : Keeps t limit final queues s) (hdone : s.IsDone) :
    OnCourse t limit final s.meter [] ∧
      s.clients.map Client.received = queues.map fun queue => queue.map (quote t) := by
  -- Nothing is pending, so what was promised has been received.
  have hpending : s.pending = [] := List.flatMap_eq_nil_iff.2 hdone
  have hreceived : s.clients.map Client.received = s.clients.map (promised t) := by
    apply List.map_congr_left
    intro c hc
    unfold promised
    rw [hdone c hc, List.map_nil, List.append_nil]
  constructor
  · rw [← hpending]
    exact h.onCourse
  · rw [hreceived, h.promised_eq]

theorem exists_step (h : ¬ s.IsDone) : ∃ s', Step s s' := by
  unfold IsDone at h
  push Not at h
  obtain ⟨⟨pending, received⟩, hc, hpending⟩ := h
  obtain ⟨r, rest, rfl⟩ := List.exists_cons_of_ne_nil hpending
  obtain ⟨before, after, hclients⟩ := List.append_of_mem hc
  obtain ⟨m, clients⟩ := s
  cases hclients
  exact ⟨_, .charge m before after r rest received⟩

theorem Step.length_pending (h : Step s s') : s.pending.length = s'.pending.length + 1 := by
  cases h with
  | charge m before after r rest received => exact (pending_perm ..).length_eq

/-- Every session can be finished. -/
theorem exists_done (s : Session) : ∃ s', Relation.ReflTransGen Step s s' ∧ s'.IsDone := by
  -- Induction on the number of requests that have not been sent yet.
  induction hn : s.pending.length generalizing s with
  | zero =>
    refine ⟨s, .refl, ?_⟩
    exact List.flatMap_eq_nil_iff.1 (List.eq_nil_of_length_eq_zero hn)
  | succ n ih =>
    have hopen : ¬ s.IsDone := by
      intro hdone
      rw [show s.pending = [] from List.flatMap_eq_nil_iff.2 hdone] at hn
      cases hn
    obtain ⟨next, hstep⟩ := exists_step hopen
    have hlength := hstep.length_pending
    obtain ⟨s', hrun, hdone⟩ := ih next (by omega)
    exact ⟨s', hrun.head hstep, hdone⟩

end Session

/-! ## Section 5: the result -/

/-- Requests that fit the budget together are all answered by their quotes, none
    of which is about the budget, and lead to the same totals: in every order
    of the requests, and in every run of clients that share them. -/
theorem charges_commute (m : CostMeter) (requests : List Request) (h : m.Fits requests) :
    (∀ r operation cost consumed limit,
      quote m.table r ≠ .refused (.budgetExceeded operation cost consumed limit)) ∧
    (∀ order : List Request, order.Perm requests →
      m.answers (order.map Request.call) = order.map (quote m.table) ∧
      (m.after (order.map Request.call)).ShowsAs (m.after (requests.map Request.call))) ∧
    ∀ (queues : List (List Request)) (s : Session), queues.flatten.Perm requests →
      Relation.ReflTransGen Session.Step (Session.start m queues) s → s.IsDone →
        s.clients.map Client.received = (queues.map fun queue => queue.map (quote m.table)) ∧
        s.meter.ShowsAs (m.after (requests.map Request.call)) := by
  -- Every order of the requests is on the same course, and so is every
  -- interleaving.
  have hcourse := h.onCourse
  obtain ⟨-, hlast⟩ := hcourse.after
  refine ⟨?_, ?_, ?_⟩
  -- A quotation looks at no limit.
  · intro r operation cost consumed limit hquote
    unfold quote at hquote
    split at hquote
    · cases hquote
    · cases hquote
  · intro order horder
    obtain ⟨hanswers, hend⟩ := (hcourse.perm horder.symm).after
    exact ⟨hanswers, hend.showsAs hlast⟩
  · intro queues s hqueues hrun hdone
    have hkeeps := (Session.keeps_start (hcourse.perm hqueues.symm)).run hrun
    obtain ⟨hend, hreceived⟩ := hkeeps.done hdone
    exact ⟨hreceived, hend.showsAs hlast⟩

def pairTable : CostModelTable where
  entries :=
    ⟨[("HostMemAlloc", ⟨100, 50, by decide, by decide⟩),
      ("HostMemCpy", ⟨11, 13, by decide, by decide⟩)], by decide, by decide⟩
  calibratedAt := "2024-02-01T00:00:00+00:00"
  dated := by decide

/-- A meter on that table whose budget is all but used up. -/
def tightMeter : CostMeter := ⟨pairTable, some ⟨400, by decide⟩, 83, .empty, .empty⟩

/-- The requests of one client: its second one names an operation without a
    model. -/
def firstQueue : List Request :=
  [⟨.operation .hostMemCpy, 10⟩, ⟨.text "ghost", 1⟩, ⟨.text "HostMemAlloc", 0⟩]

def secondQueue : List Request :=
  [⟨.null, 0⟩, ⟨.text "HostMemCpy", -1⟩, ⟨.text "HostMemCpy", 5⟩]

/-- Both clients together use up the budget to the last unit, whoever comes
    first. -/
theorem firstQueue_secondQueue_commute :
    tightMeter.Fits (firstQueue ++ secondQueue) ∧
    (tightMeter.after ((secondQueue ++ firstQueue).map Request.call)).ShowsAs
      (tightMeter.after ((firstQueue ++ secondQueue).map Request.call)) ∧
    (tightMeter.after ((firstQueue ++ secondQueue).map Request.call)).remaining = some 0 ∧
    ∃ s, Relation.ReflTransGen Session.Step
        (Session.start tightMeter [firstQueue, secondQueue]) s ∧
      s.clients.map Client.received =
        [[.cost 141, .refused (.refused (.uncalibrated "ghost")), .cost 100],
         [.refused (.refused (.identifier ⟨.null⟩)), .refused (.refused (.size ⟨-1⟩)), .cost 76]] := by
  have hfits : tightMeter.Fits (firstQueue ++ secondQueue) := by
    intro limit hlimit
    cases hlimit
    decide
  obtain ⟨-, horders, hruns⟩ := charges_commute tightMeter (firstQueue ++ secondQueue) hfits
  obtain ⟨s, hrun, hdone⟩ :=
    Session.exists_done (Session.start tightMeter [firstQueue, secondQueue])
  obtain ⟨hreceived, -⟩ := hruns [firstQueue, secondQueue] s (by simp) hrun hdone
  refine ⟨hfits, (horders _ List.perm_append_comm).2, rfl, s, hrun, ?_⟩
  rw [hreceived]
  rfl

end CalibratedCosts.CostMeter
