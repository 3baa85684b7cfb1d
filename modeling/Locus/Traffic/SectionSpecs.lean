import Locus.Traffic.Queues

/-!
# What each critical section does

One lemma for each section, in terms of the queue it changes. Later arguments use
these and do not open the sections again.
-/

namespace Locus.Traffic

open Std (TreeMap)
open Locus.Lib

variable {ctl : TrafficController} {s s' : TrafficState}

/-- A class has waiting requests exactly when one of its queues is not empty. -/
theorem classHasWaiting_iff (s : TrafficState) (c : String) :
    classHasWaiting s c = true ↔ ∃ t, queueOf s.waiting c t ≠ [] := by
  unfold classHasWaiting queueOf
  cases hc : s.waiting[c]? with
  | none => simp
  | some tenants =>
    simp only [Option.any_some, List.any_eq_true, Prod.exists, Option.bind_some,
      TreeMap.mem_toList_iff_getElem?_eq_some]
    constructor
    · rintro ⟨t, queue, ht, hne⟩
      exact ⟨t, by simpa [ht] using hne⟩
    · rintro ⟨t, hne⟩
      cases ht : tenants[t]? with
      | none => simp [ht] at hne
      | some queue => exact ⟨t, queue, ht, by simpa [ht] using hne⟩

/-- Normalization changes the virtual runtimes only, and not those of a class or a
tenant with waiting requests. -/
theorem normalizeIdleVruntimeLocked_spec (ctl : TrafficController) (s : TrafficState)
    (tenant : TenantPolicy) : ∃ cv tv,
    normalizeIdleVruntimeLocked ctl s tenant =
      { s with classVruntime := cv, tenantVruntime := tv } ∧
    (∀ c, (c = tenant.serviceClass → classHasWaiting s c = true) →
      count cv c = count s.classVruntime c) ∧
    (∀ t, (t = tenant.id → queueOf s.waiting tenant.serviceClass t ≠ []) →
      count tv t = count s.tenantVruntime t) := by
  have hclass : ∃ cv, normalizeIdleClass ctl s tenant = { s with classVruntime := cv } ∧
      ∀ c, (c = tenant.serviceClass → classHasWaiting s c = true) →
        count cv c = count s.classVruntime c := by
    unfold normalizeIdleClass
    split
    · rename_i hidle
      refine ⟨_, rfl, fun c hc => ?_⟩
      rw [count_insert, if_neg]
      rintro rfl
      simp [hc rfl] at hidle
    · exact ⟨_, rfl, fun _ _ => rfl⟩
  obtain ⟨cv, hcv, hkept⟩ := hclass
  unfold normalizeIdleVruntimeLocked
  rw [hcv]
  unfold normalizeIdleTenant
  split
  · rename_i hidle
    refine ⟨cv, _, rfl, hkept, fun t ht => ?_⟩
    rw [count_insert, if_neg]
    rintro rfl
    exact ht rfl (List.isEmpty_iff.mp hidle.2)
  · exact ⟨cv, _, rfl, hkept, fun _ _ => rfl⟩

theorem pushBack_eq_setQueue (w : Waiting) (c t : String) (q : QueuedRequest) :
    pushBack w c t q = setQueue w c t (queueOf w c t ++ [q]) := by
  cases hc : w[c]? <;> simp [pushBack, setQueue, queueOf, hc]

/-- Enqueueing takes the next ticket and appends to one queue. -/
theorem enqueueLocked_spec (ctl : TrafficController) (s : TrafficState) (tenant : TenantPolicy)
    (tokenCost : UInt64) (now cancellation sender : ℕ) : ∃ cv tv adm,
    enqueueLocked ctl s tenant tokenCost now cancellation sender =
      (saturatingAdd s.nextTicket 1,
        { s with
          nextTicket := saturatingAdd s.nextTicket 1
          waiting := setQueue s.waiting tenant.serviceClass tenant.id
            (queueOf s.waiting tenant.serviceClass tenant.id ++
              [{ ticket := saturatingAdd s.nextTicket 1, tokenCost, enqueuedAt := now,
                 cancellation, sender }])
          tenantQueuedRequests := increment s.tenantQueuedRequests tenant.id 1
          tenantQueuedTokens := increment s.tenantQueuedTokens tenant.id tokenCost
          classVruntime := cv
          tenantVruntime := tv
          admissions := adm }) ∧
    (∀ c, (c = tenant.serviceClass → classHasWaiting s c = true) →
      count cv c = count s.classVruntime c) ∧
    (∀ t, (t = tenant.id → queueOf s.waiting tenant.serviceClass t ≠ []) →
      count tv t = count s.tenantVruntime t) := by
  obtain ⟨cv, tv, heq, hc, ht⟩ := normalizeIdleVruntimeLocked_spec ctl
    { s with nextTicket := saturatingAdd s.nextTicket 1 } tenant
  refine ⟨cv, tv,
    increment s.admissions (toLex (tenant.serviceClass, toLex (tenant.id, "queued"))) 1,
    ?_, hc, ht⟩
  simp only [enqueueLocked, heq, pushBack_eq_setQueue]

/-- A granted request was the head of its queue. -/
theorem grantHead_spec {c t : String} {now : ℕ} {q : QueuedRequest}
    (h : grantHead ctl s c t now = some (q, s')) : ∃ rest serviceClass tenant,
    queueOf s.waiting c t = q :: rest ∧
    ctl.classes[c]? = some serviceClass ∧ ctl.tenants[t]? = some tenant ∧
    s' = activate { s with waiting := setQueue s.waiting c t rest } serviceClass
      c tenant t q now := by
  unfold grantHead at h
  obtain ⟨tenants, hc, h⟩ := Option.bind_eq_some_iff.mp h
  split at h
  · rename_i q' rest ht
    obtain ⟨serviceClass, hclass, h⟩ := Option.bind_eq_some_iff.mp h
    obtain ⟨tenant, htenant, h⟩ := Option.bind_eq_some_iff.mp h
    simp only [Option.some.injEq, Prod.mk.injEq] at h
    obtain ⟨rfl, rfl⟩ := h
    refine ⟨rest, serviceClass, tenant, ?_, hclass, htenant, ?_⟩
    · simp [queueOf, hc, ht]
    · simp [setQueue, hc]
  · cases h

/-- The head of a configured queue can be granted. -/
theorem grantHead_of_queue {c t : String} (now : ℕ) {q : QueuedRequest} {rest : List QueuedRequest}
    {serviceClass : ServiceClassPolicy} {tenant : TenantPolicy}
    (hqueue : queueOf s.waiting c t = q :: rest) (hclass : ctl.classes[c]? = some serviceClass)
    (htenant : ctl.tenants[t]? = some tenant) :
    grantHead ctl s c t now = some (q,
      activate { s with waiting := setQueue s.waiting c t rest } serviceClass c tenant t q
        now) := by
  unfold queueOf at hqueue
  cases hc : s.waiting[c]? with
  | none => simp [hc] at hqueue
  | some tenants =>
    cases ht : tenants[t]? with
    | none => simp [hc, ht] at hqueue
    | some queue =>
      obtain rfl : queue = q :: rest := by simpa [hc, ht] using hqueue
      simp [grantHead, setQueue, hc, ht, hclass, htenant]

/-- A grant succeeds on a head that `chooseCandidate` can return. -/
theorem grantHead_isSome {c t : String} (now : ℕ) {q : QueuedRequest} {rest : List QueuedRequest}
    (hqueue : queueOf s.waiting c t = q :: rest) (hclass : (ctl.classes[c]?).isSome)
    (htenant : (ctl.tenants[t]?).isSome) : (grantHead ctl s c t now).isSome := by
  obtain ⟨serviceClass, hclass⟩ := Option.isSome_iff_exists.mp hclass
  obtain ⟨tenant, htenant⟩ := Option.isSome_iff_exists.mp htenant
  rw [grantHead_of_queue now hqueue hclass htenant]
  rfl

/-- `cancel_waiter` looks for the ticket in one queue. -/
theorem cancelWaiter_eq (s : TrafficState) (ticket : UInt64) (tenant : TenantPolicy)
    (reason : String) : cancelWaiter s ticket tenant reason =
    ((queueOf s.waiting tenant.serviceClass tenant.id).find?
        fun request => request.ticket == ticket).map fun queued =>
      (queued, recordRejectionLocked
        { s with
          waiting := setQueue s.waiting tenant.serviceClass tenant.id
            ((queueOf s.waiting tenant.serviceClass tenant.id).eraseP
              fun request => request.ticket == ticket)
          tenantQueuedRequests := decrement s.tenantQueuedRequests tenant.id 1
          tenantQueuedTokens := decrement s.tenantQueuedTokens tenant.id queued.tokenCost }
        tenant reason) := by
  cases hc : s.waiting[tenant.serviceClass]? with
  | none => simp [cancelWaiter, queueOf, hc]
  | some tenants =>
    cases ht : tenants[tenant.id]? with
    | none => simp [cancelWaiter, queueOf, hc, ht]
    | some queue => simp [cancelWaiter, queueOf, setQueue, hc, ht, Option.map_eq_bind]

/-- `cancel_waiter` removes the first request with the ticket from its tenant's queue. -/
theorem cancelWaiter_spec {ticket : UInt64} {tenant : TenantPolicy} {reason : String}
    {q : QueuedRequest} (h : cancelWaiter s ticket tenant reason = some (q, s')) :
    ∃ before after rej,
      queueOf s.waiting tenant.serviceClass tenant.id = before ++ q :: after ∧
      q.ticket = ticket ∧
      s' = { s with
        waiting := setQueue s.waiting tenant.serviceClass tenant.id (before ++ after)
        tenantQueuedRequests := decrement s.tenantQueuedRequests tenant.id 1
        tenantQueuedTokens := decrement s.tenantQueuedTokens tenant.id q.tokenCost
        rejections := rej } := by
  unfold cancelWaiter at h
  obtain ⟨tenants, hc, h⟩ := Option.bind_eq_some_iff.mp h
  obtain ⟨queue, ht, h⟩ := Option.bind_eq_some_iff.mp h
  obtain ⟨q', hfind, h⟩ := Option.bind_eq_some_iff.mp h
  simp only [Option.some.injEq, Prod.mk.injEq] at h
  obtain ⟨rfl, rfl⟩ := h
  obtain ⟨hticket, before, after, hsplit, hbefore⟩ := List.find?_eq_some_iff_append.mp hfind
  have herase : queue.eraseP (fun request => request.ticket == ticket) = before ++ after := by
    rw [hsplit, List.eraseP_append_right _ (by simpa using hbefore)]
    simp [hticket]
  refine ⟨before, after, (recordRejectionLocked s tenant reason).rejections, ?_,
    by simpa using hticket, ?_⟩
  · simp [queueOf, hc, ht, hsplit]
  · simp only [recordRejectionLocked, setQueue, hc, Option.getD_some, herase]

/-- When `cancel_waiter` finds nothing, the ticket is not in its tenant's queue. -/
theorem cancelWaiter_eq_none {ticket : UInt64} {tenant : TenantPolicy} {reason : String}
    (h : cancelWaiter s ticket tenant reason = none) :
    ∀ q ∈ queueOf s.waiting tenant.serviceClass tenant.id, q.ticket ≠ ticket := by
  intro q hq
  unfold queueOf at hq
  cases hc : s.waiting[tenant.serviceClass]? with
  | none => simp [hc] at hq
  | some tenants =>
    cases ht : tenants[tenant.id]? with
    | none => simp [hc, ht] at hq
    | some queue =>
      have hmem : q ∈ queue := by simpa [hc, ht] using hq
      have hfind : queue.find? (fun request => request.ticket == ticket) = none := by
        refine Option.eq_none_iff_forall_ne_some.mpr fun found hfound => ?_
        simp [cancelWaiter, hc, ht, hfound] at h
      simpa using List.find?_eq_none.mp hfind q hmem

/-- A release takes an active ticket out and gives its capacity back. -/
theorem releaseActiveLocked_spec {ticket : UInt64} {a : ActiveRequest}
    (h : releaseActiveLocked s ticket = some (a, s')) :
    s.active[ticket]? = some a ∧
    s' = { s with
      active := s.active.erase ticket
      classActiveRequests := decrement s.classActiveRequests a.serviceClass 1
      classActiveTokens := decrement s.classActiveTokens a.serviceClass a.tokenCost
      tenantActiveRequests := decrement s.tenantActiveRequests a.tenant 1
      tenantActiveTokens := decrement s.tenantActiveTokens a.tenant a.tokenCost } := by
  unfold releaseActiveLocked at h
  obtain ⟨a', ha, h⟩ := Option.map_eq_some_iff.mp h
  simp only [Prod.mk.injEq] at h
  obtain ⟨rfl, rfl⟩ := h
  exact ⟨ha, rfl⟩

theorem releaseActiveLocked_eq_none {ticket : UInt64} :
    releaseActiveLocked s ticket = none ↔ s.active[ticket]? = none := by
  simp [releaseActiveLocked]

/-- What an accepted request has been checked for before it is enqueued. -/
structure Admissible (ctl : TrafficController) (s : TrafficState) (tenant : TenantPolicy)
    (serviceClass : ServiceClassPolicy) (tokenCost : UInt64) : Prop where
  cost_le_request : tokenCost ≤ tenant.maxTokensPerRequest
  cost_le_global : tokenCost ≤ ctl.policy.maxActiveTokens
  cost_le_class : tokenCost ≤ serviceClass.maxActiveTokens
  cost_le_tenant : tokenCost ≤ tenant.maxActiveTokens
  not_draining : s.draining = false
  queued_lt : queuedRequests s < ctl.policy.maxQueuedRequests
  tenantQueued_lt : count s.tenantQueuedRequests.map tenant.id < tenant.maxQueuedRequests

section Admission

variable {tenantId : Option String} {tokenCost : UInt64} {now cancellation sender : ℕ}
  {result : Except AdmissionError UInt64}

/-- Why a request of a known tenant is refused, with the reason that is counted. -/
def refusal (ctl : TrafficController) (s : TrafficState) (tenant : TenantPolicy)
    (serviceClass : ServiceClassPolicy) (tokenCost : UInt64) : Option (AdmissionError × String) :=
  if tokenCost = 0 ∨ tenant.maxTokensPerRequest < tokenCost then
    some (.requestTokenLimit tokenCost tenant.maxTokensPerRequest, "request_token_limit")
  else if ctl.policy.maxActiveTokens < tokenCost ∨ serviceClass.maxActiveTokens < tokenCost ∨
      tenant.maxActiveTokens < tokenCost then
    some (.requestExceedsCapacity, "active_token_capacity")
  else if s.draining then some (.draining, "draining")
  else if serviceClass.shedAtGlobalUtilizationBps.any
      (fun threshold => decide (threshold.toUInt64 ≤ activeTokenUtilizationBps s ctl.policy)) then
    some (.overloadShed, "overload_shed")
  else if ctl.policy.maxQueuedRequests ≤ queuedRequests s ∨
      tenant.maxQueuedRequests ≤ count s.tenantQueuedRequests.map tenant.id then
    some (.queueFull, "queue_full")
  else none

/-- A request of a known tenant is refused and counted, or enqueued. -/
theorem admitTenant_eq (tenant : TenantPolicy) (serviceClass : ServiceClassPolicy) :
    admitTenant ctl s tenant serviceClass tokenCost now cancellation sender =
      match refusal ctl s tenant serviceClass tokenCost with
      | some (e, reason) => (.error e, recordRejectionLocked s tenant reason)
      | none => (enqueueLocked ctl s tenant tokenCost now cancellation sender).map .ok id := by
  unfold admitTenant refusal
  split_ifs <;> rfl

/-- What is not refused has passed every check. -/
theorem admissible_of_refusal {tenant : TenantPolicy} {serviceClass : ServiceClassPolicy}
    (h : refusal ctl s tenant serviceClass tokenCost = none) :
    Admissible ctl s tenant serviceClass tokenCost := by
  unfold refusal at h
  split_ifs at h with hcost hcapacity hdraining hshed hfull
  simp only [not_or, UInt64.not_lt, UInt64.not_le] at hcost hcapacity hfull
  exact ⟨hcost.2, hcapacity.1, hcapacity.2.1, hcapacity.2.2, by simpa using hdraining,
    hfull.1, hfull.2⟩

/-- A request of a known tenant is refused and counted, or it passes every check. -/
theorem admitTenant_cases (tenant : TenantPolicy) (serviceClass : ServiceClassPolicy) :
    (∃ e reason, admitTenant ctl s tenant serviceClass tokenCost now cancellation sender =
      (.error e, recordRejectionLocked s tenant reason)) ∨
    Admissible ctl s tenant serviceClass tokenCost ∧
      admitTenant ctl s tenant serviceClass tokenCost now cancellation sender =
        (enqueueLocked ctl s tenant tokenCost now cancellation sender).map .ok id := by
  rw [admitTenant_eq]
  cases hrefusal : refusal ctl s tenant serviceClass tokenCost with
  | some refused => exact .inl ⟨refused.1, refused.2, rfl⟩
  | none => exact .inr ⟨admissible_of_refusal hrefusal, rfl⟩

/-- A request is refused, which is counted if its tenant is known, or it is enqueued. -/
theorem admitRequest_cases
    (h : admitRequest ctl s tenantId tokenCost now cancellation sender = (result, s')) :
    (∃ e, result = .error e ∧ s' = s) ∨
    (∃ e tenant reason, result = .error e ∧ s' = recordRejectionLocked s tenant reason) ∨
    ∃ id tenant serviceClass ticket, tenantId = some id ∧ ctl.tenants[id]? = some tenant ∧
      ctl.classes[tenant.serviceClass]? = some serviceClass ∧
      Admissible ctl s tenant serviceClass tokenCost ∧ result = .ok ticket ∧
      enqueueLocked ctl s tenant tokenCost now cancellation sender = (ticket, s') := by
  unfold admitRequest at h
  cases tenantId with
  | none =>
    cases h
    exact .inl ⟨_, rfl, rfl⟩
  | some id =>
    simp only at h
    cases htenant : ctl.tenants[id]? with
    | none =>
      rw [htenant] at h
      cases h
      exact .inl ⟨_, rfl, rfl⟩
    | some tenant =>
      simp only [htenant] at h
      cases hclass : ctl.classes[tenant.serviceClass]? with
      | none =>
        rw [hclass] at h
        cases h
        exact .inl ⟨_, rfl, rfl⟩
      | some serviceClass =>
        simp only [hclass] at h
        obtain ⟨e, reason, heq⟩ | ⟨hadmissible, heq⟩ := admitTenant_cases tenant serviceClass
        · rw [heq] at h
          cases h
          exact .inr (.inl ⟨e, tenant, reason, rfl, rfl⟩)
        · rw [heq] at h
          cases h
          exact .inr (.inr ⟨id, tenant, serviceClass, _, rfl, htenant, hclass, hadmissible, rfl,
            rfl⟩)

/-- A refused request leaves everything but the rejection counters alone. -/
theorem admit_error {e : AdmissionError}
    (h : admitRequest ctl s tenantId tokenCost now cancellation sender = (.error e, s')) :
    ∃ rej, s' = { s with rejections := rej } := by
  obtain ⟨_, _, rfl⟩ | ⟨_, tenant, reason, _, rfl⟩ | ⟨_, _, _, _, _, _, _, _, hok, _⟩ :=
    admitRequest_cases h
  · exact ⟨s'.rejections, rfl⟩
  · exact ⟨_, rfl⟩
  · cases hok

/-- An enqueued request belongs to a configured tenant and passed every check. -/
theorem admit_ok {ticket : UInt64}
    (h : admitRequest ctl s tenantId tokenCost now cancellation sender = (.ok ticket, s')) :
    ∃ id tenant serviceClass, tenantId = some id ∧ ctl.tenants[id]? = some tenant ∧
      ctl.classes[tenant.serviceClass]? = some serviceClass ∧
      Admissible ctl s tenant serviceClass tokenCost ∧
      enqueueLocked ctl s tenant tokenCost now cancellation sender = (ticket, s') := by
  obtain ⟨_, herror, _⟩ | ⟨_, _, _, herror, _⟩ |
    ⟨id, tenant, serviceClass, _, hid, htenant, hclass, hadmissible, hok, henqueue⟩ :=
    admitRequest_cases h
  · cases herror
  · cases herror
  · cases hok
    exact ⟨id, tenant, serviceClass, hid, htenant, hclass, hadmissible, henqueue⟩

end Admission

end Locus.Traffic
