import Locus.Traffic.Choice
import Locus.Traffic.System

/-!
# What one step of the system can do

`Move` lists the effects a step can have, each with the facts the controller has
checked before it. Every invariant is proved by cases on it, and only
`move_of_step` looks into the step function.
-/

namespace Locus.Traffic

open Std (TreeMap)
open Locus.Lib

variable {ctl : TrafficController} {s s' : TrafficState}

/-- A request has passed the checks of `admit` and is put at the end of its queue. -/
structure Enqueues (ctl : TrafficController) (s : TrafficState) (tenant : TenantPolicy)
    (serviceClass : ServiceClassPolicy) (request : QueuedRequest) (s' : TrafficState) : Prop where
  tenant_eq : ctl.tenants[tenant.id]? = some tenant
  class_eq : ctl.classes[tenant.serviceClass]? = some serviceClass
  admissible : Admissible ctl s tenant serviceClass request.tokenCost
  ticket_eq : request.ticket = saturatingAdd s.nextTicket 1
  state_eq : ∃ cv tv adm, s' = { s with
    nextTicket := request.ticket
    waiting := setQueue s.waiting tenant.serviceClass tenant.id
      (queueOf s.waiting tenant.serviceClass tenant.id ++ [request])
    tenantQueuedRequests := increment s.tenantQueuedRequests tenant.id 1
    tenantQueuedTokens := increment s.tenantQueuedTokens tenant.id request.tokenCost
    classVruntime := cv
    tenantVruntime := tv
    admissions := adm }
  classVruntime_eq : ∀ c, (c = tenant.serviceClass → classHasWaiting s c = true) →
    count s'.classVruntime c = count s.classVruntime c
  tenantVruntime_eq : ∀ t, (t = tenant.id → queueOf s.waiting tenant.serviceClass t ≠ []) →
    count s'.tenantVruntime t = count s.tenantVruntime t

/-- The head of the chosen queue becomes active. -/
structure Grants (ctl : TrafficController) (s : TrafficState) (c t : String) (q : QueuedRequest)
    (s' : TrafficState) : Prop where
  room : s.active.size < ctl.policy.maxActiveRequests.toNat
  chosen : chooseCandidate ctl s = some (c, t)
  state_eq : ∃ rest serviceClass tenant now,
    queueOf s.waiting c t = q :: rest ∧
    ctl.classes[c]? = some serviceClass ∧ ctl.tenants[t]? = some tenant ∧
    s' = activate { s with waiting := setQueue s.waiting c t rest } serviceClass c tenant t q now

/-- A waiter leaves its queue. -/
structure Cancels (s : TrafficState) (c t : String) (q : QueuedRequest) (s' : TrafficState) :
    Prop where
  state_eq : ∃ before after rej, queueOf s.waiting c t = before ++ q :: after ∧
    s' = { s with
      waiting := setQueue s.waiting c t (before ++ after)
      tenantQueuedRequests := decrement s.tenantQueuedRequests t 1
      tenantQueuedTokens := decrement s.tenantQueuedTokens t q.tokenCost
      rejections := rej }

/-- An active ticket gives its capacity back. -/
structure Releases (s : TrafficState) (ticket : UInt64) (a : ActiveRequest) (s' : TrafficState) :
    Prop where
  active_eq : s.active[ticket]? = some a
  state_eq : s' = { s with
    active := s.active.erase ticket
    classActiveRequests := decrement s.classActiveRequests a.serviceClass 1
    classActiveTokens := decrement s.classActiveTokens a.serviceClass a.tokenCost
    tenantActiveRequests := decrement s.tenantActiveRequests a.tenant 1
    tenantActiveTokens := decrement s.tenantActiveTokens a.tenant a.tokenCost }

/-- The waiting requests in the order in which `begin_drain` visits them. -/
def waitingList (w : Waiting) : List WaitingEntry :=
  w.toList.flatMap fun entry => entry.2.toList.flatMap fun (tenantId, queue) =>
    queue.map (.mk entry.1 tenantId)

/-- Every waiter is turned away. -/
structure Drains (s s' : TrafficState) : Prop where
  not_draining : s.draining = false
  state_eq : ∃ rej, s' = { s with
    draining := true
    waiting := ∅
    tenantQueuedRequests :=
      (waitingList s.waiting).foldl (fun c e => decrement c e.tenant 1) s.tenantQueuedRequests
    tenantQueuedTokens := (waitingList s.waiting).foldl
      (fun c e => decrement c e.tenant e.request.tokenCost) s.tenantQueuedTokens
    rejections := rej }

section Drain

theorem coe_waitingList (w : Waiting) :
    (waitingList w : Multiset WaitingEntry) = waitingEntries w := by
  simp only [waitingList, waitingEntries, classEntries, entries, Multiset.coe_bind,
    Multiset.map_coe]

private theorem drainedRequests_eq (hknown : QueuesKnown ctl s.waiting) :
    ∃ tenantOf : WaitingEntry → TenantPolicy, drainedRequests ctl s.waiting =
      (waitingList s.waiting).map fun e => (e.tenant, tenantOf e, e.request) := by
  refine ⟨fun e => ctl.tenants[e.tenant]?.getD ⟨"", "", 0, 0, 0, 0, 0, 0, 0⟩, ?_⟩
  simp only [drainedRequests, waitingList, List.map_flatMap]
  refine List.flatMap_congr fun entry hentry => List.flatMap_congr fun tq htq => ?_
  obtain ⟨c, tenants⟩ := entry
  obtain ⟨t, queue⟩ := tq
  have hc := TreeMap.mem_toList_iff_getElem?_eq_some.mp hentry
  have ht := TreeMap.mem_toList_iff_getElem?_eq_some.mp htq
  cases htenant : ctl.tenants[t]? with
  | some tenant => simp [htenant]
  | none =>
    cases queue with
    | nil => simp
    | cons q rest =>
      have := hknown.tenants c t (by simp [queueOf, hc, ht])
      simp [htenant] at this

private theorem foldl_drainOne (l : List WaitingEntry) (tenantOf : WaitingEntry → TenantPolicy)
    (s : TrafficState) :
    ∃ rej, (l.map fun e => (e.tenant, tenantOf e, e.request)).foldl drainOne s = { s with
      tenantQueuedRequests := l.foldl (fun c e => decrement c e.tenant 1) s.tenantQueuedRequests
      tenantQueuedTokens := l.foldl (fun c e => decrement c e.tenant e.request.tokenCost)
        s.tenantQueuedTokens
      rejections := rej } := by
  induction l generalizing s with
  | nil => exact ⟨s.rejections, rfl⟩
  | cons e l ih =>
    obtain ⟨rej, heq⟩ := ih (drainOne s (e.tenant, tenantOf e, e.request))
    exact ⟨rej, by rw [List.map_cons, List.foldl_cons, heq]; rfl⟩

/-- `begin_drain` turns away everything that waits. -/
theorem beginDrain_spec (hknown : QueuesKnown ctl s.waiting) (h : s.draining = false) :
    (beginDrain ctl s).1 = (waitingList s.waiting).map WaitingEntry.request ∧
      Drains s (beginDrain ctl s).2 := by
  obtain ⟨tenantOf, heq⟩ := drainedRequests_eq hknown
  obtain ⟨rej, hfold⟩ := foldl_drainOne (waitingList s.waiting) tenantOf
    { s with draining := true, waiting := ∅ }
  have hdrain : beginDrain ctl s =
      ((drainedRequests ctl s.waiting).map fun request => request.2.2,
        (drainedRequests ctl s.waiting).foldl drainOne
          { s with draining := true, waiting := ∅ }) := by
    simp [beginDrain, h]
  rw [hdrain, heq, hfold]
  exact ⟨by simp [Function.comp_def], h, rej, rfl⟩

end Drain

/-- What a caller may do with its receiver or its permit. -/
inductive PhaseMove : Phase → Phase → Prop
  | receivePermit : PhaseMove .sentPermit .held
  | receiveError : PhaseMove .sentError .closed
  | abandon : PhaseMove .waiting .abandoned
  | dropUndelivered : PhaseMove .sentPermit .dropping
  | dropHeld : PhaseMove .held .dropping

/-- The effects of one step, by label. -/
inductive Move (ctl : TrafficController) (sys : System) : Label → System → Prop
  | refused {tenant cost now cancellation rej} (free : sys.lock = .free) :
      Move ctl sys (.admitRequest tenant cost now cancellation)
        { sys with state := { sys.state with rejections := rej } }
  | enqueued {tenant serviceClass request s' now} (free : sys.lock = .free)
      (enqueues : Enqueues ctl sys.state tenant serviceClass request s')
      (sender_eq : request.sender = sys.channels.length) :
      Move ctl sys (.admitRequest (some tenant.id) request.tokenCost now request.cancellation)
        { sys with
          state := s'
          lock := .scheduling false
          channels := sys.channels ++ [{ ticket := request.ticket, tenant := tenant.id }]
          log := sys.log ++ [.enqueued request.ticket tenant.id] }
  | delivered {c t q s' now} (busy : sys.lock ≠ .free) (grants : Grants ctl sys.state c t q s')
      (alive : phaseOf sys.channels q.sender = .waiting) :
      Move ctl sys (.schedule now)
        { sys with
          state := s'
          channels := setPhase sys.channels q.sender .sentPermit
          log := sys.log ++ [.granted q.ticket t, .sent q.sender] }
  | undelivered {c t q s₁ s₂ a now} (busy : sys.lock ≠ .free)
      (grants : Grants ctl sys.state c t q s₁) (releases : Releases s₁ q.ticket a s₂)
      (gone : phaseOf sys.channels q.sender ≠ .waiting) :
      Move ctl sys (.schedule now)
        { sys with
          state := s₂
          channels := setPhase sys.channels q.sender .closed
          log := sys.log ++ [.granted q.ticket t, .released q.ticket] }
  | unlocked {n} (busy : sys.lock ≠ .free) (idle : nextCandidate ctl sys.state = none) :
      Move ctl sys .unlock { sys with lock := .free, idleNotifications := n }
  | cancelMissed {id reason channel tenant} (free : sys.lock = .free)
      (channel_eq : sys.channels[id]? = some channel)
      (tenant_eq : ctl.tenants[channel.tenant]? = some tenant)
      (absent : ∀ q ∈ queueOf sys.state.waiting tenant.serviceClass channel.tenant,
        q.ticket ≠ channel.ticket) :
      Move ctl sys (.cancel id reason)
        { sys with
          channels := sys.channels.modify id fun channel => { channel with cancelling := true } }
  | cancelled {id reason channel tenant q s'} (free : sys.lock = .free)
      (channel_eq : sys.channels[id]? = some channel)
      (tenant_eq : ctl.tenants[channel.tenant]? = some tenant)
      (cancels : Cancels sys.state tenant.serviceClass channel.tenant q s')
      (ticket_eq : q.ticket = channel.ticket) :
      Move ctl sys (.cancel id reason)
        { sys with
          state := s'
          lock := .scheduling false
          channels := sys.channels.modify id fun channel => { channel with cancelling := true }
          log := sys.log ++ [.left channel.ticket] }
  | rephased {id channel label phase} (caller : ∀ now, label ≠ .schedule now)
      (channel_eq : sys.channels[id]? = some channel) (phases : PhaseMove channel.phase phase) :
      Move ctl sys label { sys with channels := setPhase sys.channels id phase }
  | releaseMissed {id channel} (free : sys.lock = .free)
      (channel_eq : sys.channels[id]? = some channel) (dropping : channel.phase = .dropping)
      (absent : sys.state.active[channel.ticket]? = none) :
      Move ctl sys (.release id) { sys with channels := setPhase sys.channels id .closed }
  | released {id channel a s'} (free : sys.lock = .free)
      (channel_eq : sys.channels[id]? = some channel) (dropping : channel.phase = .dropping)
      (releases : Releases sys.state channel.ticket a s') :
      Move ctl sys (.release id)
        { sys with
          state := s'
          lock := .scheduling true
          channels := setPhase sys.channels id .closed
          log := sys.log ++ [.released channel.ticket] }
  | drained {s' : TrafficState} (free : sys.lock = .free) (drains : Drains sys.state s') :
      Move ctl sys .beginDrain
        (((waitingList sys.state.waiting).map WaitingEntry.request).foldl sendDraining
          { sys with state := s' })
  | drainRepeated (free : sys.lock = .free) (draining : sys.state.draining = true) :
      Move ctl sys .beginDrain sys
  | resumed (free : sys.lock = .free) :
      Move ctl sys .resume { sys with state := { sys.state with draining := false } }

section Steps

variable {sys sys' : System}

private theorem move_admitRequest {tenant : Option String} {cost : UInt64} {now cancellation : ℕ}
    (h : step ctl sys (.admitRequest tenant cost now cancellation) = some sys') :
    Move ctl sys (.admitRequest tenant cost now cancellation) sys' := by
  simp only [step] at h
  split_ifs at h with hfree
  split at h
  · rename_i s' hadmit
    obtain ⟨rej, rfl⟩ := admit_error hadmit
    obtain rfl := Option.some.inj h
    exact .refused hfree
  · rename_i ticket s' hadmit
    obtain rfl := Option.some.inj h
    obtain ⟨id, tenant, serviceClass, rfl, htenant, hclass, hadmissible, henqueue⟩ :=
      admit_ok hadmit
    obtain ⟨-, rfl⟩ := ctl.tenants_eq_some htenant
    obtain ⟨cv, tv, adm, hspec, hcv, htv⟩ := enqueueLocked_spec ctl sys.state tenant cost now
      cancellation sys.channels.length
    rw [hspec] at henqueue
    obtain ⟨rfl, rfl⟩ := Prod.mk.inj henqueue
    let request : QueuedRequest := ⟨saturatingAdd sys.state.nextTicket 1, cost, now, cancellation,
      sys.channels.length⟩
    exact Move.enqueued hfree (show Enqueues ctl sys.state tenant serviceClass request _ from
      ⟨htenant, hclass, hadmissible, rfl, ⟨cv, tv, adm, rfl⟩, hcv, htv⟩) rfl

private theorem move_schedule {now : ℕ} (h : step ctl sys (.schedule now) = some sys') :
    Move ctl sys (.schedule now) sys' := by
  simp only [step] at h
  split_ifs at h with hbusy
  obtain ⟨⟨c, t⟩, hnext, h⟩ := Option.bind_eq_some_iff.mp h
  obtain ⟨⟨q, s₁⟩, hgrant, h⟩ := Option.bind_eq_some_iff.mp h
  obtain rfl := Option.some.inj h
  have hgrants : Grants ctl sys.state c t q s₁ := by
    unfold nextCandidate at hnext
    split_ifs at hnext with hroom
    obtain ⟨rest, serviceClass, tenant, hspec⟩ := grantHead_spec hgrant
    exact ⟨hroom, hnext, rest, serviceClass, tenant, now, hspec⟩
  unfold sendPermit
  by_cases halive : phaseOf sys.channels q.sender = .waiting
  · simpa [halive] using Move.delivered hbusy hgrants halive
  · simp only [halive, if_false]
    -- The permit that comes back was made active by this very iteration.
    have hactive : s₁.active[q.ticket]?.isSome := by
      obtain ⟨rest, serviceClass, tenant, now', -, -, -, rfl⟩ := hgrants.state_eq
      simp [activate]
    cases hrelease : releaseActiveLocked s₁ q.ticket with
    | none => simp [releaseActiveLocked_eq_none.mp hrelease] at hactive
    | some result =>
      obtain ⟨a, s₂⟩ := result
      obtain ⟨ha, heq⟩ := releaseActiveLocked_spec hrelease
      simpa using Move.undelivered hbusy hgrants ⟨ha, heq⟩ halive

private theorem move_cancel {id : ℕ} {reason : String}
    (h : step ctl sys (.cancel id reason) = some sys') : Move ctl sys (.cancel id reason) sys' := by
  simp only [step] at h
  obtain ⟨channel, hchannel, h⟩ := Option.bind_eq_some_iff.mp h
  obtain ⟨tenant, htenant, h⟩ := Option.bind_eq_some_iff.mp h
  obtain ⟨-, hid⟩ := ctl.tenants_eq_some htenant
  split_ifs at h with hguard
  split at h
  · rename_i hmiss
    obtain rfl := Option.some.inj h
    exact .cancelMissed hguard.1 hchannel htenant (hid ▸ cancelWaiter_eq_none hmiss)
  · rename_i q s' hhit
    obtain rfl := Option.some.inj h
    obtain ⟨before, after, rej, hqueue, hticket, heq⟩ := cancelWaiter_spec hhit
    rw [hid] at hqueue heq
    exact .cancelled hguard.1 hchannel htenant ⟨before, after, rej, hqueue, heq⟩ hticket

private theorem move_release {id : ℕ} (h : step ctl sys (.release id) = some sys') :
    Move ctl sys (.release id) sys' := by
  simp only [step] at h
  obtain ⟨channel, hchannel, h⟩ := Option.bind_eq_some_iff.mp h
  split_ifs at h with hguard
  split at h
  · rename_i hmiss
    obtain rfl := Option.some.inj h
    exact .releaseMissed hguard.1 hchannel hguard.2 (releaseActiveLocked_eq_none.mp hmiss)
  · rename_i a s' hhit
    obtain rfl := Option.some.inj h
    obtain ⟨ha, heq⟩ := releaseActiveLocked_spec hhit
    exact .released hguard.1 hchannel hguard.2 ⟨ha, heq⟩

private theorem move_unlock (h : step ctl sys .unlock = some sys') :
    Move ctl sys .unlock sys' := by
  simp only [step] at h
  split at h
  · cases h
  · rename_i fromRelease hlock
    by_cases hidle : nextCandidate ctl sys.state = none
    · rw [if_pos hidle] at h
      obtain rfl := Option.some.inj h
      exact .unlocked (by simp [hlock]) hidle
    · rw [if_neg hidle] at h
      cases h

private theorem move_receive {id : ℕ} (h : step ctl sys (.receive id) = some sys') :
    Move ctl sys (.receive id) sys' := by
  simp only [step] at h
  obtain ⟨channel, hchannel, h⟩ := Option.bind_eq_some_iff.mp h
  split_ifs at h with hcancelling
  split at h
  · rename_i hphase
    obtain rfl := Option.some.inj h
    exact .rephased (by simp) hchannel (hphase ▸ .receivePermit)
  · rename_i hphase
    obtain rfl := Option.some.inj h
    exact .rephased (by simp) hchannel (hphase ▸ .receiveError)
  · cases h

private theorem move_dropReceiver {id : ℕ} (h : step ctl sys (.dropReceiver id) = some sys') :
    Move ctl sys (.dropReceiver id) sys' := by
  simp only [step] at h
  obtain ⟨channel, hchannel, h⟩ := Option.bind_eq_some_iff.mp h
  split at h
  · rename_i hphase
    obtain rfl := Option.some.inj h
    exact .rephased (by simp) hchannel (hphase ▸ .abandon)
  · rename_i hphase
    obtain rfl := Option.some.inj h
    exact .rephased (by simp) hchannel (hphase ▸ .dropUndelivered)
  · rename_i hphase
    obtain rfl := Option.some.inj h
    exact .rephased (by simp) hchannel (hphase ▸ .receiveError)
  · cases h

private theorem move_dropPermit {id : ℕ} (h : step ctl sys (.dropPermit id) = some sys') :
    Move ctl sys (.dropPermit id) sys' := by
  simp only [step] at h
  split_ifs at h with hphase
  obtain rfl := Option.some.inj h
  cases hchannel : sys.channels[id]? with
  | none => simp [phaseOf, hchannel] at hphase
  | some channel =>
    have hheld : channel.phase = .held := by simpa [phaseOf, hchannel] using hphase
    exact .rephased (by simp) hchannel (hheld ▸ .dropHeld)

private theorem move_resume (h : step ctl sys .resume = some sys') :
    Move ctl sys .resume sys' := by
  simp only [step] at h
  split_ifs at h with hfree
  obtain rfl := Option.some.inj h
  exact .resumed hfree

private theorem move_beginDrain (hknown : QueuesKnown ctl sys.state.waiting)
    (h : step ctl sys .beginDrain = some sys') : Move ctl sys .beginDrain sys' := by
  simp only [step] at h
  split_ifs at h with hfree
  obtain rfl := Option.some.inj h
  cases hdraining : sys.state.draining with
  | true =>
    have heq : beginDrain ctl sys.state = ([], sys.state) := by simp [beginDrain, hdraining]
    rw [heq]
    exact .drainRepeated hfree hdraining
  | false =>
    obtain ⟨hturned, hdrains⟩ := beginDrain_spec hknown hdraining
    rw [hturned]
    exact .drained hfree hdrains

/-- Every step but the beginning of a drain is one of the moves in any state. -/
theorem move_of_step_of_ne {label : Label} (hlabel : label ≠ .beginDrain)
    (h : step ctl sys label = some sys') : Move ctl sys label sys' := by
  cases label with
  | admitRequest tenant cost now cancellation => exact move_admitRequest h
  | schedule now => exact move_schedule h
  | unlock => exact move_unlock h
  | cancel id reason => exact move_cancel h
  | receive id => exact move_receive h
  | dropReceiver id => exact move_dropReceiver h
  | dropPermit id => exact move_dropPermit h
  | release id => exact move_release h
  | beginDrain => exact absurd rfl hlabel
  | resume => exact move_resume h

/-- Every step is one of the moves. -/
theorem move_of_step (hknown : QueuesKnown ctl sys.state.waiting) {label : Label}
    (h : step ctl sys label = some sys') : Move ctl sys label sys' := by
  by_cases hlabel : label = .beginDrain
  · subst hlabel
    exact move_beginDrain hknown h
  · exact move_of_step_of_ne hlabel h

end Steps

end Locus.Traffic
