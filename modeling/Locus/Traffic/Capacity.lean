import Locus.Traffic.ActiveAccounting
import Locus.Traffic.QueueAccounting

/-!
# Capacity is neither leaked nor exceeded

Every move keeps the accounting of the queues and of the active requests, as long
as a request never becomes active under a ticket that is active already. The token
limits hold as well while no exact sum of active tokens reaches a full word: a
limit of `u64::MAX` does not stop the sum from wrapping, because the saturating
comparison of `choose_candidate` then always succeeds.
-/

namespace Locus.Traffic

open Std (TreeMap)
open Locus.Lib

variable {ctl : TrafficController} {s s' : TrafficState}

/-- The accounting of the queues. -/
def QueuesSound (ctl : TrafficController) (s : TrafficState) : Prop :=
  QueueSound ctl s.waiting s.draining s.tenantQueuedRequests s.tenantQueuedTokens

/-- Both halves of the accounting. -/
structure StateSound (ctl : TrafficController) (s : TrafficState) : Prop where
  queue : QueuesSound ctl s
  active : ActiveSound ctl s.active s.classActiveRequests s.classActiveTokens
    s.tenantActiveRequests s.tenantActiveTokens

/-- Token sums are exact and inside their limits. -/
def TokensSound (ctl : TrafficController) (s : TrafficState) : Prop :=
  TokenSound ctl s.active s.classActiveTokens s.tenantActiveTokens

/-- The exact sum of the active token costs. -/
def TrafficState.exactActiveTokens (s : TrafficState) : ℕ :=
  (s.active.toList.map fun e => e.2.tokenCost.toNat).sum

theorem exactActiveTokens_eq (s : TrafficState) :
    s.exactActiveTokens = ((entries s.active).map fun e => e.2.tokenCost.toNat).sum := rfl

theorem QueuesSound.empty : QueuesSound ctl {} := QueueSound.empty

theorem StateSound.empty : StateSound ctl {} := ⟨QueuesSound.empty, ActiveSound.empty⟩

theorem TokensSound.empty : TokensSound ctl {} := TokenSound.empty

section Moves

/-- A tenant is queued in its own class only. -/
theorem QueuesSound.class_unique (h : QueuesSound ctl s) {c c' t : String}
    (hc : queueOf s.waiting c t ≠ []) (hne : c' ≠ c) : queueOf s.waiting c' t = [] := by
  by_contra hc'
  obtain ⟨q, hq⟩ := List.exists_mem_of_ne_nil _ hc
  obtain ⟨q', hq'⟩ := List.exists_mem_of_ne_nil _ hc'
  obtain ⟨tenant, _, htenant, hclass, -⟩ := h.fitting ⟨c, t, q⟩ (mem_waitingEntries.mpr hq)
  obtain ⟨tenant', _, htenant', hclass', -⟩ := h.fitting ⟨c', t, q'⟩ (mem_waitingEntries.mpr hq')
  obtain rfl : tenant = tenant' := by simpa [htenant] using htenant'
  exact hne (hclass'.symm.trans hclass)

/-- An enqueued request keeps the accounting of the queues. -/
theorem QueuesSound.enqueue (h : QueuesSound ctl s) {tenant : TenantPolicy}
    {serviceClass : ServiceClassPolicy} {q : QueuedRequest}
    (he : Enqueues ctl s tenant serviceClass q s') : QueuesSound ctl s' := by
  obtain ⟨cv, tv, adm, rfl⟩ := he.state_eq
  have ha := he.admissible
  have hfits : Fitting ctl ⟨tenant.serviceClass, tenant.id, q⟩ :=
    ⟨tenant, serviceClass, he.tenant_eq, rfl, he.class_eq, ha.cost_le_global, ha.cost_le_class,
      ha.cost_le_tenant⟩
  exact QueueSound.push h he.tenant_eq he.class_eq hfits ha.not_draining ha.queued_lt
    ha.tenantQueued_lt

/-- A cancelled waiter keeps the accounting of the queues. -/
theorem QueuesSound.cancel (h : QueuesSound ctl s) {c t : String} {q : QueuedRequest}
    (hc : Cancels s c t q s') : QueuesSound ctl s' := by
  obtain ⟨before, after, rej, hqueue, rfl⟩ := hc.state_eq
  exact QueueSound.remove h before hqueue

/-- A grant keeps the accounting of the queues. -/
theorem QueuesSound.grant (h : QueuesSound ctl s) {c t : String} {q : QueuedRequest}
    (hg : Grants ctl s c t q s') : QueuesSound ctl s' := by
  obtain ⟨rest, serviceClass, tenant, now, hqueue, -, -, rfl⟩ := hg.state_eq
  exact QueueSound.remove h [] hqueue

/-- A drain keeps the accounting of the queues. -/
theorem QueuesSound.drain (h : QueuesSound ctl s) (hd : Drains s s') : QueuesSound ctl s' := by
  obtain ⟨rej, rfl⟩ := hd.state_eq
  exact QueueSound.drain h

/-- The granted request was the head of its queue and fitted every limit. -/
theorem Grants.isCandidate {c t : String} {q : QueuedRequest} (hg : Grants ctl s c t q s')
    (hknown : QueuesKnown ctl s.waiting) : ∃ rest serviceClass tenant now,
    queueOf s.waiting c t = q :: rest ∧ IsCandidate ctl s c t serviceClass tenant q ∧
    s' = activate { s with waiting := setQueue s.waiting c t rest } serviceClass
      c tenant t q now := by
  obtain ⟨rest, serviceClass, tenant, now, hqueue, hclass, htenant, heq⟩ := hg.state_eq
  obtain ⟨⟨serviceClass', tenant', head, hcandidate⟩, -, -⟩ := chooseCandidate_spec hknown hg.chosen
  obtain rfl : serviceClass = serviceClass' := by simpa [hclass] using hcandidate.class_eq
  obtain rfl : tenant = tenant' := by simpa [htenant] using hcandidate.tenant_eq
  obtain rfl : q = head := by simpa [hqueue] using hcandidate.head_eq
  exact ⟨rest, serviceClass, tenant, now, hqueue, hcandidate, heq⟩

/-- The four comparisons of `choose_candidate`. -/
theorem headFits_iff {serviceClass : ServiceClassPolicy} {c t : String}
    {tenant : TenantPolicy} {q : QueuedRequest} :
    headFits ctl s serviceClass c tenant t q = true ↔
      saturatingAdd s.activeTokens q.tokenCost ≤ ctl.policy.maxActiveTokens ∧
      saturatingAdd (count s.classActiveTokens.map c) q.tokenCost ≤ serviceClass.maxActiveTokens ∧
      count s.tenantActiveRequests.map t < tenant.maxActiveRequests ∧
      saturatingAdd (count s.tenantActiveTokens.map t) q.tokenCost ≤ tenant.maxActiveTokens := by
  simp [headFits, and_assoc]

/-- A grant under a fresh ticket keeps the accounting of the active requests. -/
theorem StateSound.grant (h : StateSound ctl s) {c t : String} {q : QueuedRequest}
    (hg : Grants ctl s c t q s') (hfresh : s.active[q.ticket]? = none) : StateSound ctl s' := by
  refine ⟨h.queue.grant hg, ?_⟩
  obtain ⟨rest, serviceClass, tenant, now, hqueue, hcandidate, rfl⟩ := hg.isCandidate h.queue.known
  obtain ⟨-, -, htenantRoom, -⟩ := headFits_iff.mp hcandidate.fits
  exact h.active.grant (a := ⟨t, c, q.tokenCost, q.cancellation⟩) hfresh hg.room
    hcandidate.class_eq hcandidate.tenant_eq hcandidate.class_room htenantRoom

/-- A release keeps the accounting. -/
theorem StateSound.release (h : StateSound ctl s) {ticket : UInt64} {a : ActiveRequest}
    (hr : Releases s ticket a s') : StateSound ctl s' := by
  obtain ⟨ha, rfl⟩ := hr
  exact ⟨h.queue, h.active.release ha⟩

/-- A grant keeps the token limits unless the exact sum reaches a full word. -/
theorem TokensSound.grant (h : TokensSound ctl s) (hsound : StateSound ctl s) {c t : String}
    {q : QueuedRequest} (hg : Grants ctl s c t q s') (hfresh : s.active[q.ticket]? = none)
    (hsum : s.exactActiveTokens + q.tokenCost.toNat < 2 ^ 64) : TokensSound ctl s' := by
  obtain ⟨rest, serviceClass, tenant, now, hqueue, hcandidate, rfl⟩ :=
    hg.isCandidate hsound.queue.known
  obtain ⟨hglobal, hclassFits, -, htenantFits⟩ := headFits_iff.mp hcandidate.fits
  rw [exactActiveTokens_eq] at hsum
  have hexact : s.activeTokens.toNat =
      ((entries s.active).map fun e => e.2.tokenCost.toNat).sum := by
    rw [toNat_activeTokens, Nat.mod_eq_of_lt (by omega)]
  rw [UInt64.le_iff_toNat_le, toNat_saturatingAdd (by omega), hexact] at hglobal
  exact TokenSound.grant h hsound.active (a := ⟨t, c, q.tokenCost, q.cancellation⟩) hfresh
    hcandidate.class_eq hcandidate.tenant_eq hsum hglobal hclassFits htenantFits

end Moves

section Steps

variable {sys sys' : System}

/-- The head that the next iteration of the scheduling loop would grant. -/
def nextHead (ctl : TrafficController) (s : TrafficState) : Option QueuedRequest :=
  (nextCandidate ctl s).bind fun candidate => (queueOf s.waiting candidate.1 candidate.2).head?

/-- An iteration of the scheduling loop does not grant a ticket that is still active. -/
def FreshGrant (ctl : TrafficController) (sys : System) : Label → Prop
  | .schedule _ => ∀ q ∈ nextHead ctl sys.state, sys.state.active[q.ticket]? = none
  | _ => True

/-- An iteration of the scheduling loop grants a ticket that is not active, and the
exact sum of the active tokens still fits a word afterwards. -/
def ExactGrant (ctl : TrafficController) (sys : System) : Label → Prop
  | .schedule _ => ∀ q ∈ nextHead ctl sys.state, sys.state.active[q.ticket]? = none ∧
      sys.state.exactActiveTokens + q.tokenCost.toNat < 2 ^ 64
  | _ => True

instance (sys : System) (label : Label) : Decidable (FreshGrant ctl sys label) := by
  cases label <;> unfold FreshGrant <;> infer_instance

instance (sys : System) (label : Label) : Decidable (ExactGrant ctl sys label) := by
  cases label <;> unfold ExactGrant <;> infer_instance

theorem ExactGrant.fresh {label : Label} (h : ExactGrant ctl sys label) :
    FreshGrant ctl sys label := by
  cases label with
  | schedule now => exact fun q hq => (h q hq).1
  | _ => trivial

/-- The granted request is the one the loop looked at. -/
theorem Grants.mem_nextHead {c t : String} {q : QueuedRequest} (hg : Grants ctl s c t q s') :
    q ∈ nextHead ctl s := by
  obtain ⟨rest, serviceClass, tenant, now, hqueue, -⟩ := hg.state_eq
  simp [nextHead, nextCandidate, hg.room, hg.chosen, hqueue]

/-- What answering one waiter does not touch, answering all of them does not. -/
theorem foldl_sendDraining_eq {β : Type*} (f : System → β)
    (h : ∀ sys q, f (sendDraining sys q) = f sys) (l : List QueuedRequest) (sys : System) :
    f (l.foldl sendDraining sys) = f sys := by
  induction l generalizing sys with
  | nil => rfl
  | cons q l ih => rw [List.foldl_cons, ih, h]

/-- Answering a waiter does not touch the controller. -/
theorem sendDraining_frame (sys : System) (q : QueuedRequest) :
    (sendDraining sys q).state = sys.state ∧ (sendDraining sys q).lock = sys.lock ∧
      (sendDraining sys q).idleNotifications = sys.idleNotifications := by
  unfold sendDraining
  split_ifs <;> exact ⟨rfl, rfl, rfl⟩

@[simp] theorem foldl_sendDraining_state (l : List QueuedRequest) (sys : System) :
    (l.foldl sendDraining sys).state = sys.state :=
  foldl_sendDraining_eq System.state (fun sys q => (sendDraining_frame sys q).1) l sys

@[simp] theorem foldl_sendDraining_lock (l : List QueuedRequest) (sys : System) :
    (l.foldl sendDraining sys).lock = sys.lock :=
  foldl_sendDraining_eq System.lock (fun sys q => (sendDraining_frame sys q).2.1) l sys

@[simp] theorem foldl_sendDraining_idleNotifications (l : List QueuedRequest) (sys : System) :
    (l.foldl sendDraining sys).idleNotifications = sys.idleNotifications :=
  foldl_sendDraining_eq System.idleNotifications (fun sys q => (sendDraining_frame sys q).2.2) l sys

/-- One step keeps the accounting of the queues, whatever the tickets are. -/
theorem QueuesSound.step (h : QueuesSound ctl sys.state) {label : Label}
    (hstep : step ctl sys label = some sys') : QueuesSound ctl sys'.state := by
  cases move_of_step h.known hstep with
  | refused | unlocked | cancelMissed | rephased | releaseMissed | drainRepeated => exact h
  | enqueued free enqueues => exact h.enqueue enqueues
  | delivered busy grants => exact h.grant grants
  | undelivered busy grants releases =>
    have hgrant := h.grant grants
    obtain ⟨-, rfl⟩ := releases
    exact hgrant
  | cancelled free channel_eq tenant_eq cancels => exact h.cancel cancels
  | released free channel_eq dropping releases =>
    obtain ⟨-, rfl⟩ := releases
    exact h
  | drained free drains => simpa using h.drain drains
  | resumed free => exact QueueSound.resume h

/-- One step keeps the accounting. -/
theorem StateSound.step (h : StateSound ctl sys.state) {label : Label}
    (hfresh : FreshGrant ctl sys label) (hstep : Traffic.step ctl sys label = some sys') :
    StateSound ctl sys'.state := by
  refine ⟨h.queue.step hstep, ?_⟩
  cases move_of_step h.queue.known hstep with
  | refused | unlocked | cancelMissed | rephased | releaseMissed | drainRepeated | resumed =>
    exact h.active
  | enqueued free enqueues =>
    obtain ⟨cv, tv, adm, rfl⟩ := enqueues.state_eq
    exact h.active
  | delivered busy grants => exact (h.grant grants (hfresh _ grants.mem_nextHead)).active
  | undelivered busy grants releases =>
    exact ((h.grant grants (hfresh _ grants.mem_nextHead)).release releases).active
  | cancelled free channel_eq tenant_eq cancels =>
    obtain ⟨before, after, rej, hqueue, rfl⟩ := cancels.state_eq
    exact h.active
  | released free channel_eq dropping releases => exact (h.release releases).active
  | drained free drains =>
    obtain ⟨rej, rfl⟩ := drains.state_eq
    rw [foldl_sendDraining_state]
    exact h.active

/-- One step keeps the token limits. -/
theorem TokensSound.step (h : TokensSound ctl sys.state) (hsound : StateSound ctl sys.state)
    {label : Label} (hexact : ExactGrant ctl sys label)
    (hstep : Traffic.step ctl sys label = some sys') : TokensSound ctl sys'.state := by
  have hrelease : ∀ {s s' : TrafficState} {ticket : UInt64} {a : ActiveRequest},
      StateSound ctl s → TokensSound ctl s → Releases s ticket a s' → TokensSound ctl s' := by
    rintro s s' ticket a hs ht ⟨ha, rfl⟩
    exact TokenSound.release ht hs.active ha
  cases move_of_step hsound.queue.known hstep with
  | refused | unlocked | cancelMissed | rephased | releaseMissed | drainRepeated | resumed =>
    exact h
  | enqueued free enqueues =>
    obtain ⟨cv, tv, adm, rfl⟩ := enqueues.state_eq
    exact h
  | delivered busy grants =>
    obtain ⟨hfresh, hsum⟩ := hexact _ grants.mem_nextHead
    exact h.grant hsound grants hfresh hsum
  | undelivered busy grants releases =>
    obtain ⟨hfresh, hsum⟩ := hexact _ grants.mem_nextHead
    exact hrelease (hsound.grant grants hfresh) (h.grant hsound grants hfresh hsum) releases
  | cancelled free channel_eq tenant_eq cancels =>
    obtain ⟨before, after, rej, hqueue, rfl⟩ := cancels.state_eq
    exact h
  | released free channel_eq dropping releases => exact hrelease hsound h releases
  | drained free drains =>
    obtain ⟨rej, rfl⟩ := drains.state_eq
    rw [foldl_sendDraining_state]
    exact h

/-- The accounting of the queues holds along every run. -/
theorem queuesSound_of_reaches {labels : List Label} (h : Reaches ctl labels sys) :
    QueuesSound ctl sys.state :=
  Run.invariant (fun sys => QueuesSound ctl sys.state)
    (fun _ _ _ hsound hstep => hsound.step hstep) h QueuesSound.empty

end Steps

end Locus.Traffic
