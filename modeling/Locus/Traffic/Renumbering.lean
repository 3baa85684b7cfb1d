import Locus.Traffic.Capacity

/-!
# States that differ in their ticket numbers

A controller that has served requests before hands out later tickets on later
channels than a new one. `Renumbered` says that one state is another with all tickets and
channels moved up by the same amount. The counters of both are then equal, because
each is the tally of what is queued or active, and every critical section treats both
states alike.
-/

namespace Locus.Traffic

open Std (TreeMap)
open Locus.Lib

variable {ctl : TrafficController} {k : ℕ} {s g : TrafficState}

/-- The ticket handed out `k` requests later. -/
def laterTicket (k : ℕ) (ticket : UInt64) : UInt64 := ticket + .ofNat k

/-- The same request under a later ticket and a later channel. -/
def QueuedRequest.later (k : ℕ) (q : QueuedRequest) : QueuedRequest :=
  { q with ticket := laterTicket k q.ticket, sender := q.sender + k }

/-- The same waiting request under a later ticket and a later channel. -/
def WaitingEntry.later (k : ℕ) (e : WaitingEntry) : WaitingEntry :=
  { e with request := e.request.later k }

theorem laterTicket_bijective (k : ℕ) : Function.Bijective (laterTicket k) :=
  (Equiv.addRight (UInt64.ofNat k)).bijective

@[simp] theorem laterTicket_inj {a b : UInt64} : laterTicket k a = laterTicket k b ↔ a = b :=
  (laterTicket_bijective k).injective.eq_iff

/-- One state is another with its tickets and channels moved up by `k`. -/
structure Renumbered (k : ℕ) (s g : TrafficState) : Prop where
  draining : s.draining = g.draining
  queue : ∀ c t, queueOf s.waiting c t = (queueOf g.waiting c t).map (.later k)
  active : ∀ ticket : UInt64, s.active[laterTicket k ticket]? = g.active[ticket]?
  classVruntime : ∀ c, count s.classVruntime c = count g.classVruntime c
  tenantVruntime : ∀ t, count s.tenantVruntime t = count g.tenantVruntime t

/-- What the controller reads from its counters is the same in both states. -/
structure SameCounts (s g : TrafficState) : Prop where
  classRequests : ∀ c, count s.classActiveRequests.map c = count g.classActiveRequests.map c
  classTokens : ∀ c, count s.classActiveTokens.map c = count g.classActiveTokens.map c
  tenantRequests : ∀ t, count s.tenantActiveRequests.map t = count g.tenantActiveRequests.map t
  tenantTokens : ∀ t, count s.tenantActiveTokens.map t = count g.tenantActiveTokens.map t
  tenantQueued : ∀ t, count s.tenantQueuedRequests.map t = count g.tenantQueuedRequests.map t
  queued : queuedRequests s = queuedRequests g
  size : s.active.size = g.active.size
  tokens : s.activeTokens = g.activeTokens

section Counts

/-- The same requests are active, under later tickets. -/
theorem Renumbered.entries_active (h : Renumbered k s g) :
    entries s.active = (entries g.active).map (Prod.map (laterTicket k) id) :=
  entries_rename (laterTicket_bijective k) h.active

/-- Counters that are the tallies of the same requests are equal. -/
theorem Renumbered.sameCounts (h : Renumbered k s g) (hs : StateSound ctl s) (hg : StateSound ctl g)
    (hwaiting : waitingEntries s.waiting = (waitingEntries g.waiting).map (.later k)) :
    SameCounts s g := by
  have hactive := h.entries_active
  have hqueued := hs.queue.requests_tracks
  have hclassRequests := hs.active.classRequests_tracks
  have hclassTokens := hs.active.classTokens_tracks
  have htenantRequests := hs.active.tenantRequests_tracks
  have htenantTokens := hs.active.tenantTokens_tracks
  rw [hwaiting] at hqueued
  rw [hactive] at hclassRequests hclassTokens htenantRequests htenantTokens
  obtain ⟨htenantQueued, htotal⟩ := hqueued.renamed hg.queue.requests_tracks (fun _ => rfl)
    fun _ => rfl
  refine ⟨?_, ?_, ?_, ?_, htenantQueued, htotal, ?_, ?_⟩
  · exact (hclassRequests.renamed hg.active.classRequests_tracks (fun _ => rfl) fun _ => rfl).1
  · exact (hclassTokens.renamed hg.active.classTokens_tracks (fun _ => rfl) fun _ => rfl).1
  · exact (htenantRequests.renamed hg.active.tenantRequests_tracks (fun _ => rfl) fun _ => rfl).1
  · exact (htenantTokens.renamed hg.active.tenantTokens_tracks (fun _ => rfl) fun _ => rfl).1
  · rw [← card_entries, ← card_entries, hactive, Multiset.card_map]
  · have hsum : ((entries s.active).map fun e => e.2.tokenCost).sum =
        ((entries g.active).map fun e => e.2.tokenCost).sum := by
      rw [hactive, Multiset.map_map]
      rfl
    exact hsum

end Counts

section Choosing

/-- A head that fits one state fits the other. -/
theorem SameCounts.headFits_eq (h : SameCounts s g) (serviceClass : ServiceClassPolicy) (c : String)
    (tenant : TenantPolicy) (t : String) (q : QueuedRequest) :
    headFits ctl s serviceClass c tenant t (q.later k) =
      headFits ctl g serviceClass c tenant t q := by
  simp only [headFits, h.tokens, h.classTokens, h.tenantRequests, h.tenantTokens,
    QueuedRequest.later]

/-- The same tenants offer a head. -/
theorem Renumbered.candidate_iff (h : Renumbered k s g) (hcounts : SameCounts s g) (c t : String) :
    Candidate ctl s c t ↔ Candidate ctl g c t := by
  have hhead : (queueOf s.waiting c t).head? = ((queueOf g.waiting c t).head?).map (.later k) := by
    rw [h.queue, List.head?_map]
  constructor
  · rintro ⟨serviceClass, tenant, q, hq⟩
    obtain ⟨q', hq', rfl⟩ := Option.map_eq_some_iff.mp (hhead ▸ hq.head_eq)
    refine ⟨serviceClass, tenant, q', hq.class_eq, hq.tenant_eq, hq', ?_, ?_⟩
    · rw [← hcounts.classRequests]
      exact hq.class_room
    · rw [← hcounts.headFits_eq]
      exact hq.fits
  · rintro ⟨serviceClass, tenant, q, hq⟩
    refine ⟨serviceClass, tenant, q.later k, hq.class_eq, hq.tenant_eq, ?_, ?_, ?_⟩
    · rw [hhead, hq.head_eq]
      rfl
    · rw [hcounts.classRequests]
      exact hq.class_room
    · rw [hcounts.headFits_eq]
      exact hq.fits

/-- The scheduling loop continues with the same tenant. -/
theorem Renumbered.nextCandidate_eq (h : Renumbered k s g) (hcounts : SameCounts s g)
    (hs : QueuesKnown ctl s.waiting) (hg : QueuesKnown ctl g.waiting) :
    nextCandidate ctl s = nextCandidate ctl g := by
  simp only [nextCandidate, hcounts.size]
  rw [chooseCandidate_congr hs hg (h.candidate_iff hcounts) h.classVruntime h.tenantVruntime]

end Choosing

section Sections

/-- Replacing one queue by requests moved up keeps the states alike. -/
theorem Renumbered.queue_setQueue (h : Renumbered k s g) (c t : String) (queue : List QueuedRequest)
    (c' t' : String) : queueOf (setQueue s.waiting c t (queue.map (.later k))) c' t' =
      (queueOf (setQueue g.waiting c t queue) c' t').map (.later k) := by
  rw [queueOf_setQueue, queueOf_setQueue]
  split_ifs
  · rfl
  · exact h.queue c' t'

/-- The bookkeeping of a grant keeps the states alike. -/
theorem Renumbered.activate (h : Renumbered k s g) (serviceClass : ServiceClassPolicy) (c : String)
    (tenant : TenantPolicy) (t : String) (q : QueuedRequest) (rest : List QueuedRequest) (now : ℕ) :
    Renumbered k
      (activate { s with waiting := setQueue s.waiting c t (rest.map (.later k)) } serviceClass c
        tenant t (q.later k) now)
      (activate { g with waiting := setQueue g.waiting c t rest } serviceClass c tenant t q
        now) where
  draining := h.draining
  queue := h.queue_setQueue c t rest
  active ticket := by
    simp [Traffic.activate, QueuedRequest.later, TreeMap.getElem?_insert, h.active]
  classVruntime c' := by
    simp only [Traffic.activate, count_insert, h.classVruntime, QueuedRequest.later]
  tenantVruntime t' := by
    simp only [Traffic.activate, count_insert, h.tenantVruntime, QueuedRequest.later]

/-- A release finds the same request and keeps the states alike. -/
theorem Renumbered.release (h : Renumbered k s g) (ticket : UInt64) :
    (releaseActiveLocked s (laterTicket k ticket) = none ∧ releaseActiveLocked g ticket = none) ∨
    ∃ a s' g', releaseActiveLocked s (laterTicket k ticket) = some (a, s') ∧
      releaseActiveLocked g ticket = some (a, g') ∧ Renumbered k s' g' := by
  unfold releaseActiveLocked
  rw [h.active]
  cases g.active[ticket]? with
  | none => exact .inl ⟨rfl, rfl⟩
  | some a =>
    refine .inr ⟨a, _, _, rfl, rfl, h.draining, h.queue, fun ticket' => ?_, h.classVruntime,
      h.tenantVruntime⟩
    simp [TreeMap.getElem?_erase, h.active]

/-- A cancellation finds the same request and keeps the states alike. -/
theorem Renumbered.cancel (h : Renumbered k s g) (ticket : UInt64) (tenant : TenantPolicy)
    (reason : String) :
    (cancelWaiter s (laterTicket k ticket) tenant reason = none ∧
      cancelWaiter g ticket tenant reason = none) ∨
    ∃ q s' g', cancelWaiter s (laterTicket k ticket) tenant reason = some (q.later k, s') ∧
      cancelWaiter g ticket tenant reason = some (q, g') ∧ Renumbered k s' g' := by
  have hsame : (fun q : QueuedRequest => q.ticket == laterTicket k ticket) ∘ QueuedRequest.later k =
      fun q => q.ticket == ticket := by
    funext q
    rw [Bool.eq_iff_iff]
    simp [QueuedRequest.later]
  rw [cancelWaiter_eq, cancelWaiter_eq, h.queue, List.find?_map, hsame]
  cases hfind : (queueOf g.waiting tenant.serviceClass tenant.id).find?
      fun q => q.ticket == ticket with
  | none => exact .inl ⟨rfl, rfl⟩
  | some q =>
    refine .inr ⟨q, _, _, rfl, rfl, h.draining, ?_, h.active, h.classVruntime, h.tenantVruntime⟩
    rw [List.eraseP_map, hsame]
    exact h.queue_setQueue _ _ _

end Sections

section Admission

/-- A class that was idle restarts at the same virtual runtime. -/
private theorem Renumbered.normalizeIdleClass (ctl : TrafficController) (h : Renumbered k s g)
    (hcounts : SameCounts s g) (tenant : TenantPolicy) :
    Renumbered k (normalizeIdleClass ctl s tenant) (normalizeIdleClass ctl g tenant) ∧
      SameCounts (normalizeIdleClass ctl s tenant) (normalizeIdleClass ctl g tenant) := by
  have hwaiting : ∀ c, classHasWaiting s c = classHasWaiting g c := by
    intro c
    rw [Bool.eq_iff_iff, classHasWaiting_iff, classHasWaiting_iff]
    simp [h.queue]
  have hruntime : count s.classVruntime = count g.classVruntime := funext h.classVruntime
  unfold Traffic.normalizeIdleClass
  simp only [hcounts.classRequests, hwaiting, hruntime]
  split_ifs
  · refine ⟨⟨h.draining, h.queue, h.active, fun c => ?_, h.tenantVruntime⟩, { hcounts with }⟩
    simp only [count_insert, h.classVruntime]
  · exact ⟨h, hcounts⟩

/-- A tenant that was idle restarts at the same virtual runtime. -/
private theorem Renumbered.normalizeIdleTenant (ctl : TrafficController) (h : Renumbered k s g)
    (hcounts : SameCounts s g) (tenant : TenantPolicy) :
    Renumbered k (normalizeIdleTenant ctl s tenant) (normalizeIdleTenant ctl g tenant) := by
  have hempty : ∀ c t, (s.queue c t).isEmpty = (g.queue c t).isEmpty := by
    intro c t
    simp [h.queue]
  unfold Traffic.normalizeIdleTenant
  simp only [hcounts.tenantRequests, hempty, h.tenantVruntime]
  split_ifs
  · refine ⟨h.draining, h.queue, h.active, h.classVruntime, fun t => ?_⟩
    simp only [count_insert, h.tenantVruntime]
  · exact h

/-- Enqueueing under corresponding tickets keeps the states alike. -/
theorem Renumbered.enqueue (ctl : TrafficController) (h : Renumbered k s g)
    (hcounts : SameCounts s g)
    (hticket : saturatingAdd s.nextTicket 1 = laterTicket k (saturatingAdd g.nextTicket 1))
    (tenant : TenantPolicy) (tokenCost : UInt64) (now cancellation sender : ℕ) :
    Renumbered k (enqueueLocked ctl s tenant tokenCost now cancellation (sender + k)).2
      (enqueueLocked ctl g tenant tokenCost now cancellation sender).2 := by
  -- Normalization does not look at the next ticket.
  have hmoved : Renumbered k { s with nextTicket := saturatingAdd s.nextTicket 1 }
      { g with nextTicket := saturatingAdd g.nextTicket 1 } :=
    ⟨h.draining, h.queue, h.active, h.classVruntime, h.tenantVruntime⟩
  obtain ⟨hclass, hcounts⟩ := hmoved.normalizeIdleClass ctl { hcounts with } tenant
  have hlike := hclass.normalizeIdleTenant ctl hcounts tenant
  simp only [enqueueLocked, normalizeIdleVruntimeLocked, pushBack_eq_setQueue]
  refine ⟨hlike.draining, fun c t => ?_, hlike.active, hlike.classVruntime, hlike.tenantVruntime⟩
  rw [hlike.queue, ← hlike.queue_setQueue, List.map_append, hticket]
  rfl

/-- `admit` makes the same decision in both states. -/
theorem Renumbered.admit (h : Renumbered k s g) (hcounts : SameCounts s g)
    (tenantId : Option String) (tokenCost : UInt64) (now cancellation sender : ℕ) :
    (∃ e s' g', admitRequest ctl s tenantId tokenCost now cancellation (sender + k) =
        (.error e, s') ∧
      admitRequest ctl g tenantId tokenCost now cancellation sender = (.error e, g') ∧
      Renumbered k s' g') ∨
    ∃ tenant,
      admitRequest ctl s tenantId tokenCost now cancellation (sender + k) =
        ((enqueueLocked ctl s tenant tokenCost now cancellation (sender + k)).map .ok id) ∧
      admitRequest ctl g tenantId tokenCost now cancellation sender =
        ((enqueueLocked ctl g tenant tokenCost now cancellation sender).map .ok id) := by
  have hload : activeTokenUtilizationBps s ctl.policy = activeTokenUtilizationBps g ctl.policy := by
    simp only [activeTokenUtilizationBps, hcounts.tokens]
  unfold admitRequest
  cases tenantId with
  | none => exact .inl ⟨_, _, _, rfl, rfl, h⟩
  | some id =>
    simp only
    cases ctl.tenants[id]? with
    | none => exact .inl ⟨_, _, _, rfl, rfl, h⟩
    | some tenant =>
      simp only
      cases ctl.classes[tenant.serviceClass]? with
      | none => exact .inl ⟨_, _, _, rfl, rfl, h⟩
      | some serviceClass =>
        have hrefusal : refusal ctl s tenant serviceClass tokenCost =
            refusal ctl g tenant serviceClass tokenCost := by
          simp only [refusal, h.draining, hload, hcounts.queued, hcounts.tenantQueued]
        simp only [admitTenant_eq, hrefusal]
        cases refusal ctl g tenant serviceClass tokenCost with
        | some refused =>
          exact .inl ⟨_, _, _, rfl, rfl, h.draining, h.queue, h.active, h.classVruntime,
            h.tenantVruntime⟩
        | none => exact .inr ⟨tenant, rfl, rfl⟩

end Admission

end Locus.Traffic
