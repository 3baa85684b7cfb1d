import Locus.Traffic.Capacity

/-!
# Exact counters and limits along runs

The statement of the admission contract: every counter equals what it counts and
no limit is exceeded. It holds along every run whose grants are exact, and fails
without that condition: under a token limit of `u64::MAX` two requests of half the
range are both admitted.
-/

namespace Locus.Traffic

open Std (TreeMap)
open Locus.Lib

variable {ctl : TrafficController}

section Contract

variable (s : TrafficState)

/-- The active requests of one class. -/
def TrafficState.activeInClass (c : String) : List ActiveRequest :=
  (s.active.toList.map Prod.snd).filter fun a => a.serviceClass = c

/-- The active requests of one tenant. -/
def TrafficState.activeOfTenant (t : String) : List ActiveRequest :=
  (s.active.toList.map Prod.snd).filter fun a => a.tenant = t

/-- The queued requests of one tenant. -/
def TrafficState.queuedOfTenant (t : String) : List QueuedRequest :=
  ((waitingList s.waiting).filter fun e => e.tenant = t).map WaitingEntry.request

/-- The exact token sum of active requests. -/
def activeCost (l : List ActiveRequest) : ℕ := (l.map fun a => a.tokenCost.toNat).sum

/-- The exact token sum of queued requests. -/
def queuedCost (l : List QueuedRequest) : ℕ := (l.map fun q => q.tokenCost.toNat).sum

/-- Every counter is what it counts. The queued tokens are only kept modulo a word; no
other counter was ever taken below zero or past the end of its word. -/
structure Accounted : Prop where
  classActiveRequests : ∀ c,
    (count s.classActiveRequests.map c).toNat = (s.activeInClass c).length
  classActiveTokens : ∀ c,
    (count s.classActiveTokens.map c).toNat = activeCost (s.activeInClass c)
  tenantActiveRequests : ∀ t,
    (count s.tenantActiveRequests.map t).toNat = (s.activeOfTenant t).length
  tenantActiveTokens : ∀ t,
    (count s.tenantActiveTokens.map t).toNat = activeCost (s.activeOfTenant t)
  tenantQueuedRequests : ∀ t,
    (count s.tenantQueuedRequests.map t).toNat = (s.queuedOfTenant t).length
  tenantQueuedTokens : ∀ t,
    (count s.tenantQueuedTokens.map t).toNat = queuedCost (s.queuedOfTenant t) % 2 ^ 64
  inRange : s.classActiveRequests.overflowed = false ∧ s.classActiveTokens.overflowed = false ∧
    s.tenantActiveRequests.overflowed = false ∧ s.tenantActiveTokens.overflowed = false ∧
    s.tenantQueuedRequests.overflowed = false

/-- No limit of the policy is exceeded. -/
structure WithinCaps (ctl : TrafficController) (s : TrafficState) : Prop where
  activeRequests : s.active.size ≤ ctl.policy.maxActiveRequests.toNat
  activeTokens : s.exactActiveTokens ≤ ctl.policy.maxActiveTokens.toNat
  class_le : ∀ (c : String) serviceClass, ctl.classes[c]? = some serviceClass →
    (s.activeInClass c).length ≤ serviceClass.maxActiveRequests.toNat ∧
    activeCost (s.activeInClass c) ≤ serviceClass.maxActiveTokens.toNat
  tenant_le : ∀ (t : String) tenant, ctl.tenants[t]? = some tenant →
    (s.activeOfTenant t).length ≤ tenant.maxActiveRequests.toNat ∧
    activeCost (s.activeOfTenant t) ≤ tenant.maxActiveTokens.toNat
  queuedRequests : (waitingList s.waiting).length ≤ ctl.policy.maxQueuedRequests.toNat
  tenantQueued_le : ∀ (t : String) tenant, ctl.tenants[t]? = some tenant →
    (s.queuedOfTenant t).length ≤ tenant.maxQueuedRequests.toNat

end Contract

section Lists

variable (s : TrafficState)

private theorem natTally_active (key : ActiveRequest → String) (size : ActiveRequest → UInt64)
    (k : String) :
    natTally (fun e : UInt64 × ActiveRequest => key e.2) (fun e => size e.2) (entries s.active) k =
      (((s.active.toList.map Prod.snd).filter fun a => key a = k).map
        fun a => (size a).toNat).sum := by
  simp [natTally, entries, List.filter_map, Function.comp_def]

private theorem natTally_waiting (size : QueuedRequest → UInt64) (t : String) :
    natTally WaitingEntry.tenant (fun e => size e.request) (waitingEntries s.waiting) t =
      ((s.queuedOfTenant t).map fun q => (size q).toNat).sum := by
  simp [natTally, ← coe_waitingList, TrafficState.queuedOfTenant, Function.comp_def]

private theorem sum_map_one {α : Type} (l : List α) :
    (l.map fun _ => (1 : UInt64).toNat).sum = l.length := by
  simp

/-- The tallies of the active map are the lists of the contract. -/
theorem natTally_activeInClass (c : String) :
    natTally (fun e : UInt64 × ActiveRequest => e.2.serviceClass) (fun _ => 1)
        (entries s.active) c =
      (s.activeInClass c).length ∧
    natTally (fun e : UInt64 × ActiveRequest => e.2.serviceClass) (fun e => e.2.tokenCost)
      (entries s.active) c = activeCost (s.activeInClass c) :=
  ⟨(natTally_active s ActiveRequest.serviceClass (fun _ => 1) c).trans (sum_map_one _),
    natTally_active s ActiveRequest.serviceClass ActiveRequest.tokenCost c⟩

theorem natTally_activeOfTenant (t : String) :
    natTally (fun e : UInt64 × ActiveRequest => e.2.tenant) (fun _ => 1) (entries s.active) t =
      (s.activeOfTenant t).length ∧
    natTally (fun e : UInt64 × ActiveRequest => e.2.tenant) (fun e => e.2.tokenCost)
      (entries s.active) t = activeCost (s.activeOfTenant t) :=
  ⟨(natTally_active s ActiveRequest.tenant (fun _ => 1) t).trans (sum_map_one _),
    natTally_active s ActiveRequest.tenant ActiveRequest.tokenCost t⟩

theorem natTally_queuedOfTenant (t : String) :
    natTally WaitingEntry.tenant (fun _ => 1) (waitingEntries s.waiting) t =
      (s.queuedOfTenant t).length ∧
    natTally WaitingEntry.tenant (fun e => e.request.tokenCost) (waitingEntries s.waiting) t =
      queuedCost (s.queuedOfTenant t) :=
  ⟨(natTally_waiting s (fun _ => 1) t).trans (sum_map_one _),
    natTally_waiting s QueuedRequest.tokenCost t⟩

end Lists

/-- Sound accounting is the contract. -/
theorem StateSound.contract {s : TrafficState} (h : StateSound ctl s) (ht : TokensSound ctl s) :
    Accounted s ∧ WithinCaps ctl s := by
  have htokens : ∀ (key : UInt64 × ActiveRequest → String) k,
      natTally key (fun e => e.2.tokenCost) (entries s.active) k < 2 ^ 64 := by
    intro key k
    have hle := natTally_le_sum key (fun e => e.2.tokenCost) (entries s.active) k
    have hlimit := ctl.policy.maxActiveTokens.toNat_lt
    have htotal := ht.total_le
    omega
  refine ⟨⟨fun c => ?_, fun c => ?_, fun t => ?_, fun t => ?_, fun t => ?_, fun t => ?_,
    h.active.classRequests_exact, ht.classTokens_exact, h.active.tenantRequests_exact,
    ht.tenantTokens_exact, h.queue.requests_exact⟩, ?_, ?_, fun c p hp => ⟨?_, ?_⟩,
    fun t p hp => ⟨?_, ?_⟩, ?_, fun t p hp => ?_⟩
  · exact (h.active.classRequests_tracks.toNat_count (natTally_one_lt _ h.active.total_le)).trans
      (natTally_activeInClass s c).1
  · exact (h.active.classTokens_tracks.toNat_count (htokens _ c)).trans
      (natTally_activeInClass s c).2
  · exact (h.active.tenantRequests_tracks.toNat_count (natTally_one_lt _ h.active.total_le)).trans
      (natTally_activeOfTenant s t).1
  · exact (h.active.tenantTokens_tracks.toNat_count (htokens _ t)).trans
      (natTally_activeOfTenant s t).2
  · exact (h.queue.requests_tracks.toNat_count (natTally_one_lt _ h.queue.total_le)).trans
      (natTally_queuedOfTenant s t).1
  · rw [h.queue.tokens_tracks.count_eq, toNat_tally,
      (natTally_queuedOfTenant s t).2]
  · rw [← card_entries]
    exact h.active.total_le
  · exact ht.total_le
  · exact (natTally_activeInClass s c).1.symm.trans_le (h.active.class_le c p hp)
  · exact (natTally_activeInClass s c).2.symm.trans_le (ht.class_le c p hp)
  · exact (natTally_activeOfTenant s t).1.symm.trans_le (h.active.tenant_le t p hp)
  · exact (natTally_activeOfTenant s t).2.symm.trans_le (ht.tenant_le t p hp)
  · have hle := h.queue.total_le
    rwa [← coe_waitingList, Multiset.coe_card] at hle
  · exact (natTally_queuedOfTenant s t).1.symm.trans_le (h.queue.tenant_le t p hp)

/-- Along every run whose grants are exact, every counter is what it counts and no
limit is exceeded. -/
theorem accounted_withinCaps_of_run {sys : System} {labels : List Label}
    (h : Run (permitted (ExactGrant ctl) (stepRel (step ctl))) {} labels sys) :
    Accounted sys.state ∧ WithinCaps ctl sys.state := by
  have hinv : StateSound ctl sys.state ∧ TokensSound ctl sys.state :=
    h.invariant (fun sys => StateSound ctl sys.state ∧ TokensSound ctl sys.state)
      (fun _ _ _ hsound hstep => ⟨hsound.1.step hstep.1.fresh hstep.2,
        hsound.2.step hsound.1 hstep.1 hstep.2⟩) ⟨StateSound.empty, TokensSound.empty⟩
  exact hinv.1.contract hinv.2

/-- Two requests of the default tenant, both active. -/
theorem accounted_withinCaps_default_run : ∃ sys,
    Run (permitted (ExactGrant .default) (stepRel (step .default))) {}
      [.admitRequest (some "default") 1000 0 0, .schedule 0, .unlock,
        .admitRequest (some "default") 2000 0 0, .schedule 0, .unlock] sys ∧
    sys.state.active.size = 2 ∧ Accounted sys.state ∧ WithinCaps .default sys.state := by
  have h : (List.foldlM (fun sys label => if ExactGrant .default sys label then
      step .default sys label else none) {}
        [.admitRequest (some "default") 1000 0 0, .schedule 0, .unlock,
        .admitRequest (some "default") 2000 0 0, .schedule 0, .unlock]).map
      (fun sys => sys.state.active.size) = some 2 := by decide
  obtain ⟨sys, hrun, hsize⟩ := Option.map_eq_some_iff.mp h
  have hrun := Run.of_foldlM_permitted hrun
  exact ⟨sys, hrun, hsize, accounted_withinCaps_of_run hrun⟩

/-- A policy that leaves tokens unlimited by setting every token limit to `u64::MAX`. -/
def unlimitedTokens : TrafficController where
  policy := {
    maxActiveRequests := 2, maxActiveTokens := u64Max, maxQueuedRequests := 8,
    defaultOutputTokens := 256
    classes := [
      { id := "standard", weight := 1, maxActiveRequests := 2, maxActiveTokens := u64Max,
        shedAtGlobalUtilizationBps := none }]
    tenants := [
      { id := "default", serviceClass := "standard", weight := 1, maxActiveRequests := 2,
        maxActiveTokens := u64Max, maxQueuedRequests := 8, maxTokensPerRequest := u64Max,
        defaultRequestTimeout := 1, maxRequestTimeout := 1 }] }
  accepted := by decide

/-- Without exact grants the contract fails: two requests of `2 ^ 63` tokens are both
admitted, their sum exceeds the limit and the class counter has wrapped to zero. -/
theorem not_accounted_unlimitedTokens_run : ∃ sys,
    Reaches unlimitedTokens
      [.admitRequest (some "default") 9223372036854775808 0 0, .schedule 0, .unlock,
        .admitRequest (some "default") 9223372036854775808 0 0, .schedule 0, .unlock] sys ∧
    sys.lock = .free ∧ count sys.state.classActiveTokens.map "standard" = 0 ∧
    ¬Accounted sys.state ∧ ¬WithinCaps unlimitedTokens sys.state := by
  have h : (List.foldlM (step unlimitedTokens) {}
      [.admitRequest (some "default") 9223372036854775808 0 0, .schedule 0, .unlock,
        .admitRequest (some "default") 9223372036854775808 0 0, .schedule 0, .unlock]).map
      (fun sys => (sys.lock, count sys.state.classActiveTokens.map "standard",
        activeCost (sys.state.activeInClass "standard"), sys.state.exactActiveTokens)) =
      some (.free, 0, 2 ^ 64, 2 ^ 64) := by decide
  obtain ⟨sys, hrun, heq⟩ := Option.map_eq_some_iff.mp h
  simp only [Prod.mk.injEq] at heq
  obtain ⟨hlock, hcount, hcost, htotal⟩ := heq
  refine ⟨sys, Run.of_foldlM hrun, hlock, hcount, fun haccounted => ?_, fun hcaps => ?_⟩
  · have := haccounted.classActiveTokens "standard"
    rw [hcount, hcost] at this
    exact absurd this (by decide)
  · have := hcaps.activeTokens
    rw [htotal] at this
    exact absurd this (by decide)

end Locus.Traffic
