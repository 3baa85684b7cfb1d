import Locus.Traffic.Caps
import Locus.Traffic.Tickets

/-!
# Work conservation

When no thread is inside the scheduling loop, either the controller is full or no
queue head fits. Because `admit` only enqueues what fits an idle controller, a
waiting request then implies an active one. The condition is that no grant meets a
ticket that is still active, as it does on every run with fewer than `2 ^ 64`
enqueued requests.
-/

namespace Locus.Traffic

open Std (TreeMap)
open Locus.Lib

variable {ctl : TrafficController} {s s' : TrafficState} {sys sys' : System}

/-- A queue head fits the global, class and tenant limits at once, in exact arithmetic. -/
structure FitsNow (ctl : TrafficController) (s : TrafficState) (c t : String)
    (serviceClass : ServiceClassPolicy) (tenant : TenantPolicy) (head : QueuedRequest) : Prop where
  class_eq : ctl.classes[c]? = some serviceClass
  tenant_eq : ctl.tenants[t]? = some tenant
  head_eq : (s.queue c t).head? = some head
  activeTokens : s.exactActiveTokens + head.tokenCost.toNat ≤ ctl.policy.maxActiveTokens.toNat
  classRequests : (s.activeInClass c).length < serviceClass.maxActiveRequests.toNat
  classTokens : activeCost (s.activeInClass c) + head.tokenCost.toNat ≤
    serviceClass.maxActiveTokens.toNat
  tenantRequests : (s.activeOfTenant t).length < tenant.maxActiveRequests.toNat
  tenantTokens : activeCost (s.activeOfTenant t) + head.tokenCost.toNat ≤
    tenant.maxActiveTokens.toNat

/-- The controller is full or no head may be scheduled. -/
def Saturated (ctl : TrafficController) (s : TrafficState) : Prop :=
  s.active.size = ctl.policy.maxActiveRequests.toNat ∨ ∀ c t, ¬Candidate ctl s c t

section Steps

private theorem saturated_of_no_candidate (hsound : StateSound ctl s)
    (h : nextCandidate ctl s = none) : Saturated ctl s := by
  unfold nextCandidate at h
  split_ifs at h with hroom
  · exact .inr (not_candidate_of_chooseCandidate_eq_none hsound.queue.known h)
  · have hle := hsound.active.total_le
    rw [card_entries] at hle
    exact .inl (by omega)

private theorem Saturated.of_empty (h : waitingEntries s.waiting = 0) : Saturated ctl s := by
  refine .inr ?_
  rintro c t ⟨serviceClass, tenant, head, hcandidate⟩
  have hmem : (⟨c, t, head⟩ : WaitingEntry) ∈ waitingEntries s.waiting :=
    mem_waitingEntries.mpr (List.mem_of_head? hcandidate.head_eq)
  simp [h] at hmem

/-- Whenever the lock is free the controller is saturated. -/
def WorkConserving (ctl : TrafficController) (sys : System) : Prop :=
  sys.lock = .free → Saturated ctl sys.state

/-- Every section that frees capacity or changes a head runs the scheduling loop, and
the loop ends saturated. -/
theorem WorkConserving.step (h : WorkConserving ctl sys) (hsound : StateSound ctl sys.state)
    {label : Label} (hstep : step ctl sys label = some sys') : WorkConserving ctl sys' := by
  -- Rejections and the drain flag are not read by the scheduler.
  have hsame : ∀ (s' : TrafficState), s'.waiting = sys.state.waiting →
      s'.active = sys.state.active →
      s'.classActiveRequests = sys.state.classActiveRequests →
      s'.classActiveTokens = sys.state.classActiveTokens →
      s'.tenantActiveRequests = sys.state.tenantActiveRequests →
      s'.tenantActiveTokens = sys.state.tenantActiveTokens →
      Saturated ctl sys.state → Saturated ctl s' := by
    intro s' hw ha hcr hct htr htt hsat
    rcases hsat with hfull | hnone
    · exact .inl (ha ▸ hfull)
    · refine .inr ?_
      rintro c t ⟨serviceClass, tenant, head, hcandidate⟩
      refine hnone c t ⟨serviceClass, tenant, head, hcandidate.class_eq, hcandidate.tenant_eq,
        hw ▸ hcandidate.head_eq, hcr ▸ hcandidate.class_room, ?_⟩
      have hfits := headFits_iff.mp hcandidate.fits
      rw [TrafficState.activeTokens, ha, hct, htr, htt] at hfits
      exact headFits_iff.mpr hfits
  cases move_of_step hsound.queue.known hstep with
  | refused free => exact fun _ => hsame _ rfl rfl rfl rfl rfl rfl (h free)
  | resumed free => exact fun _ => hsame _ rfl rfl rfl rfl rfl rfl (h free)
  | cancelMissed free | releaseMissed free | drainRepeated free => exact fun _ => h free
  | rephased => exact h
  | enqueued | cancelled | released => rintro ⟨⟩
  | delivered busy | undelivered busy => exact fun free => absurd free busy
  | unlocked busy idle => exact fun _ => saturated_of_no_candidate hsound idle
  | drained free hdrains =>
    obtain ⟨rej, rfl⟩ := hdrains.state_eq
    refine fun _ => .of_empty ?_
    rw [foldl_sendDraining_state, waitingEntries_empty]

end Steps

section Fits

private theorem saturatingAdd_le {a b limit : UInt64} {exact : ℕ} (hle : a.toNat ≤ exact)
    (hfits : exact + b.toNat ≤ limit.toNat) : saturatingAdd a b ≤ limit := by
  have hlt := limit.toNat_lt
  rw [UInt64.le_iff_toNat_le, toNat_saturatingAdd (by omega)]
  omega

private theorem toNat_count_le {c : Counters String} {key : UInt64 × ActiveRequest → String}
    {size : UInt64 × ActiveRequest → UInt64} {M : Multiset (UInt64 × ActiveRequest)}
    (h : Tracks c key size M) (k : String) : (count c.map k).toNat ≤ natTally key size M k := by
  rw [h.count_eq, toNat_tally]
  exact Nat.mod_le _ _

/-- A head that fits in exact arithmetic is one the scheduler may choose: wrapped counters
are never too large. -/
theorem FitsNow.candidate {c t : String} {serviceClass : ServiceClassPolicy}
    {tenant : TenantPolicy} {head : QueuedRequest} (h : FitsNow ctl s c t serviceClass tenant head)
    (hsound : StateSound ctl s) : Candidate ctl s c t := by
  have hactive := hsound.active
  refine ⟨serviceClass, tenant, head, h.class_eq, h.tenant_eq, h.head_eq, ?_,
    headFits_iff.mpr ⟨?_, ?_, ?_, ?_⟩⟩
  · rw [UInt64.lt_iff_toNat_lt]
    refine (toNat_count_le hactive.classRequests_tracks c).trans_lt ?_
    rw [(natTally_activeInClass s c).1]
    exact h.classRequests
  · refine saturatingAdd_le ?_ h.activeTokens
    rw [toNat_activeTokens, ← exactActiveTokens_eq]
    exact Nat.mod_le _ _
  · refine saturatingAdd_le (toNat_count_le hactive.classTokens_tracks c) ?_
    rw [(natTally_activeInClass s c).2]
    exact h.classTokens
  · rw [UInt64.lt_iff_toNat_lt]
    refine (toNat_count_le hactive.tenantRequests_tracks t).trans_lt ?_
    rw [(natTally_activeOfTenant s t).1]
    exact h.tenantRequests
  · refine saturatingAdd_le (toNat_count_le hactive.tenantTokens_tracks t) ?_
    rw [(natTally_activeOfTenant s t).2]
    exact h.tenantTokens

private theorem toNat_pos {a : UInt64} (h : a ≠ 0) : 0 < a.toNat := by
  rw [Nat.pos_iff_ne_zero]
  exact fun heq => h (UInt64.toNat_inj.mp heq)

/-- The head of any queue fits an idle controller. -/
theorem fitsNow_of_idle (hsound : StateSound ctl s) (hidle : s.active.size = 0) {e : WaitingEntry}
    (he : e ∈ waitingEntries s.waiting) :
    ∃ serviceClass tenant head, FitsNow ctl s e.serviceClass e.tenant serviceClass tenant head := by
  have hne := List.ne_nil_of_mem (mem_waitingEntries.mp he)
  obtain ⟨head, rest, hqueue⟩ := List.exists_cons_of_ne_nil hne
  have hmem : (⟨e.serviceClass, e.tenant, head⟩ : WaitingEntry) ∈ waitingEntries s.waiting :=
    mem_waitingEntries.mpr (by simp [hqueue])
  obtain ⟨tenant, serviceClass, htenant, -, hclass, hglobal, hclassFits, htenantFits⟩ :=
    hsound.queue.fitting _ hmem
  have hempty : s.active.toList = [] := by
    rw [← List.length_eq_zero_iff, TreeMap.length_toList]
    exact hidle
  have hclassSound := ctl.sound.classes _ (ctl.classes_eq_some hclass).1
  have htenantSound := ctl.sound.tenants _ (ctl.tenants_eq_some htenant).1
  refine ⟨serviceClass, tenant, head, hclass, htenant, by simp [hqueue], ?_, ?_, ?_, ?_, ?_⟩
  · simpa [TrafficState.exactActiveTokens, hempty] using UInt64.le_iff_toNat_le.mp hglobal
  · simpa [TrafficState.activeInClass, hempty] using toNat_pos hclassSound.maxActiveRequests_ne
  · simpa [TrafficState.activeInClass, activeCost, hempty] using
      UInt64.le_iff_toNat_le.mp hclassFits
  · simpa [TrafficState.activeOfTenant, hempty] using toNat_pos htenantSound.maxActiveRequests_ne
  · simpa [TrafficState.activeOfTenant, activeCost, hempty] using
      UInt64.le_iff_toNat_le.mp htenantFits

end Fits

/-- After every critical section of a run that never grants an active ticket, the
controller is full or no queue head fits, and a waiting request implies an active one. -/
theorem work_conserved_of_run {labels : List Label}
    (h : Run (permitted (FreshGrant ctl) (stepRel (step ctl))) {} labels sys)
    (hfree : sys.lock = .free) :
    (sys.state.active.size = ctl.policy.maxActiveRequests.toNat ∨
      ∀ c t serviceClass tenant head, ¬FitsNow ctl sys.state c t serviceClass tenant head) ∧
    (waitingList sys.state.waiting ≠ [] → 0 < sys.state.active.size) := by
  have hinv : StateSound ctl sys.state ∧ WorkConserving ctl sys :=
    h.invariant (fun sys => StateSound ctl sys.state ∧ WorkConserving ctl sys)
      (fun _ _ _ hinv hstep => ⟨hinv.1.step hstep.1 hstep.2, hinv.2.step hinv.1 hstep.2⟩)
      ⟨StateSound.empty, fun _ => .of_empty waitingEntries_empty⟩
  obtain ⟨hsound, hconserving⟩ := hinv
  have hsaturated : sys.state.active.size = ctl.policy.maxActiveRequests.toNat ∨
      ∀ c t serviceClass tenant head, ¬FitsNow ctl sys.state c t serviceClass tenant head := by
    refine (hconserving hfree).imp id fun hnone c t serviceClass tenant head hfits => ?_
    exact hnone c t (hfits.candidate hsound)
  refine ⟨hsaturated, fun hwaiting => Nat.pos_of_ne_zero fun hidle => ?_⟩
  obtain ⟨e, he⟩ := List.exists_mem_of_ne_nil _ hwaiting
  obtain ⟨serviceClass, tenant, head, hfits⟩ :=
    fitsNow_of_idle hsound hidle (by rw [← coe_waitingList]; exact he)
  rcases hsaturated with hfull | hnone
  · have := toNat_pos ctl.sound.maxActiveRequests_ne
    omega
  · exact hnone _ _ _ _ _ hfits

/-- A class for two requests and a hundred tokens at a time. -/
def batchClass : ServiceClassPolicy where
  id := "batch"
  weight := 1
  maxActiveRequests := 2
  maxActiveTokens := 100
  shedAtGlobalUtilizationBps := none

/-- Its only tenant. -/
def batchTenant : TenantPolicy where
  id := "a"
  serviceClass := "batch"
  weight := 1
  maxActiveRequests := 2
  maxActiveTokens := 100
  maxQueuedRequests := 8
  maxTokensPerRequest := 100
  defaultRequestTimeout := 1000000000
  maxRequestTimeout := 1000000000

/-- A controller with one class and one tenant. -/
def narrow : TrafficController where
  policy := {
    maxActiveRequests := 2, maxActiveTokens := 100, maxQueuedRequests := 8,
    defaultOutputTokens := 10, classes := [batchClass], tenants := [batchTenant] }
  accepted := by decide

/-- Every run with fewer than `2 ^ 64` enqueued requests meets the condition. -/
theorem freshGrant_run_of_reaches {labels : List Label} (h : Reaches ctl labels sys)
    (hlt : sys.enqueues < 2 ^ 64) :
    Run (permitted (FreshGrant ctl) (stepRel (step ctl))) {} labels sys := by
  induction h with
  | nil => exact .nil _
  | snoc hrun hlast ih =>
    have hle := enqueues_le_of_log_prefix (log_prefix_of_step hlast)
    have hsound := ticketsSound_of_reaches hrun (by omega)
    exact .snoc (ih (by omega)) ⟨hsound.freshGrant _, hlast⟩

/-- A request that does not fit beside an active one waits. -/
theorem work_conserved_narrow_run : ∃ sys,
    Run (permitted (FreshGrant narrow) (stepRel (step narrow))) {}
      [.admitRequest (some "a") 99 0 0, .schedule 0, .unlock, .admitRequest (some "a") 50 0 0,
        .unlock] sys ∧
    sys.lock = .free ∧ waitingList sys.state.waiting ≠ [] ∧
    (sys.state.active.size = narrow.policy.maxActiveRequests.toNat ∨
      ∀ c t serviceClass tenant head, ¬FitsNow narrow sys.state c t serviceClass tenant head) ∧
    (waitingList sys.state.waiting ≠ [] → 0 < sys.state.active.size) := by
  have h : (List.foldlM (step narrow) {} [.admitRequest (some "a") 99 0 0, .schedule 0, .unlock,
        .admitRequest (some "a") 50 0 0, .unlock]).map
      (fun sys => (sys.lock, (waitingList sys.state.waiting).length, sys.enqueues)) =
        some (.free, 1, 2) := by decide
  obtain ⟨sys, hrun, heq⟩ := Option.map_eq_some_iff.mp h
  simp only [Prod.mk.injEq] at heq
  obtain ⟨hfree, hwaiting, henqueues⟩ := heq
  have hreach : Reaches narrow _ sys := Run.of_foldlM hrun
  have hrun := freshGrant_run_of_reaches hreach (by omega)
  refine ⟨sys, hrun, hfree, ?_, work_conserved_of_run hrun hfree⟩
  intro hnil
  simp [hnil] at hwaiting

end Locus.Traffic
