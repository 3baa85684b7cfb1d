import Locus.Traffic.Capacity

/-!
# The shedding threshold

A class that sheds load turns a request away once the active tokens reach its share of the
global limit. The share is compared in basis points: the active tokens times ten thousand, which
saturates, divided by the limit. The comparison is exact as long as the threshold times the limit
fits a word. A larger product is never reached, however many tokens are active.
-/

namespace Locus.Traffic

open Std (TreeMap)
open Locus.Lib

variable {ctl : TrafficController}

section Threshold

/-- A call of `admit` for a configured tenant whose cost is within every token limit. -/
structure PassesTokenLimits (ctl : TrafficController) (tenantId : String) (tokenCost : UInt64)
    (tenant : TenantPolicy) (serviceClass : ServiceClassPolicy) : Prop where
  tenant_eq : ctl.tenants[tenantId]? = some tenant
  class_eq : ctl.classes[tenant.serviceClass]? = some serviceClass
  cost_ne_zero : tokenCost ≠ 0
  cost_le_request : tokenCost ≤ tenant.maxTokensPerRequest
  cost_le_global : tokenCost ≤ ctl.policy.maxActiveTokens
  cost_le_class : tokenCost ≤ serviceClass.maxActiveTokens
  cost_le_tenant : tokenCost ≤ tenant.maxActiveTokens

/-- The call is shed exactly if the active tokens are at least the threshold's share of the
global limit. -/
def ShedsExactly (ctl : TrafficController) (s : TrafficState) (tenantId : String)
    (tokenCost : UInt64) (threshold : UInt16) : Prop :=
  ∀ now cancellation sender,
    (admitRequest ctl s (some tenantId) tokenCost now cancellation sender).1 =
        .error .overloadShed ↔
      threshold.toNat * ctl.policy.maxActiveTokens.toNat ≤ 10000 * s.exactActiveTokens

/-- The active tokens are below the threshold's share, or that share fits a word after the
multiplication. Under a limit of `u64::MAX` their sum may have wrapped; what is left of it must
reach the share as well. -/
def ThresholdInRange (ctl : TrafficController) (s : TrafficState) (threshold : UInt16) : Prop :=
  10000 * s.exactActiveTokens < threshold.toNat * ctl.policy.maxActiveTokens.toNat ∨
    threshold.toNat * ctl.policy.maxActiveTokens.toNat < 2 ^ 64 ∧
      (ctl.policy.maxActiveTokens < u64Max ∨
        threshold.toNat * ctl.policy.maxActiveTokens.toNat ≤
          10000 * (s.exactActiveTokens % 2 ^ 64))

end Threshold

variable {s s' : TrafficState} {sys sys' : System} {labels : List Label} {tenantId : String}
  {tokenCost : UInt64} {tenant : TenantPolicy} {serviceClass : ServiceClassPolicy}
  {threshold : UInt16}

section Bound

theorem sum_erase_le (active : TreeMap UInt64 ActiveRequest) (ticket : UInt64) :
    ((entries (active.erase ticket)).map fun e => e.2.tokenCost.toNat).sum ≤
      ((entries active).map fun e => e.2.tokenCost.toNat).sum := by
  cases hticket : active[ticket]? with
  | none => rw [entries_erase_of_none hticket]
  | some a =>
    rw [entries_of_getElem? hticket, Multiset.map_cons, Multiset.sum_cons]
    exact Nat.le_add_left _ _

/-- A release does not add tokens. -/
theorem Releases.exactActiveTokens_le {ticket : UInt64} {a : ActiveRequest}
    (h : Releases s ticket a s') : s'.exactActiveTokens ≤ s.exactActiveTokens := by
  obtain ⟨-, rfl⟩ := h
  rw [exactActiveTokens_eq, exactActiveTokens_eq]
  exact sum_erase_le s.active ticket

/-- A grant adds at most the cost of its request, less if its ticket was active already. -/
theorem Grants.exactActiveTokens_le {c t : String} {q : QueuedRequest}
    (h : Grants ctl s c t q s') :
    s'.exactActiveTokens ≤ s.exactActiveTokens + q.tokenCost.toNat := by
  obtain ⟨rest, serviceClass, tenant, now, -, -, -, rfl⟩ := h.state_eq
  have herase := sum_erase_le s.active q.ticket
  rw [exactActiveTokens_eq, exactActiveTokens_eq]
  simp only [activate, entries_insert, Multiset.map_cons, Multiset.sum_cons]
  omega

/-- A limit below `u64::MAX` stops the sum before it can wrap. -/
theorem Grants.within_limit {c t : String} {q : QueuedRequest} (h : Grants ctl s c t q s')
    (hsound : QueuesSound ctl s) (hmax : ctl.policy.maxActiveTokens < u64Max)
    (hwithin : s.exactActiveTokens ≤ ctl.policy.maxActiveTokens.toNat) :
    s'.exactActiveTokens ≤ ctl.policy.maxActiveTokens.toNat := by
  have hadded := h.exactActiveTokens_le
  obtain ⟨rest, serviceClass, tenant, now, -, hcandidate, -⟩ := h.isCandidate hsound.known
  obtain ⟨hglobal, -⟩ := headFits_iff.mp hcandidate.fits
  have hlimit := ctl.policy.maxActiveTokens.toNat_lt
  have hexact : s.activeTokens.toNat = s.exactActiveTokens := by
    rw [toNat_activeTokens, ← exactActiveTokens_eq, Nat.mod_eq_of_lt (by omega)]
  unfold saturatingAdd at hglobal
  split_ifs at hglobal with hfits
  · rw [UInt64.le_iff_toNat_le, UInt64.toNat_add, Nat.mod_eq_of_lt hfits, hexact] at hglobal
    omega
  · exact absurd hmax (UInt64.not_lt.mpr hglobal)

/-- One step keeps the active tokens within a limit below `u64::MAX`. -/
theorem exactActiveTokens_le_of_step (hsound : QueuesSound ctl sys.state)
    (hmax : ctl.policy.maxActiveTokens < u64Max) {label : Label}
    (hwithin : sys.state.exactActiveTokens ≤ ctl.policy.maxActiveTokens.toNat)
    (hstep : step ctl sys label = some sys') :
    sys'.state.exactActiveTokens ≤ ctl.policy.maxActiveTokens.toNat := by
  cases move_of_step hsound.known hstep with
  | refused | unlocked | cancelMissed | rephased | releaseMissed | drainRepeated | resumed =>
    exact hwithin
  | enqueued free enqueues =>
    obtain ⟨cv, tv, adm, rfl⟩ := enqueues.state_eq
    exact hwithin
  | delivered busy grants => exact grants.within_limit hsound hmax hwithin
  | undelivered busy grants releases =>
    exact releases.exactActiveTokens_le.trans (grants.within_limit hsound hmax hwithin)
  | cancelled free channel_eq tenant_eq cancels =>
    obtain ⟨before, after, rej, hqueue, rfl⟩ := cancels.state_eq
    exact hwithin
  | released free channel_eq dropping releases => exact releases.exactActiveTokens_le.trans hwithin
  | drained free drains =>
    obtain ⟨rej, rfl⟩ := drains.state_eq
    rw [foldl_sendDraining_state]
    exact hwithin

/-- The active tokens stay within a limit below `u64::MAX` along every run, even where tickets
collide. -/
theorem exactActiveTokens_le_of_reaches (h : Reaches ctl labels sys)
    (hmax : ctl.policy.maxActiveTokens < u64Max) :
    sys.state.exactActiveTokens ≤ ctl.policy.maxActiveTokens.toNat := by
  have hinv := h.invariant
    (fun sys => QueuesSound ctl sys.state ∧
      sys.state.exactActiveTokens ≤ ctl.policy.maxActiveTokens.toNat)
    (fun _ _ _ hsound hstep =>
      ⟨hsound.1.step hstep, exactActiveTokens_le_of_step hsound.1 hmax hsound.2 hstep⟩)
    ⟨QueuesSound.empty, by simp [exactActiveTokens_eq]⟩
  exact hinv.2

end Bound

section Shedding

theorem toNat_saturatingMul (a b : UInt64) :
    (saturatingMul a b).toNat = min (a.toNat * b.toNat) (2 ^ 64 - 1) := by
  have hmax : u64Max.toNat = 2 ^ 64 - 1 := rfl
  unfold saturatingMul
  split_ifs with hfits
  · rw [UInt64.toNat_mul, Nat.mod_eq_of_lt hfits]
    omega
  · rw [hmax]
    omega

/-- The comparison of `admit` in exact numbers. -/
theorem le_utilization_iff (hpos : 0 < ctl.policy.maxActiveTokens.toNat) :
    threshold.toUInt64 ≤ activeTokenUtilizationBps s ctl.policy ↔
      threshold.toNat * ctl.policy.maxActiveTokens.toNat < 2 ^ 64 ∧
        threshold.toNat * ctl.policy.maxActiveTokens.toNat ≤
          10000 * (s.exactActiveTokens % 2 ^ 64) := by
  have hten : (10000 : UInt64).toNat = 10000 := rfl
  rw [activeTokenUtilizationBps, UInt64.le_iff_toNat_le, UInt16.toNat_toUInt64, UInt64.toNat_div,
    toNat_saturatingMul, toNat_activeTokens, ← exactActiveTokens_eq, hten,
    Nat.le_div_iff_mul_le hpos]
  omega

/-- A call that passes the token limits is shed by the comparison only. -/
theorem PassesTokenLimits.admitRequest_eq_shed
    (h : PassesTokenLimits ctl tenantId tokenCost tenant serviceClass)
    (hdraining : s.draining = false)
    (hthreshold : serviceClass.shedAtGlobalUtilizationBps = some threshold)
    (now cancellation sender : ℕ) :
    (admitRequest ctl s (some tenantId) tokenCost now cancellation sender).1 =
        .error .overloadShed ↔
      threshold.toUInt64 ≤ activeTokenUtilizationBps s ctl.policy := by
  have hrequest : ¬(tokenCost = 0 ∨ tenant.maxTokensPerRequest < tokenCost) :=
    not_or.mpr ⟨h.cost_ne_zero, UInt64.not_lt.mpr h.cost_le_request⟩
  have hcapacity : ¬(ctl.policy.maxActiveTokens < tokenCost ∨
      serviceClass.maxActiveTokens < tokenCost ∨ tenant.maxActiveTokens < tokenCost) :=
    not_or.mpr ⟨UInt64.not_lt.mpr h.cost_le_global, not_or.mpr
      ⟨UInt64.not_lt.mpr h.cost_le_class, UInt64.not_lt.mpr h.cost_le_tenant⟩⟩
  simp only [admitRequest, h.tenant_eq, h.class_eq, admitTenant, if_neg hrequest,
    if_neg hcapacity, hdraining, Bool.false_eq_true, if_false, hthreshold, Option.any_some,
    decide_eq_true_eq]
  split_ifs with hshed hfull <;> simp [hshed]

/-- In every reachable state that is not draining, a call that passes the token limits is shed
exactly at the threshold of its class if and only if that threshold is in range. -/
theorem shedsExactly_iff (hreaches : Reaches ctl labels sys)
    (hdraining : sys.state.draining = false)
    (hpasses : PassesTokenLimits ctl tenantId tokenCost tenant serviceClass)
    (hthreshold : serviceClass.shedAtGlobalUtilizationBps = some threshold) :
    ShedsExactly ctl sys.state tenantId tokenCost threshold ↔
      ThresholdInRange ctl sys.state threshold := by
  have hpos : 0 < ctl.policy.maxActiveTokens.toNat := by
    have hle := UInt64.le_iff_toNat_le.mp hpasses.cost_le_global
    have hne : tokenCost.toNat ≠ 0 := fun hzero =>
      hpasses.cost_ne_zero (UInt64.toNat_inj.mp hzero)
    omega
  have hlimit := ctl.policy.maxActiveTokens.toNat_lt
  have hexact : ctl.policy.maxActiveTokens < u64Max →
      sys.state.exactActiveTokens % 2 ^ 64 = sys.state.exactActiveTokens := by
    intro hmax
    have hle := exactActiveTokens_le_of_reaches hreaches hmax
    exact Nat.mod_eq_of_lt (by omega)
  have hwrapped := Nat.mod_le sys.state.exactActiveTokens (2 ^ 64)
  have hsheds := fun now cancellation sender =>
    (hpasses.admitRequest_eq_shed hdraining hthreshold now cancellation sender).trans
      (le_utilization_iff hpos)
  unfold ThresholdInRange
  constructor
  · intro h
    have hiff := (hsheds 0 0 0).symm.trans (h 0 0 0)
    omega
  · intro h now cancellation sender
    rw [hsheds]
    by_cases hmax : ctl.policy.maxActiveTokens < u64Max
    · rw [hexact hmax] at h ⊢
      omega
    · rw [or_iff_right hmax] at h
      omega

end Shedding

section Samples

/-- A policy of one tenant whose only class sheds from a threshold on. -/
def sheddingPolicy (maxActiveTokens : UInt64) (threshold : UInt16) : TrafficPolicy where
  maxActiveRequests := 2
  maxActiveTokens := maxActiveTokens
  maxQueuedRequests := 8
  defaultOutputTokens := 256
  classes := [
    { id := "standard", weight := 1, maxActiveRequests := 2, maxActiveTokens := maxActiveTokens,
      shedAtGlobalUtilizationBps := some threshold }]
  tenants := [
    { id := "default", serviceClass := "standard", weight := 1, maxActiveRequests := 2,
      maxActiveTokens := maxActiveTokens, maxQueuedRequests := 8,
      maxTokensPerRequest := maxActiveTokens, defaultRequestTimeout := 1,
      maxRequestTimeout := 1 }]

/-- A hundred tokens, shed from the half on. -/
def sheddingHalf : TrafficController := ⟨sheddingPolicy 100 5000, by decide⟩

/-- Four quadrillion tokens, shed from nine tenths on. -/
def sheddingWide : TrafficController := ⟨sheddingPolicy 4000000000000000 9000, by decide⟩

/-- One request becomes active. -/
def oneActive (tokenCost : UInt64) : List Label :=
  [.admitRequest (some "default") tokenCost 0 0, .schedule 0, .unlock]

/-- Sixty of a hundred tokens are active. -/
theorem shedsExactly_iff_half : ∃ sys, Reaches sheddingHalf (oneActive 60) sys ∧
    sys.state.exactActiveTokens = 60 ∧ ShedsExactly sheddingHalf sys.state "default" 10 5000 := by
  have h : (List.foldlM (step sheddingHalf) {} (oneActive 60)).map
      (fun sys => (sys.state.draining, sys.state.exactActiveTokens)) = some (false, 60) := by decide
  obtain ⟨sys, hrun, heq⟩ := Option.map_eq_some_iff.mp h
  simp only [Prod.mk.injEq] at heq
  obtain ⟨hdraining, hactive⟩ := heq
  have hreaches : Reaches sheddingHalf (oneActive 60) sys := Run.of_foldlM hrun
  have hpasses : PassesTokenLimits sheddingHalf "default" 10
      ((sheddingPolicy 100 5000).tenants.head (by decide))
      ((sheddingPolicy 100 5000).classes.head (by decide)) :=
    ⟨by decide, by decide, by decide, by decide, by decide, by decide, by decide⟩
  refine ⟨sys, hreaches, hactive, (shedsExactly_iff hreaches hdraining hpasses rfl).mpr ?_⟩
  exact Or.inr ⟨by decide, Or.inl (by decide)⟩

/-- All four quadrillion tokens are active, and the next request is queued all the same: the
saturated product is less than half of the limit's ten thousandfold. -/
theorem not_shedsExactly_wide : ∃ sys, Reaches sheddingWide (oneActive 4000000000000000) sys ∧
    sys.state.draining = false ∧
    sys.state.exactActiveTokens = sheddingWide.policy.maxActiveTokens.toNat ∧
    (admitRequest sheddingWide sys.state (some "default") 1 0 0 1).1 = .ok 2 ∧
    ¬ ShedsExactly sheddingWide sys.state "default" 1 9000 := by
  have h : (List.foldlM (step sheddingWide) {} (oneActive 4000000000000000)).map
      (fun sys => (sys.state.draining, sys.state.exactActiveTokens,
        (admitRequest sheddingWide sys.state (some "default") 1 0 0 1).1)) =
      some (false, 4000000000000000, .ok 2) := by decide
  obtain ⟨sys, hrun, heq⟩ := Option.map_eq_some_iff.mp h
  simp only [Prod.mk.injEq] at heq
  obtain ⟨hdraining, hactive, hadmitted⟩ := heq
  refine ⟨sys, Run.of_foldlM hrun, hdraining, hactive, hadmitted, fun hsheds => ?_⟩
  have hshed := (hsheds 0 0 1).mpr (by rw [hactive]; decide)
  rw [hadmitted] at hshed
  cases hshed

end Samples

end Locus.Traffic
