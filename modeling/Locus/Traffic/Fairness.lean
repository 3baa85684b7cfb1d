import Locus.Lib.Service
import Locus.Traffic.Capacity

/-!
# Weighted fairness

Dispatching a request charges its cost, divided by the weight, to the virtual
runtime of its tenant and of its class. Because the scheduler picks the least
virtual runtime, two tenants of a class that both stay eligible drift apart by no
more than one charge, and so do two classes.
-/

namespace Locus.Traffic

open Std (TreeMap)
open Locus.Lib

variable {ctl : TrafficController} {sys sys' : System} {label : Label}

/-- The class, the tenant and the request that a step dispatches. -/
def dispatch (ctl : TrafficController) (sys : System) :
    Label → Option (String × String × QueuedRequest)
  | .schedule _ => (nextCandidate ctl sys.state).bind fun candidate =>
      (sys.state.queue candidate.1 candidate.2).head?.map fun q => (candidate.1, candidate.2, q)
  | _ => none

/-- The virtual runtime that a step charges to a tenant. -/
def tenantService (ctl : TrafficController) (sys : System) (label : Label) (tenant : TenantPolicy) :
    ℕ :=
  match dispatch ctl sys label with
  | some (_, t, q) => if t = tenant.id then virtualRuntimeDelta q.tokenCost tenant.weight else 0
  | none => 0

/-- The virtual runtime that a step charges to a class. -/
def classService (ctl : TrafficController) (sys : System) (label : Label)
    (serviceClass : ServiceClassPolicy) : ℕ :=
  match dispatch ctl sys label with
  | some (c, _, q) =>
    if c = serviceClass.id then virtualRuntimeDelta q.tokenCost serviceClass.weight else 0
  | none => 0

/-- A step at which both tenants are queued, both heads fit if their class is picked, and
no virtual runtime saturates. It charges `x` to the first and `y` to the second. -/
structure TenantStep (ctl : TrafficController) (i j : TenantPolicy) (label : Label) (sys : System)
    (x y : ℕ) (sys' : System) : Prop where
  step_eq : step ctl sys label = some sys'
  waiting : sys.state.queue i.serviceClass i.id ≠ [] ∧ sys.state.queue j.serviceClass j.id ≠ []
  fits : ∀ d ∈ dispatch ctl sys label, d.1 = i.serviceClass →
    Candidate ctl sys.state i.serviceClass i.id ∧ Candidate ctl sys.state j.serviceClass j.id
  unsaturated : count sys.state.tenantVruntime i.id + x ≤ u128Max ∧
    count sys.state.tenantVruntime j.id + y ≤ u128Max
  first_eq : x = tenantService ctl sys label i
  second_eq : y = tenantService ctl sys label j

/-- A step at which both classes have waiting requests, both offer a candidate if anything
is dispatched, and no virtual runtime saturates. -/
structure ClassStep (ctl : TrafficController) (c d : ServiceClassPolicy) (label : Label)
    (sys : System) (x y : ℕ) (sys' : System) : Prop where
  step_eq : step ctl sys label = some sys'
  waiting : classHasWaiting sys.state c.id = true ∧ classHasWaiting sys.state d.id = true
  offers : dispatch ctl sys label ≠ none →
    (∃ t, Candidate ctl sys.state c.id t) ∧ ∃ t, Candidate ctl sys.state d.id t
  unsaturated : count sys.state.classVruntime c.id + x ≤ u128Max ∧
    count sys.state.classVruntime d.id + y ≤ u128Max
  first_eq : x = classService ctl sys label c
  second_eq : y = classService ctl sys label d

section Charges

/-- A dispatch is the grant of the chosen head. -/
theorem dispatch_eq_some {c t : String} {q : QueuedRequest}
    (h : dispatch ctl sys label = some (c, t, q)) :
    chooseCandidate ctl sys.state = some (c, t) ∧
      (queueOf sys.state.waiting c t).head? = some q := by
  cases label with
  | schedule now =>
    obtain ⟨⟨c', t'⟩, hnext, h⟩ := Option.bind_eq_some_iff.mp h
    obtain ⟨q', hhead, heq⟩ := Option.map_eq_some_iff.mp h
    simp only [Prod.mk.injEq] at heq
    obtain ⟨rfl, rfl, rfl⟩ := heq
    unfold nextCandidate at hnext
    split_ifs at hnext
    exact ⟨hnext, hhead⟩
  | _ => cases h

private theorem Grants.dispatch_eq {c t : String} {q : QueuedRequest} {s' : TrafficState} {now : ℕ}
    (hg : Grants ctl sys.state c t q s') : dispatch ctl sys (.schedule now) = some (c, t, q) := by
  obtain ⟨rest, serviceClass, tenant, now', hqueue, -⟩ := hg.state_eq
  simp [dispatch, nextCandidate, hg.room, hg.chosen, hqueue]

/-- What a grant does to the virtual runtimes. -/
private theorem Grants.vruntime {c t : String} {q : QueuedRequest} {s' : TrafficState}
    (hg : Grants ctl sys.state c t q s') : ∃ serviceClass tenant,
    ctl.classes[c]? = some serviceClass ∧ ctl.tenants[t]? = some tenant ∧
    s'.classVruntime = sys.state.classVruntime.insert c (saturatingAdd128
      (count sys.state.classVruntime c) (virtualRuntimeDelta q.tokenCost serviceClass.weight)) ∧
    s'.tenantVruntime = sys.state.tenantVruntime.insert t (saturatingAdd128
      (count sys.state.tenantVruntime t) (virtualRuntimeDelta q.tokenCost tenant.weight)) := by
  obtain ⟨rest, serviceClass, tenant, now, -, hclass, htenant, rfl⟩ := hg.state_eq
  exact ⟨serviceClass, tenant, hclass, htenant, rfl, rfl⟩

/-- A step moves the virtual runtimes of queued tenants and classes only by dispatching. -/
private theorem vruntime_step (hsound : QueuesSound ctl sys.state)
    (hstep : step ctl sys label = some sys') :
    (∃ (c t : String) (q : QueuedRequest) (serviceClass : ServiceClassPolicy)
      (tenant : TenantPolicy), dispatch ctl sys label = some (c, t, q) ∧
      ctl.classes[c]? = some serviceClass ∧ ctl.tenants[t]? = some tenant ∧
      sys'.state.classVruntime = sys.state.classVruntime.insert c (saturatingAdd128
        (count sys.state.classVruntime c) (virtualRuntimeDelta q.tokenCost serviceClass.weight)) ∧
      sys'.state.tenantVruntime = sys.state.tenantVruntime.insert t (saturatingAdd128
        (count sys.state.tenantVruntime t) (virtualRuntimeDelta q.tokenCost tenant.weight))) ∨
    (dispatch ctl sys label = none ∧
      (∀ c, classHasWaiting sys.state c = true →
        count sys'.state.classVruntime c = count sys.state.classVruntime c) ∧
      ∀ tenant : TenantPolicy, ctl.tenants[tenant.id]? = some tenant →
        queueOf sys.state.waiting tenant.serviceClass tenant.id ≠ [] →
        count sys'.state.tenantVruntime tenant.id = count sys.state.tenantVruntime tenant.id) := by
  cases move_of_step hsound.known hstep with
  | refused | unlocked | cancelMissed | releaseMissed | drainRepeated | resumed =>
    exact .inr ⟨rfl, fun _ _ => rfl, fun _ _ _ => rfl⟩
  | rephased caller =>
    refine .inr ⟨?_, fun _ _ => rfl, fun _ _ _ => rfl⟩
    cases label with
    | schedule now => exact absurd rfl (caller now)
    | _ => rfl
  | enqueued free enqueues =>
    refine .inr ⟨rfl, fun c hc => enqueues.classVruntime_eq c fun _ => hc, fun tenant ht hne => ?_⟩
    refine enqueues.tenantVruntime_eq tenant.id fun heq => ?_
    have htenant := enqueues.tenant_eq
    rw [← heq, ht] at htenant
    rwa [← Option.some.inj htenant]
  | delivered busy grants =>
    obtain ⟨serviceClass, tenant, hcharge⟩ := grants.vruntime
    exact .inl ⟨_, _, _, serviceClass, tenant, grants.dispatch_eq, hcharge⟩
  | undelivered busy grants releases =>
    obtain ⟨serviceClass, tenant, hcharge⟩ := grants.vruntime
    obtain ⟨-, rfl⟩ := releases
    exact .inl ⟨_, _, _, serviceClass, tenant, grants.dispatch_eq, hcharge⟩
  | cancelled free channel_eq tenant_eq cancels =>
    obtain ⟨before, after, rej, hqueue, rfl⟩ := cancels.state_eq
    exact .inr ⟨rfl, fun _ _ => rfl, fun _ _ _ => rfl⟩
  | released free channel_eq dropping releases =>
    obtain ⟨-, rfl⟩ := releases
    exact .inr ⟨rfl, fun _ _ => rfl, fun _ _ _ => rfl⟩
  | drained free drains =>
    obtain ⟨rej, rfl⟩ := drains.state_eq
    rw [foldl_sendDraining_state]
    exact .inr ⟨rfl, fun _ _ => rfl, fun _ _ _ => rfl⟩

private theorem saturatingAdd128_eq {a b : ℕ} (h : a + b ≤ u128Max) :
    saturatingAdd128 a b = a + b :=
  min_eq_left h

/-- A queued tenant's virtual runtime grows by what the step charges to it. -/
theorem tenantVruntime_step (hsound : QueuesSound ctl sys.state)
    (hstep : step ctl sys label = some sys') {tenant : TenantPolicy}
    (htenant : ctl.tenants[tenant.id]? = some tenant)
    (hne : queueOf sys.state.waiting tenant.serviceClass tenant.id ≠ [])
    (hfits : count sys.state.tenantVruntime tenant.id +
      tenantService ctl sys label tenant ≤ u128Max) :
    count sys'.state.tenantVruntime tenant.id =
      count sys.state.tenantVruntime tenant.id + tenantService ctl sys label tenant := by
  rcases vruntime_step hsound hstep with
    ⟨c, t, q, _, tenant', hdispatch, -, ht, -, heq⟩ | ⟨hnone, -, hkept⟩
  · simp only [tenantService, hdispatch] at hfits ⊢
    rw [heq, count_insert]
    split_ifs at hfits ⊢ with htt
    · subst htt
      obtain rfl : tenant = tenant' := by simpa [htenant] using ht
      exact saturatingAdd128_eq hfits
    · rfl
  · simp only [tenantService, hnone, Nat.add_zero]
    exact hkept tenant htenant hne

/-- The virtual runtime of a class with waiting requests grows by what is charged to it. -/
theorem classVruntime_step (hsound : QueuesSound ctl sys.state)
    (hstep : step ctl sys label = some sys') {serviceClass : ServiceClassPolicy}
    (hclass : ctl.classes[serviceClass.id]? = some serviceClass)
    (hwaiting : classHasWaiting sys.state serviceClass.id = true)
    (hfits : count sys.state.classVruntime serviceClass.id +
      classService ctl sys label serviceClass ≤ u128Max) :
    count sys'.state.classVruntime serviceClass.id =
      count sys.state.classVruntime serviceClass.id + classService ctl sys label serviceClass := by
  rcases vruntime_step hsound hstep with
    ⟨c, t, q, class', _, hdispatch, hc, -, heq, -⟩ | ⟨hnone, hkept, -⟩
  · simp only [classService, hdispatch] at hfits ⊢
    rw [heq, count_insert]
    split_ifs at hfits ⊢ with hcc
    · subst hcc
      obtain rfl : serviceClass = class' := by simpa [hclass] using hc
      exact saturatingAdd128_eq hfits
    · rfl
  · simp only [classService, hnone, Nat.add_zero]
    exact hkept _ hwaiting

end Charges

end Locus.Traffic
