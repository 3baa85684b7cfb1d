import Locus.Traffic.Fairness

/-!
# The fairness bound

Among tenants that stay eligible in one class, and among classes that stay
eligible, the scheduler serves one that is not ahead. The distance between two
virtual runtimes is therefore bounded by its value at the start of an interval and
the largest single charge in it, and a charge is bounded by the policy.
-/

namespace Locus.Traffic

open Std (TreeMap)
open Locus.Lib

variable {ctl : TrafficController} {sys sys' : System} {label : Label}

/-- The virtual runtime of a tenant. -/
def tenantRuntime (tenant : TenantPolicy) (sys : System) : ℕ :=
  count sys.state.tenantVruntime tenant.id

/-- The virtual runtime of a class. -/
def classRuntime (serviceClass : ServiceClassPolicy) (sys : System) : ℕ :=
  count sys.state.classVruntime serviceClass.id

section Least

variable {i j : TenantPolicy} {c d : ServiceClassPolicy} {x y : ℕ}

/-- A tenant is charged only when its own head is dispatched. -/
private theorem tenantService_ne_zero (h : tenantService ctl sys label i ≠ 0) :
    ∃ class' q, dispatch ctl sys label = some (class', i.id, q) := by
  unfold tenantService at h
  split at h
  · rename_i class' t q hdispatch
    split_ifs at h with ht
    · exact ⟨class', q, ht ▸ hdispatch⟩
    · exact absurd rfl h
  · exact absurd rfl h

private theorem classService_ne_zero (h : classService ctl sys label c ≠ 0) :
    ∃ t q, dispatch ctl sys label = some (c.id, t, q) := by
  unfold classService at h
  split at h
  · rename_i class' t q hdispatch
    split_ifs at h with hc
    · exact ⟨t, q, hc ▸ hdispatch⟩
    · exact absurd rfl h
  · exact absurd rfl h

/-- A dispatched tenant is not ahead of another candidate of its class. -/
private theorem tenant_behind (hsound : QueuesSound ctl sys.state) (hne : i.id ≠ j.id)
    (hwaiting : queueOf sys.state.waiting i.serviceClass i.id ≠ [])
    (hfits : ∀ d ∈ dispatch ctl sys label, d.1 = i.serviceClass →
      Candidate ctl sys.state i.serviceClass j.id)
    (h : tenantService ctl sys label i ≠ 0) :
    tenantService ctl sys label j = 0 ∧ tenantRuntime i sys ≤ tenantRuntime j sys := by
  obtain ⟨class', q, hdispatch⟩ := tenantService_ne_zero h
  obtain ⟨hchosen, hhead⟩ := dispatch_eq_some hdispatch
  have hclass : class' = i.serviceClass := by
    by_contra hclass
    simp [hsound.class_unique hwaiting hclass] at hhead
  subst hclass
  obtain ⟨-, hleast, -⟩ := chooseCandidate_spec hsound.known hchosen
  have hle := hleast j.id (hfits _ hdispatch rfl)
  refine ⟨by simp [tenantService, hdispatch, hne], ?_⟩
  rw [Prod.Lex.toLex_le_toLex] at hle
  exact hle.elim le_of_lt fun h => h.1.le

/-- A dispatched class is not ahead of another that offers a candidate. -/
private theorem class_behind (hsound : QueuesSound ctl sys.state) (hne : c.id ≠ d.id)
    (hoffers : dispatch ctl sys label ≠ none → ∃ t, Candidate ctl sys.state d.id t)
    (h : classService ctl sys label c ≠ 0) :
    classService ctl sys label d = 0 ∧ classRuntime c sys ≤ classRuntime d sys := by
  obtain ⟨t, q, hdispatch⟩ := classService_ne_zero h
  obtain ⟨hchosen, -⟩ := dispatch_eq_some hdispatch
  obtain ⟨-, -, hleast⟩ := chooseCandidate_spec hsound.known hchosen
  obtain ⟨t', hcandidate⟩ := hoffers (by simp [hdispatch])
  have hle := hleast d.id t' hcandidate
  refine ⟨by simp [classService, hdispatch, hne], ?_⟩
  rw [Prod.Lex.toLex_le_toLex] at hle
  exact hle.elim le_of_lt fun h => h.1.le

/-- A step of an interval serves the tenant that is behind. -/
private theorem TenantStep.servesLeast (h : TenantStep ctl i j label sys x y sys')
    (hsound : QueuesSound ctl sys.state) (hi : ctl.tenants[i.id]? = some i)
    (hj : ctl.tenants[j.id]? = some j) (hne : i.id ≠ j.id)
    (hclass : i.serviceClass = j.serviceClass) :
    ServesLeast (tenantRuntime i) (tenantRuntime j) sys x y sys' := by
  obtain ⟨hstep, ⟨hwi, hwj⟩, hfits, ⟨hui, huj⟩, rfl, rfl⟩ := h
  rw [queue_eq_queueOf] at hwi hwj
  refine ⟨tenantVruntime_step hsound hstep hi hwi hui, tenantVruntime_step hsound hstep hj hwj huj,
    tenant_behind hsound hne hwi fun d hd heq => ?_,
    tenant_behind hsound hne.symm hwj fun d hd heq => ?_⟩
  · exact hclass ▸ (hfits d hd heq).2
  · exact hclass ▸ (hfits d hd (heq.trans hclass.symm)).1

/-- A step of an interval serves the class that is behind. -/
private theorem ClassStep.servesLeast (h : ClassStep ctl c d label sys x y sys')
    (hsound : QueuesSound ctl sys.state) (hc : ctl.classes[c.id]? = some c)
    (hd : ctl.classes[d.id]? = some d) (hne : c.id ≠ d.id) :
    ServesLeast (classRuntime c) (classRuntime d) sys x y sys' := by
  obtain ⟨hstep, ⟨hwc, hwd⟩, hoffers, ⟨huc, hud⟩, rfl, rfl⟩ := h
  exact ⟨classVruntime_step hsound hstep hc hwc huc, classVruntime_step hsound hstep hd hwd hud,
    class_behind hsound hne fun h => (hoffers h).2,
    class_behind hsound hne.symm fun h => (hoffers h).1⟩

end Least

section Limits

/-- A larger request is charged at least as much. -/
theorem virtualRuntimeDelta_mono {a b : UInt64} (h : a ≤ b) (weight : UInt32) :
    virtualRuntimeDelta a weight ≤ virtualRuntimeDelta b weight := by
  unfold virtualRuntimeDelta
  refine max_le_max_left 1 ?_
  split_ifs
  · exact le_rfl
  · exact Nat.div_le_div_right (Nat.mul_le_mul_right _ (UInt64.le_iff_toNat_le.mp h))

/-- A charge is the tokens over the weight only up to a millionth: it is rounded down, but never
to nothing. So requests for few tokens at large weights are charged alike. -/
theorem dist_virtualRuntimeDelta_le (tokens : UInt64) {weight : UInt32} (h : weight ≠ 0) :
    Nat.dist (virtualRuntimeDelta tokens weight * weight.toNat)
      (tokens.toNat * virtualRuntimeScale) ≤ weight.toNat := by
  have hpos : 0 < weight.toNat := UInt32.lt_iff_toNat_lt.mp (UInt32.pos_iff_ne_zero.mpr h)
  rw [virtualRuntimeDelta, if_neg h]
  generalize tokens.toNat * virtualRuntimeScale = scaled
  have hle : scaled / weight.toNat * weight.toNat ≤ scaled := Nat.div_mul_le_self _ _
  have hlt : scaled < scaled / weight.toNat * weight.toNat + weight.toNat :=
    Nat.lt_div_mul_add hpos
  rcases Nat.eq_zero_or_pos (scaled / weight.toNat) with hzero | hone
  · rw [hzero, Nat.zero_mul] at hlt
    rw [hzero, max_eq_left (Nat.zero_le 1), Nat.dist_eq_sub_of_le_right (by omega)]
    omega
  · rw [max_eq_right hone, Nat.dist_eq_sub_of_le hle]
    omega

/-- A dispatched request is within the token limits of its tenant and its class. -/
private theorem dispatch_fitting (hsound : QueuesSound ctl sys.state) {c t : String}
    {q : QueuedRequest} (h : dispatch ctl sys label = some (c, t, q)) : Fitting ctl ⟨c, t, q⟩ :=
  hsound.fitting _ (mem_waitingEntries.mpr (List.mem_of_head? (dispatch_eq_some h).2))

private theorem tenantService_le (hsound : QueuesSound ctl sys.state) {i : TenantPolicy}
    (hi : ctl.tenants[i.id]? = some i) :
    tenantService ctl sys label i ≤ virtualRuntimeDelta i.maxActiveTokens i.weight := by
  by_cases h : tenantService ctl sys label i = 0
  · omega
  · obtain ⟨c, q, hdispatch⟩ := tenantService_ne_zero h
    obtain ⟨tenant, _, htenant, -, -, -, -, hle⟩ := dispatch_fitting hsound hdispatch
    obtain rfl : i = tenant := by simpa [hi] using htenant
    simp only [tenantService, hdispatch, if_true]
    exact virtualRuntimeDelta_mono hle _

private theorem classService_le (hsound : QueuesSound ctl sys.state) {c : ServiceClassPolicy}
    (hc : ctl.classes[c.id]? = some c) :
    classService ctl sys label c ≤ virtualRuntimeDelta c.maxActiveTokens c.weight := by
  by_cases h : classService ctl sys label c = 0
  · omega
  · obtain ⟨t, q, hdispatch⟩ := classService_ne_zero h
    obtain ⟨_, serviceClass, -, -, hclass, -, hle, -⟩ := dispatch_fitting hsound hdispatch
    obtain rfl : c = serviceClass := by simpa [hc] using hclass
    simp only [classService, hdispatch, if_true]
    exact virtualRuntimeDelta_mono hle _

end Limits

/-- In an interval that serves two accounts, their distance is at most the larger of its
value at the start and the largest single charge. So the two totals differ by a bounded
amount, and no charge exceeds the limit.

The totals are sums of `virtualRuntimeDelta`, that is of charges in millionths of a token per
weight, each rounded down but at least one. How far a charge is from the tokens that it stands
for is said by `dist_virtualRuntimeDelta_le`. -/
structure FairInterval (v w : System → ℕ) (limit : ℕ) (sys : System) (largest a b : ℕ)
    (sys' : System) : Prop where
  runtime : Nat.dist (v sys') (w sys') ≤ max (Nat.dist (v sys) (w sys)) largest
  service : Nat.dist a b ≤ Nat.dist (v sys) (w sys) + max (Nat.dist (v sys) (w sys)) largest
  charge : largest ≤ limit

private theorem fairInterval_of_serviceRun {R : System → ℕ → ℕ → System → Prop} {v w : System → ℕ}
    {limit largest a b : ℕ}
    (hstep : ∀ s x y t, QueuesSound ctl s.state → R s x y t →
      QueuesSound ctl t.state ∧ ServesLeast v w s x y t ∧ x ≤ limit ∧ y ≤ limit)
    (hsound : QueuesSound ctl sys.state) (hrun : ServiceRun R sys largest a b sys') :
    FairInterval v w limit sys largest a b sys' := by
  obtain ⟨-, hdist, hv, hw⟩ := hrun.bounded (fun sys => QueuesSound ctl sys.state)
    (fun s x y t hs hR => ⟨(hstep s x y t hs hR).1, (hstep s x y t hs hR).2.1⟩) hsound
  obtain ⟨-, hlargest⟩ := hrun.largest_le (fun sys => QueuesSound ctl sys.state)
    (fun s x y t hs hR => ⟨(hstep s x y t hs hR).1, (hstep s x y t hs hR).2.2⟩) hsound
  exact ⟨hdist, dist_served_le hv hw hdist, hlargest⟩

/-- Every interval of every run is fair to two tenants of a class that stay queued and
eligible in it, and to two classes that do. -/
theorem fair_intervals {labels : List Label} (hreach : Reaches ctl labels sys) :
    (∀ (i j : TenantPolicy) largest a b sys', ctl.tenants[i.id]? = some i →
      ctl.tenants[j.id]? = some j → i.id ≠ j.id → i.serviceClass = j.serviceClass →
      ServiceRun (fun s x y t => ∃ label, TenantStep ctl i j label s x y t) sys largest a b sys' →
      FairInterval (tenantRuntime i) (tenantRuntime j)
        (max (virtualRuntimeDelta i.maxActiveTokens i.weight)
          (virtualRuntimeDelta j.maxActiveTokens j.weight)) sys largest a b sys') ∧
    ∀ (c d : ServiceClassPolicy) largest a b sys', ctl.classes[c.id]? = some c →
      ctl.classes[d.id]? = some d → c.id ≠ d.id →
      ServiceRun (fun s x y t => ∃ label, ClassStep ctl c d label s x y t) sys largest a b sys' →
      FairInterval (classRuntime c) (classRuntime d)
        (max (virtualRuntimeDelta c.maxActiveTokens c.weight)
          (virtualRuntimeDelta d.maxActiveTokens d.weight)) sys largest a b sys' := by
  have hsound := queuesSound_of_reaches hreach
  refine ⟨fun i j largest a b sys' hi hj hne hclass hrun => ?_,
    fun c d largest a b sys' hc hd hne hrun => ?_⟩
  · refine fairInterval_of_serviceRun (fun s x y t hs hR => ?_) hsound hrun
    obtain ⟨label, hlabel⟩ := hR
    refine ⟨hs.step hlabel.step_eq, hlabel.servesLeast hs hi hj hne hclass, ?_, ?_⟩
    · rw [hlabel.first_eq]
      exact (tenantService_le hs hi).trans (le_max_left _ _)
    · rw [hlabel.second_eq]
      exact (tenantService_le hs hj).trans (le_max_right _ _)
  · refine fairInterval_of_serviceRun (fun s x y t hs hR => ?_) hsound hrun
    obtain ⟨label, hlabel⟩ := hR
    refine ⟨hs.step hlabel.step_eq, hlabel.servesLeast hs hc hd hne, ?_, ?_⟩
    · rw [hlabel.first_eq]
      exact (classService_le hs hc).trans (le_max_left _ _)
    · rw [hlabel.second_eq]
      exact (classService_le hs hd).trans (le_max_right _ _)

section Shared

/-- A class for four requests and a hundred tokens. -/
def sharedClass (id : String) (weight : UInt32) : ServiceClassPolicy where
  id := id
  weight := weight
  maxActiveRequests := 4
  maxActiveTokens := 100
  shedAtGlobalUtilizationBps := none

/-- A tenant that may use all of its class. -/
def sharedTenant (id serviceClass : String) (weight : UInt32) : TenantPolicy where
  id := id
  serviceClass := serviceClass
  weight := weight
  maxActiveRequests := 4
  maxActiveTokens := 100
  maxQueuedRequests := 8
  maxTokensPerRequest := 100
  defaultRequestTimeout := 1000000000
  maxRequestTimeout := 1000000000

/-- Two tenants share one class, a third has another class of twice the weight. -/
def shared : TrafficController where
  policy := {
    maxActiveRequests := 4, maxActiveTokens := 100, maxQueuedRequests := 8,
    defaultOutputTokens := 10
    classes := [sharedClass "batch" 1, sharedClass "interactive" 2]
    tenants := [sharedTenant "a" "batch" 1, sharedTenant "b" "batch" 2,
      sharedTenant "c" "interactive" 1] }
  accepted := by decide

/-- All tenants queue up behind a request that takes every token, and it is released. -/
def queueUp : List Label :=
  [.admitRequest (some "a") 100 0 0, .schedule 0, .unlock, .admitRequest (some "a") 10 0 0, .unlock,
    .admitRequest (some "a") 10 0 0, .unlock, .admitRequest (some "b") 10 0 0, .unlock,
    .admitRequest (some "b") 10 0 0, .unlock, .admitRequest (some "c") 10 0 0, .unlock,
    .admitRequest (some "c") 10 0 0, .unlock, .admitRequest (some "c") 10 0 0, .unlock,
    .dropReceiver 0, .release 0]

/-- Execute a step if it belongs to an interval of two tenants. -/
private def tenantServe (ctl : TrafficController) (i j : TenantPolicy) (sys : System)
    (label : Label) : Option (ℕ × ℕ × System) :=
  if (sys.state.queue i.serviceClass i.id ≠ [] ∧ sys.state.queue j.serviceClass j.id ≠ []) ∧
      (∀ d ∈ dispatch ctl sys label, d.1 = i.serviceClass →
        Candidate ctl sys.state i.serviceClass i.id ∧
        Candidate ctl sys.state j.serviceClass j.id) ∧
      count sys.state.tenantVruntime i.id + tenantService ctl sys label i ≤ u128Max ∧
      count sys.state.tenantVruntime j.id + tenantService ctl sys label j ≤ u128Max then
    (step ctl sys label).map fun sys' =>
      (tenantService ctl sys label i, tenantService ctl sys label j, sys')
  else none

private theorem tenantStep_of_tenantServe {i j : TenantPolicy} {x y : ℕ}
    (h : tenantServe ctl i j sys label = some (x, y, sys')) :
    TenantStep ctl i j label sys x y sys' := by
  unfold tenantServe at h
  split_ifs at h with hready
  obtain ⟨sys'', hstep, heq⟩ := Option.map_eq_some_iff.mp h
  simp only [Prod.mk.injEq] at heq
  obtain ⟨rfl, rfl, rfl⟩ := heq
  exact ⟨hstep, hready.1, hready.2.1, hready.2.2, rfl, rfl⟩

/-- Execute a step if it belongs to an interval of two classes that offer the given tenants. -/
private def classServe (ctl : TrafficController) (c d : ServiceClassPolicy) (t t' : String)
    (sys : System) (label : Label) : Option (ℕ × ℕ × System) :=
  if (classHasWaiting sys.state c.id = true ∧ classHasWaiting sys.state d.id = true) ∧
      (Candidate ctl sys.state c.id t ∧ Candidate ctl sys.state d.id t') ∧
      count sys.state.classVruntime c.id + classService ctl sys label c ≤ u128Max ∧
      count sys.state.classVruntime d.id + classService ctl sys label d ≤ u128Max then
    (step ctl sys label).map fun sys' =>
      (classService ctl sys label c, classService ctl sys label d, sys')
  else none

private theorem classStep_of_classServe {c d : ServiceClassPolicy} {t t' : String} {x y : ℕ}
    (h : classServe ctl c d t t' sys label = some (x, y, sys')) :
    ClassStep ctl c d label sys x y sys' := by
  unfold classServe at h
  split_ifs at h with hready
  obtain ⟨sys'', hstep, heq⟩ := Option.map_eq_some_iff.mp h
  simp only [Prod.mk.injEq] at heq
  obtain ⟨rfl, rfl, rfl⟩ := heq
  exact ⟨hstep, hready.1, fun _ => ⟨⟨t, hready.2.1.1⟩, t', hready.2.1.2⟩, hready.2.2, rfl, rfl⟩

/-- Four dispatches to the three tenants: the tenant and the class of twice the weight are
charged half as much as the other. -/
theorem fair_intervals_shared : ∃ sys tenantsEnd classesEnd, Reaches shared queueUp sys ∧
    FairInterval (tenantRuntime (sharedTenant "a" "batch" 1))
      (tenantRuntime (sharedTenant "b" "batch" 2)) 100000000 sys
      10000000 10000000 5000000 tenantsEnd ∧
    FairInterval (classRuntime (sharedClass "batch" 1)) (classRuntime (sharedClass "interactive" 2))
      100000000 sys 10000000 20000000 10000000 classesEnd := by
  have h : ((queueUp.foldlM (step shared) {}).bind fun sys =>
      (List.foldlM (serve (tenantServe shared (sharedTenant "a" "batch" 1)
          (sharedTenant "b" "batch" 2))) (0, 0, 0, sys)
        [.schedule 0, .schedule 0, .schedule 0, .schedule 0]).bind fun r =>
      (List.foldlM (serve (classServe shared (sharedClass "batch" 1)
          (sharedClass "interactive" 2) "a" "c")) (0, 0, 0, sys)
        [.schedule 0, .schedule 0, .schedule 0, .schedule 0]).map fun r' =>
      ((r.1, r.2.1, r.2.2.1), r'.1, r'.2.1, r'.2.2.1)) =
      some ((10000000, 10000000, 5000000), 10000000, 20000000, 10000000) := by decide
  obtain ⟨sys, hrun, h⟩ := Option.bind_eq_some_iff.mp h
  obtain ⟨⟨_, _, _, tenantsEnd⟩, htenants, h⟩ := Option.bind_eq_some_iff.mp h
  obtain ⟨⟨_, _, _, classesEnd⟩, hclasses, heq⟩ := Option.map_eq_some_iff.mp h
  simp only [Prod.mk.injEq] at heq
  obtain ⟨⟨rfl, rfl, rfl⟩, rfl, rfl, rfl⟩ := heq
  have hreach : Reaches shared queueUp sys := Run.of_foldlM hrun
  have htenants := ServiceRun.of_foldlM (R := fun s x y t => ∃ label, TenantStep shared
      (sharedTenant "a" "batch" 1) (sharedTenant "b" "batch" 2) label s x y t)
    (fun s l x y t h => ⟨l, tenantStep_of_tenantServe h⟩) (.nil sys) htenants
  have hclasses := ServiceRun.of_foldlM (R := fun s x y t => ∃ label, ClassStep shared
      (sharedClass "batch" 1) (sharedClass "interactive" 2) label s x y t)
    (fun s l x y t h => ⟨l, classStep_of_classServe h⟩) (.nil sys) hclasses
  obtain ⟨hfairTenants, hfairClasses⟩ := fair_intervals hreach
  exact ⟨sys, tenantsEnd, classesEnd, hreach,
    hfairTenants _ _ _ _ _ _ (by decide) (by decide) (by decide) rfl htenants,
    hfairClasses _ _ _ _ _ _ (by decide) (by decide) (by decide) hclasses⟩

end Shared

end Locus.Traffic
