import Locus.Lib.Least
import Locus.Traffic.SectionSpecs

/-!
# The candidate that is scheduled next

`choose_candidate` looks at the head of every queue. When all queues belong to
configured classes and tenants it returns a head that fits, of a class with least
virtual runtime among the classes that offer one and of a tenant with least virtual
runtime inside that class, and it returns nothing only when no head fits.
-/

namespace Locus.Traffic

open Std (TreeMap)
open Locus.Lib

/-- A queue head that may be scheduled: its class has room and it fits the limits. -/
structure IsCandidate (ctl : TrafficController) (s : TrafficState) (c t : String)
    (serviceClass : ServiceClassPolicy) (tenant : TenantPolicy) (head : QueuedRequest) : Prop where
  class_eq : ctl.classes[c]? = some serviceClass
  tenant_eq : ctl.tenants[t]? = some tenant
  head_eq : (queueOf s.waiting c t).head? = some head
  class_room : count s.classActiveRequests.map c < serviceClass.maxActiveRequests
  fits : headFits ctl s serviceClass c tenant t head = true

/-- Some head of the tenant's queue in the class may be scheduled. -/
def Candidate (ctl : TrafficController) (s : TrafficState) (c t : String) : Prop :=
  ∃ serviceClass tenant head, IsCandidate ctl s c t serviceClass tenant head

instance (ctl : TrafficController) (s : TrafficState) (c t : String) :
    Decidable (Candidate ctl s c t) :=
  match hc : ctl.classes[c]?, ht : ctl.tenants[t]?, hq : (queueOf s.waiting c t).head? with
  | some serviceClass, some tenant, some head =>
    if h : count s.classActiveRequests.map c < serviceClass.maxActiveRequests ∧
        headFits ctl s serviceClass c tenant t head = true then
      isTrue ⟨serviceClass, tenant, head, hc, ht, hq, h.1, h.2⟩
    else
      isFalse fun ⟨_, _, _, h'⟩ => h (by
        cases hc.symm.trans h'.class_eq
        cases ht.symm.trans h'.tenant_eq
        cases hq.symm.trans h'.head_eq
        exact ⟨h'.class_room, h'.fits⟩)
  | none, _, _ => isFalse fun ⟨_, _, _, h⟩ => by cases hc.symm.trans h.class_eq
  | _, none, _ => isFalse fun ⟨_, _, _, h⟩ => by cases ht.symm.trans h.tenant_eq
  | _, _, none => isFalse fun ⟨_, _, _, h⟩ => by cases hq.symm.trans h.head_eq

/-- Every queue belongs to a configured class and, unless empty, to a configured tenant. -/
structure QueuesKnown (ctl : TrafficController) (w : Waiting) : Prop where
  classes : ∀ c : String, w[c]?.isSome → (ctl.classes[c]?).isSome
  tenants : ∀ c t : String, queueOf w c t ≠ [] → (ctl.tenants[t]?).isSome

variable {ctl : TrafficController} {s : TrafficState}

/-- The fitting head of a tenant's queue in the list of a class's queues. -/
private def HeadIn (ctl : TrafficController) (s : TrafficState) (serviceClass : ServiceClassPolicy)
    (c : String) (l : List (String × List QueuedRequest)) (t : String) : Prop :=
  ∃ queue head tenant, (t, queue) ∈ l ∧ queue.head? = some head ∧
    ctl.tenants[t]? = some tenant ∧ headFits ctl s serviceClass c tenant t head = true

private theorem headIn_cons_iff {serviceClass : ServiceClassPolicy} {c t t₀ : String}
    {queue : List QueuedRequest} {rest : List (String × List QueuedRequest)} :
    HeadIn ctl s serviceClass c ((t₀, queue) :: rest) t ↔
      HeadIn ctl s serviceClass c [(t₀, queue)] t ∨ HeadIn ctl s serviceClass c rest t := by
  constructor
  · rintro ⟨queue', head, tenant, hin, h⟩
    rcases List.mem_cons.mp hin with heq | hin
    · exact .inl ⟨queue', head, tenant, by simp [heq], h⟩
    · exact .inr ⟨queue', head, tenant, hin, h⟩
  · rintro (⟨queue', head, tenant, hin, h⟩ | ⟨queue', head, tenant, hin, h⟩)
    · exact ⟨queue', head, tenant, List.mem_cons.mpr (.inl (List.mem_singleton.mp hin)), h⟩
    · exact ⟨queue', head, tenant, List.mem_cons_of_mem _ hin, h⟩

private theorem not_headIn_singleton {serviceClass : ServiceClassPolicy} {c t t₀ : String}
    {queue : List QueuedRequest} (hhead : queue.head? = none) :
    ¬HeadIn ctl s serviceClass c [(t₀, queue)] t := by
  rintro ⟨queue', head, tenant, hin, hhead', -⟩
  cases List.mem_singleton.mp hin
  simp [hhead] at hhead'

private theorem headIn_singleton_iff {serviceClass : ServiceClassPolicy} {c t t₀ : String}
    {queue : List QueuedRequest} {head : QueuedRequest} {tenant : TenantPolicy}
    (hhead : queue.head? = some head) (htenant : ctl.tenants[t₀]? = some tenant) :
    HeadIn ctl s serviceClass c [(t₀, queue)] t ↔
      t = t₀ ∧ headFits ctl s serviceClass c tenant t₀ head = true := by
  constructor
  · rintro ⟨queue', head', tenant', hin, hhead', htenant', hfits⟩
    cases List.mem_singleton.mp hin
    obtain rfl : head = head' := by simpa [hhead] using hhead'
    obtain rfl : tenant = tenant' := by simpa [htenant] using htenant'
    exact ⟨rfl, hfits⟩
  · rintro ⟨rfl, hfits⟩
    exact ⟨queue, head, tenant, by simp, hhead, htenant, hfits⟩

private theorem tenantCandidates_spec (s : TrafficState) (serviceClass : ServiceClassPolicy)
    (c : String) {l : List (String × List QueuedRequest)}
    (hknown : ∀ t queue, (t, queue) ∈ l → queue ≠ [] → (ctl.tenants[t]?).isSome) :
    ∃ candidates, tenantCandidates ctl s serviceClass c l = some candidates ∧
      ∀ x, x ∈ candidates ↔
        ∃ t, HeadIn ctl s serviceClass c l t ∧ x = toLex (count s.tenantVruntime t, t) := by
  induction l with
  | nil => exact ⟨[], rfl, by simp [HeadIn]⟩
  | cons entry rest ih =>
    obtain ⟨t, queue⟩ := entry
    obtain ⟨others, hothers, hmem⟩ := ih fun t' queue' h => hknown t' queue' (by simp [h])
    cases hhead : queue.head? with
    | none =>
      refine ⟨others, by simp [tenantCandidates, hhead, hothers], fun x => ?_⟩
      simp only [hmem, headIn_cons_iff, not_headIn_singleton hhead, false_or]
    | some head =>
      have hne : queue ≠ [] := by
        rintro rfl
        simp at hhead
      obtain ⟨tenant, htenant⟩ := Option.isSome_iff_exists.mp (hknown t queue (by simp) hne)
      by_cases hfits : headFits ctl s serviceClass c tenant t head = true
      · refine ⟨toLex (count s.tenantVruntime t, t) :: others,
          by simp [tenantCandidates, hhead, htenant, hothers, hfits], fun x => ?_⟩
        rw [List.mem_cons, hmem]
        simp only [headIn_cons_iff, headIn_singleton_iff hhead htenant, hfits, and_true,
          or_and_right, exists_or, exists_eq_left]
      · refine ⟨others, by simp [tenantCandidates, hhead, htenant, hothers, hfits], fun x => ?_⟩
        simp only [hmem, headIn_cons_iff, headIn_singleton_iff hhead htenant, hfits,
          Bool.false_eq_true, and_false, false_or]

/-- A tenant of a class whose head fits. -/
private def Offers (ctl : TrafficController) (s : TrafficState) (c : String)
    (serviceClass : ServiceClassPolicy) (tenants : TreeMap String (List QueuedRequest))
    (t : String) : Prop :=
  ∃ queue head tenant, tenants[t]? = some queue ∧ queue.head? = some head ∧
    ctl.tenants[t]? = some tenant ∧ headFits ctl s serviceClass c tenant t head = true

private theorem leastTenant_spec (s : TrafficState) (serviceClass : ServiceClassPolicy)
    (c : String) {tenants : TreeMap String (List QueuedRequest)}
    (hknown : ∀ (t : String) queue, tenants[t]? = some queue → queue ≠ [] →
      (ctl.tenants[t]?).isSome) :
    ∃ candidates, tenantCandidates ctl s serviceClass c tenants.toList = some candidates ∧
      ((candidates.insertionSort (· ≤ ·)).head? = none →
        ∀ t, ¬Offers ctl s c serviceClass tenants t) ∧
      ∀ m, (candidates.insertionSort (· ≤ ·)).head? = some m →
        Offers ctl s c serviceClass tenants (ofLex m).2 ∧
        ∀ t, Offers ctl s c serviceClass tenants t →
          toLex (count s.tenantVruntime (ofLex m).2, (ofLex m).2) ≤
            toLex (count s.tenantVruntime t, t) := by
  obtain ⟨candidates, heq, hmem⟩ := tenantCandidates_spec s serviceClass c
    fun t queue (h : (t, queue) ∈ tenants.toList) =>
      hknown t queue (TreeMap.mem_toList_iff_getElem?_eq_some.mp h)
  have hoffers : ∀ t, Offers ctl s c serviceClass tenants t →
      toLex (count s.tenantVruntime t, t) ∈ candidates := by
    rintro t ⟨queue, head, tenant, hqueue, h⟩
    exact (hmem _).mpr ⟨t, ⟨queue, head, tenant,
      TreeMap.mem_toList_iff_getElem?_eq_some.mpr hqueue, h⟩, rfl⟩
  refine ⟨candidates, heq, fun hnone t ht => ?_, fun m hm => ?_⟩
  · rw [head?_insertionSort_eq_none] at hnone
    simpa [hnone] using hoffers t ht
  · obtain ⟨hin, hleast⟩ := head?_insertionSort_eq_some hm
    obtain ⟨t, ⟨queue, head, tenant, hqueue, hhead, htenant, hfits⟩, rfl⟩ := (hmem m).mp hin
    exact ⟨⟨queue, head, tenant, TreeMap.mem_toList_iff_getElem?_eq_some.mp hqueue, hhead,
      htenant, hfits⟩, fun t' ht' => hleast _ (hoffers t' ht')⟩

/-- A class with room that offers a tenant. -/
private def OffersIn (ctl : TrafficController) (s : TrafficState)
    (l : List (String × TreeMap String (List QueuedRequest))) (c t : String) : Prop :=
  ∃ tenants serviceClass, (c, tenants) ∈ l ∧ ctl.classes[c]? = some serviceClass ∧
    count s.classActiveRequests.map c < serviceClass.maxActiveRequests ∧
    Offers ctl s c serviceClass tenants t

private theorem offersIn_cons_iff {c c₀ t : String}
    {tenants : TreeMap String (List QueuedRequest)}
    {rest : List (String × TreeMap String (List QueuedRequest))} :
    OffersIn ctl s ((c₀, tenants) :: rest) c t ↔
      OffersIn ctl s [(c₀, tenants)] c t ∨ OffersIn ctl s rest c t := by
  constructor
  · rintro ⟨tenants', serviceClass, hin, h⟩
    rcases List.mem_cons.mp hin with heq | hin
    · exact .inl ⟨tenants', serviceClass, by simp [heq], h⟩
    · exact .inr ⟨tenants', serviceClass, hin, h⟩
  · rintro (⟨tenants', serviceClass, hin, h⟩ | ⟨tenants', serviceClass, hin, h⟩)
    · exact ⟨tenants', serviceClass, List.mem_cons.mpr (.inl (List.mem_singleton.mp hin)), h⟩
    · exact ⟨tenants', serviceClass, List.mem_cons_of_mem _ hin, h⟩

private theorem offersIn_singleton_iff {c c₀ t : String} {serviceClass : ServiceClassPolicy}
    {tenants : TreeMap String (List QueuedRequest)}
    (hclass : ctl.classes[c₀]? = some serviceClass) :
    OffersIn ctl s [(c₀, tenants)] c t ↔ c = c₀ ∧
      count s.classActiveRequests.map c₀ < serviceClass.maxActiveRequests ∧
      Offers ctl s c₀ serviceClass tenants t := by
  constructor
  · rintro ⟨tenants', serviceClass', hin, hclass', h⟩
    cases List.mem_singleton.mp hin
    obtain rfl : serviceClass = serviceClass' := by simpa [hclass] using hclass'
    exact ⟨rfl, h⟩
  · rintro ⟨rfl, h⟩
    exact ⟨tenants, serviceClass, by simp, hclass, h⟩

/-- What the outer loop returns for a list of classes: each entry is a class with its
least tenant, and every class that offers a tenant has an entry. -/
private structure ListsOffers (ctl : TrafficController) (s : TrafficState)
    (l : List (String × TreeMap String (List QueuedRequest)))
    (candidates : List (ℕ ×ₗ String ×ₗ String)) : Prop where
  sound : ∀ x ∈ candidates, ∃ c t, x = toLex (count s.classVruntime c, toLex (c, t)) ∧
    OffersIn ctl s l c t ∧ ∀ t', OffersIn ctl s l c t' →
      toLex (count s.tenantVruntime t, t) ≤ toLex (count s.tenantVruntime t', t')
  complete : ∀ c t, OffersIn ctl s l c t →
    ∃ t', toLex (count s.classVruntime c, toLex (c, t')) ∈ candidates

/-- Candidates of two lists that share no class are those of the lists together. -/
private theorem ListsOffers.append
    {l front rest : List (String × TreeMap String (List QueuedRequest))}
    {first others : List (ℕ ×ₗ String ×ₗ String)}
    (hl : ∀ c t, OffersIn ctl s l c t ↔ OffersIn ctl s front c t ∨ OffersIn ctl s rest c t)
    (hdisjoint : ∀ c t t', OffersIn ctl s front c t → ¬OffersIn ctl s rest c t')
    (hfirst : ListsOffers ctl s front first) (hothers : ListsOffers ctl s rest others) :
    ListsOffers ctl s l (first ++ others) where
  sound := by
    intro x hx
    rcases List.mem_append.mp hx with hx | hx
    · obtain ⟨c, t, rfl, hin, hleast⟩ := hfirst.sound x hx
      refine ⟨c, t, rfl, (hl c t).mpr (.inl hin), fun t' ht' => ?_⟩
      rcases (hl c t').mp ht' with ht' | ht'
      · exact hleast t' ht'
      · exact absurd ht' (hdisjoint c t t' hin)
    · obtain ⟨c, t, rfl, hin, hleast⟩ := hothers.sound x hx
      refine ⟨c, t, rfl, (hl c t).mpr (.inr hin), fun t' ht' => ?_⟩
      rcases (hl c t').mp ht' with ht' | ht'
      · exact absurd hin (hdisjoint c t' t ht')
      · exact hleast t' ht'
  complete := by
    intro c t hin
    rcases (hl c t).mp hin with hin | hin
    · obtain ⟨t', ht'⟩ := hfirst.complete c t hin
      exact ⟨t', List.mem_append_left _ ht'⟩
    · obtain ⟨t', ht'⟩ := hothers.complete c t hin
      exact ⟨t', List.mem_append_right _ ht'⟩

private theorem ListsOffers.nil {l : List (String × TreeMap String (List QueuedRequest))}
    (h : ∀ c t, ¬OffersIn ctl s l c t) : ListsOffers ctl s l [] where
  sound := by simp
  complete := fun c t hin => absurd hin (h c t)

/-- The least tenant of a class with room is the class's only candidate. -/
private theorem ListsOffers.singleton {c t : String} {serviceClass : ServiceClassPolicy}
    {tenants : TreeMap String (List QueuedRequest)}
    (hclass : ctl.classes[c]? = some serviceClass)
    (hroom : count s.classActiveRequests.map c < serviceClass.maxActiveRequests)
    (hoffer : Offers ctl s c serviceClass tenants t)
    (hleast : ∀ t', Offers ctl s c serviceClass tenants t' →
      toLex (count s.tenantVruntime t, t) ≤ toLex (count s.tenantVruntime t', t')) :
    ListsOffers ctl s [(c, tenants)] [toLex (count s.classVruntime c, toLex (c, t))] where
  sound := by
    intro x hx
    obtain rfl := List.mem_singleton.mp hx
    refine ⟨c, t, rfl, (offersIn_singleton_iff hclass).mpr ⟨rfl, hroom, hoffer⟩, fun t' ht' => ?_⟩
    exact hleast t' ((offersIn_singleton_iff hclass).mp ht').2.2
  complete := by
    intro c' t' hin
    obtain ⟨rfl, -, -⟩ := (offersIn_singleton_iff hclass).mp hin
    exact ⟨t, by simp⟩

private theorem classCandidates_spec {l : List (String × TreeMap String (List QueuedRequest))}
    (hclasses : ∀ c tenants, (c, tenants) ∈ l → (ctl.classes[c]?).isSome)
    (htenants : ∀ (c : String) tenants (t : String) queue, (c, tenants) ∈ l →
      tenants[t]? = some queue → queue ≠ [] → (ctl.tenants[t]?).isSome)
    (hdistinct : (l.map Prod.fst).Nodup) :
    ∃ candidates, classCandidates ctl s l = some candidates ∧ ListsOffers ctl s l candidates := by
  induction l with
  | nil => exact ⟨[], rfl, .nil (by rintro c t ⟨_, _, h, _⟩; simp at h)⟩
  | cons entry rest ih =>
    obtain ⟨c, tenants⟩ := entry
    rw [List.map_cons, List.nodup_cons] at hdistinct
    obtain ⟨others, hothers, hrest⟩ := ih
      (fun c' tenants' h => hclasses c' tenants' (by simp [h]))
      (fun c' tenants' t queue h => htenants c' tenants' t queue (by simp [h])) hdistinct.2
    obtain ⟨serviceClass, hclass⟩ := Option.isSome_iff_exists.mp (hclasses c tenants (by simp))
    obtain ⟨candidates, hcandidates, hnone, hsome⟩ := leastTenant_spec s serviceClass c
      fun t queue => htenants c tenants t queue (by simp)
    -- The class at the front is not repeated further down, so its tenants are its own.
    have hdisjoint : ∀ c' t t', OffersIn ctl s [(c, tenants)] c' t →
        ¬OffersIn ctl s rest c' t' := by
      rintro c' t t' hfront ⟨tenants', sc, hin, -⟩
      obtain ⟨rfl, -, -⟩ := (offersIn_singleton_iff hclass).mp hfront
      exact hdistinct.1 (List.mem_map.mpr ⟨_, hin, rfl⟩)
    have hcons := fun first (hfirst : ListsOffers ctl s [(c, tenants)] first) =>
      hfirst.append (fun _ _ => offersIn_cons_iff) hdisjoint hrest
    by_cases hroom : serviceClass.maxActiveRequests ≤ count s.classActiveRequests.map c
    · refine ⟨others, by simp [classCandidates, hclass, hroom, hothers], hcons [] (.nil ?_)⟩
      intro c' t hin
      exact absurd hroom (UInt64.not_le.mpr ((offersIn_singleton_iff hclass).mp hin).2.1)
    · cases hleast : (candidates.insertionSort (· ≤ ·)).head? with
      | none =>
        refine ⟨others, by simp [classCandidates, hclass, hroom, hcandidates, hothers, hleast],
          hcons [] (.nil ?_)⟩
        intro c' t hin
        exact hnone hleast t ((offersIn_singleton_iff hclass).mp hin).2.2
      | some m =>
        obtain ⟨hoffer, hmin⟩ := hsome m hleast
        exact ⟨_, by simp [classCandidates, hclass, hroom, hcandidates, hothers, hleast],
          hcons _ (.singleton hclass (UInt64.not_le.mp hroom) hoffer hmin)⟩

private theorem offersIn_iff {c t : String} :
    OffersIn ctl s s.waiting.toList c t ↔ Candidate ctl s c t := by
  constructor
  · rintro ⟨tenants, serviceClass, hin, hclass, hroom, queue, head, tenant, hqueue, hhead, htenant,
      hfits⟩
    have hc := TreeMap.mem_toList_iff_getElem?_eq_some.mp hin
    exact ⟨serviceClass, tenant, head, hclass, htenant, by simp [queueOf, hc, hqueue, hhead],
      hroom, hfits⟩
  · rintro ⟨serviceClass, tenant, head, hclass, htenant, hhead, hroom, hfits⟩
    unfold queueOf at hhead
    cases hc : s.waiting[c]? with
    | none => simp [hc] at hhead
    | some tenants =>
      cases ht : tenants[t]? with
      | none => simp [hc, ht] at hhead
      | some queue =>
        exact ⟨tenants, serviceClass, TreeMap.mem_toList_iff_getElem?_eq_some.mpr hc, hclass, hroom,
          queue, head, tenant, ht, by simpa [hc, ht] using hhead, htenant, hfits⟩

private theorem classCandidates_waiting (hknown : QueuesKnown ctl s.waiting) :
    ∃ candidates, classCandidates ctl s s.waiting.toList = some candidates ∧
      (∀ x ∈ candidates, ∃ c t, x = toLex (count s.classVruntime c, toLex (c, t)) ∧
        Candidate ctl s c t ∧ ∀ t', Candidate ctl s c t' →
          toLex (count s.tenantVruntime t, t) ≤ toLex (count s.tenantVruntime t', t')) ∧
      ∀ c t, Candidate ctl s c t →
        ∃ t', toLex (count s.classVruntime c, toLex (c, t')) ∈ candidates := by
  simp only [← offersIn_iff]
  suffices h : ∃ candidates, classCandidates ctl s s.waiting.toList = some candidates ∧
      ListsOffers ctl s s.waiting.toList candidates by
    obtain ⟨candidates, heq, hlists⟩ := h
    exact ⟨candidates, heq, hlists.sound, hlists.complete⟩
  refine classCandidates_spec (fun c tenants h => ?_) (fun c tenants t queue h hqueue hne => ?_) ?_
  · exact hknown.classes c (by simp [TreeMap.mem_toList_iff_getElem?_eq_some.mp h])
  · refine hknown.tenants c t ?_
    simpa [queueOf, TreeMap.mem_toList_iff_getElem?_eq_some.mp h, hqueue] using hne
  · rw [TreeMap.map_fst_toList_eq_keys]
    exact TreeMap.nodup_keys

/-- Nothing is chosen only when no head fits. -/
theorem not_candidate_of_chooseCandidate_eq_none (hknown : QueuesKnown ctl s.waiting)
    (h : chooseCandidate ctl s = none) (c t : String) : ¬Candidate ctl s c t := by
  intro hcandidate
  obtain ⟨candidates, heq, -, hcomplete⟩ := classCandidates_waiting hknown
  obtain ⟨t', hin⟩ := hcomplete c t hcandidate
  simp only [chooseCandidate, heq, Option.bind_eq_bind, Option.bind_some, Option.map_eq_none_iff,
    head?_insertionSort_eq_none] at h
  simp [h] at hin

/-- The chosen tenant has least virtual runtime in its class, and the class least
virtual runtime among those with a candidate; ties go to the smaller id. -/
theorem chooseCandidate_spec (hknown : QueuesKnown ctl s.waiting) {c t : String}
    (h : chooseCandidate ctl s = some (c, t)) :
    Candidate ctl s c t ∧
    (∀ t', Candidate ctl s c t' →
      toLex (count s.tenantVruntime t, t) ≤ toLex (count s.tenantVruntime t', t')) ∧
    ∀ c' t', Candidate ctl s c' t' →
      toLex (count s.classVruntime c, c) ≤ toLex (count s.classVruntime c', c') := by
  obtain ⟨candidates, heq, hsound, hcomplete⟩ := classCandidates_waiting hknown
  simp only [chooseCandidate, heq, Option.bind_eq_bind, Option.bind_some,
    Option.map_eq_some_iff] at h
  obtain ⟨m, hm, hct⟩ := h
  obtain ⟨hin, hleast⟩ := head?_insertionSort_eq_some hm
  obtain ⟨c₀, t₀, rfl, hcandidate, hmin⟩ := hsound m hin
  obtain ⟨rfl, rfl⟩ : c₀ = c ∧ t₀ = t := by simpa using hct
  refine ⟨hcandidate, hmin, fun c' t' hcandidate' => ?_⟩
  obtain ⟨t'', hin'⟩ := hcomplete c' t' hcandidate'
  have hle := hleast _ hin'
  simp only [Prod.Lex.toLex_le_toLex] at hle ⊢
  grind

/-- The choice depends on the candidates and on the virtual runtimes only. -/
theorem chooseCandidate_congr {g : TrafficState} (hs : QueuesKnown ctl s.waiting)
    (hg : QueuesKnown ctl g.waiting)
    (hcandidate : ∀ c t, Candidate ctl s c t ↔ Candidate ctl g c t)
    (hclass : ∀ c, count s.classVruntime c = count g.classVruntime c)
    (htenant : ∀ t, count s.tenantVruntime t = count g.tenantVruntime t) :
    chooseCandidate ctl s = chooseCandidate ctl g := by
  cases hchosen : chooseCandidate ctl s with
  | none =>
    cases hother : chooseCandidate ctl g with
    | none => rfl
    | some ct =>
      obtain ⟨c, t⟩ := ct
      have hin := (hcandidate c t).mpr (chooseCandidate_spec hg hother).1
      exact absurd hin (not_candidate_of_chooseCandidate_eq_none hs hchosen c t)
  | some ct =>
    obtain ⟨c, t⟩ := ct
    obtain ⟨hin, htenantLe, hclassLe⟩ := chooseCandidate_spec hs hchosen
    cases hother : chooseCandidate ctl g with
    | none =>
      exact absurd ((hcandidate c t).mp hin)
        (not_candidate_of_chooseCandidate_eq_none hg hother c t)
    | some ct' =>
      obtain ⟨c', t'⟩ := ct'
      obtain ⟨hin', htenantLe', hclassLe'⟩ := chooseCandidate_spec hg hother
      have hle := hclassLe c' t' ((hcandidate c' t').mpr hin')
      have hge := hclassLe' c t ((hcandidate c t).mp hin)
      simp only [← hclass] at hge
      have hc : toLex (count s.classVruntime c, c) = toLex (count s.classVruntime c', c') :=
        le_antisymm hle hge
      obtain rfl : c = c' := congrArg (fun x => (ofLex x).2) hc
      have hle := htenantLe t' ((hcandidate c t').mpr hin')
      have hge := htenantLe' t ((hcandidate c t).mp hin)
      simp only [← htenant] at hge
      have ht : toLex (count s.tenantVruntime t, t) = toLex (count s.tenantVruntime t', t') :=
        le_antisymm hle hge
      obtain rfl : t = t' := congrArg (fun x => (ofLex x).2) ht
      rfl

end Locus.Traffic
