import Locus.Planner.Optimality
import Locus.Runtime.PlanningInput

/-!
# Cold degradation after a store outage

The planner forbids a cold plan only if it has seen a state path of a store that did not
answer. A lookup that fails leaves no state path at all, so the outage is recorded but
the planner does not see it.
-/

namespace Locus.Runtime

open Std (TreeMap)
open Locus.Core Locus.Engine Locus.Lib Locus.Planner

abbrev PlanningExchange := Exchange PlanningCall.Answer

/-- The question is a lookup. -/
def PlanningCall.isLookup : PlanningCall → Bool
  | lookup _ => true
  | discover _ => false
  | estimate _ _ => false

variable {identity : StoreId} {request : CanonicalRequest} {policy : RoutingPolicy}
  {found : DiscoveredTarget} {states : List StateDescriptor} {discovered : List DiscoveredTarget}
  {unavailable unavailable' : TreeMap StoreId String} {exchanges : List PlanningExchange}

/-- No exchange is a lookup. -/
def NoLookup (exchanges : List PlanningExchange) : Prop :=
  ∀ exchange ∈ exchanges, exchange.1.isLookup = false

theorem NoLookup.append {front back : List PlanningExchange} (hfront : NoLookup front)
    (hback : NoLookup back) : NoLookup (front ++ back) := by
  intro exchange hmem
  rcases List.mem_append.mp hmem with hmem | hmem
  · exact hfront exchange hmem
  · exact hback exchange hmem

/-- An outage is recorded under the identity of the store only. -/
def OnlyRecords (identity : StoreId) (unavailable unavailable' : TreeMap StoreId String) : Prop :=
  ∀ store ∈ unavailable', store ∈ unavailable ∨ store = identity

theorem OnlyRecords.trans {unavailable'' : TreeMap StoreId String}
    (h : OnlyRecords identity unavailable unavailable')
    (h' : OnlyRecords identity unavailable' unavailable'') :
    OnlyRecords identity unavailable unavailable'' := by
  intro store hmem
  rcases h' store hmem with hmem | heq
  · exact h store hmem
  · exact .inr heq

theorem onlyRecords_insert (reason : String) :
    OnlyRecords identity unavailable (unavailable.insert identity reason) := by
  intro store hmem
  rcases TreeMap.mem_insert.mp hmem with heq | hmem
  · exact .inr (compare_eq_iff_eq.mp heq).symm
  · exact .inl hmem

/-- The inner loop asks for estimates and records outages of the store. -/
theorem of_planStates
    {result : Except InferenceError (TreeMap StoreId String × List StatePathCandidate)}
    (h : (planStates identity request found states unavailable).Runs exchanges result) :
    NoLookup exchanges ∧ ∀ unavailable' paths, result = .ok (unavailable', paths) →
      OnlyRecords identity unavailable unavailable' := by
  induction states generalizing unavailable exchanges result with
  | nil =>
    obtain ⟨rfl, rfl⟩ := Dialogue.runs_pure.mp h
    constructor
    · intro exchange hmem
      cases hmem
    · intro unavailable' paths heq store hmem
      cases heq
      exact .inl hmem
  | cons state states ih =>
    unfold planStates at h
    split at h
    next => exact ih h
    next =>
      obtain ⟨answer, rest, rfl, hnext⟩ := Dialogue.runs_call_bind.mp h
      have hquestion : NoLookup [⟨.estimate state found.target, answer⟩] := by
        intro exchange hmem
        rw [List.mem_singleton.mp hmem]
        rfl
      split at hnext
      next reason =>
        obtain ⟨hasks, hrecords⟩ := ih hnext
        refine ⟨hquestion.append hasks, fun unavailable' paths heq => ?_⟩
        exact (onlyRecords_insert reason).trans (hrecords unavailable' paths heq)
      next error hother =>
        obtain ⟨rfl, rfl⟩ := Dialogue.runs_pure.mp hnext
        refine ⟨hquestion, fun unavailable' paths heq => ?_⟩
        cases heq
      next options =>
        obtain ⟨front, back, value, rfl, hfirst, hrest⟩ := Dialogue.runs_bind.mp hnext
        obtain ⟨rfl, rfl⟩ := Dialogue.runs_pure.mp hrest
        obtain ⟨hasks, hrecords⟩ := ih hfirst
        rw [List.append_nil]
        refine ⟨hquestion.append hasks, fun unavailable' paths heq => ?_⟩
        cases value with
        | error error => cases heq
        | ok value =>
          cases heq
          exact hrecords value.1 value.2 rfl

/-- The outer loop asks for estimates and records outages of the store. Without states
there are no state paths. -/
theorem of_planTargets
    {result : Except InferenceError (TreeMap StoreId String × List PlanningCandidate)}
    (h : (planTargets identity request states discovered unavailable).Runs exchanges result) :
    NoLookup exchanges ∧ ∀ unavailable' candidates, result = .ok (unavailable', candidates) →
      OnlyRecords identity unavailable unavailable' ∧
      (states = [] → ∀ candidate ∈ candidates, candidate.statePaths = []) := by
  induction discovered generalizing unavailable exchanges result with
  | nil =>
    obtain ⟨rfl, rfl⟩ := Dialogue.runs_pure.mp h
    constructor
    · intro exchange hmem
      cases hmem
    · intro unavailable' candidates heq
      cases heq
      exact ⟨fun store hmem => .inl hmem, fun _ candidate hmem => by cases hmem⟩
  | cons found discovered ih =>
    unfold planTargets at h
    obtain ⟨front, back, first, rfl, hfirst, hnext⟩ := Dialogue.runs_bind.mp h
    obtain ⟨hasks, hrecords⟩ := of_planStates hfirst
    split at hnext
    next error =>
      obtain ⟨rfl, rfl⟩ := Dialogue.runs_pure.mp hnext
      rw [List.append_nil]
      refine ⟨hasks, fun unavailable' candidates heq => ?_⟩
      cases heq
    next middle statePaths =>
      obtain ⟨front', back', value, rfl, hsecond, hrest⟩ := Dialogue.runs_bind.mp hnext
      obtain ⟨rfl, rfl⟩ := Dialogue.runs_pure.mp hrest
      obtain ⟨hasks', hrecords'⟩ := ih hsecond
      rw [List.append_nil]
      refine ⟨hasks.append hasks', fun unavailable' candidates heq => ?_⟩
      cases value with
      | error error => cases heq
      | ok value =>
        cases heq
        obtain ⟨hsecondRecords, hempty⟩ := hrecords' value.1 value.2 rfl
        refine ⟨(hrecords middle statePaths rfl).trans hsecondRecords, ?_⟩
        rintro rfl candidate hmem
        rcases List.mem_cons.mp hmem with rfl | hmem
        · obtain ⟨-, hvalue⟩ := Dialogue.runs_pure.mp hfirst
          cases hvalue
          rfl
        · exact hempty rfl candidate hmem

/-- The store failed to answer the lookup. -/
def LookupFailed (exchanges : List PlanningExchange) : Prop :=
  ∃ requirement reason,
    (⟨.lookup requirement, .error (.unavailable reason)⟩ : PlanningExchange) ∈ exchanges

theorem NoLookup.not_lookupFailed (h : NoLookup exchanges) : ¬ LookupFailed exchanges := by
  rintro ⟨requirement, reason, hmem⟩
  have hlookup := h _ hmem
  cases hlookup

/-- A lookup that fails is recorded and leaves no states. -/
theorem of_lookupStates
    (h : (lookupStates identity request discovered).Runs exchanges (.ok (unavailable, states))) :
    OnlyRecords identity ∅ unavailable ∧ (LookupFailed exchanges → states = []) := by
  unfold lookupStates at h
  simp only at h
  split at h
  next =>
    obtain ⟨rfl, hvalue⟩ := Dialogue.runs_pure.mp h
    cases hvalue
    exact ⟨fun store hmem => .inl hmem, fun _ => rfl⟩
  next =>
    obtain ⟨answer, rest, rfl, hnext⟩ := Dialogue.runs_call_bind.mp h
    split at hnext
    next states' =>
      obtain ⟨rfl, hvalue⟩ := Dialogue.runs_pure.mp hnext
      cases hvalue
      refine ⟨fun store hmem => .inl hmem, ?_⟩
      rintro ⟨requirement, reason, hmem⟩
      cases List.mem_singleton.mp hmem
    next reason =>
      obtain ⟨-, hvalue⟩ := Dialogue.runs_pure.mp hnext
      cases hvalue
      exact ⟨onlyRecords_insert reason, fun _ => rfl⟩
    next error hother =>
      obtain ⟨-, hvalue⟩ := Dialogue.runs_pure.mp hnext
      cases hvalue

/-- What is known of a planning input, whatever the store answered. -/
theorem of_planningInput {input : PlanningInput}
    (h : (planningInput identity request policy).Runs exchanges (.ok input)) :
    input.policy = policy ∧
    (∀ store ∈ input.stateObservation.unavailableStores, store = identity) ∧
    (LookupFailed exchanges → ∀ candidate ∈ input.candidates, candidate.statePaths = []) := by
  unfold planningInput at h
  obtain ⟨answer, rest, rfl, hnext⟩ := Dialogue.runs_call_bind.mp h
  split at hnext
  next =>
    obtain ⟨-, hvalue⟩ := Dialogue.runs_pure.mp hnext
    cases hvalue
  next discovered =>
    obtain ⟨front, back, looked, rfl, hlookup, hrest⟩ := Dialogue.runs_bind.mp hnext
    split at hrest
    next =>
      obtain ⟨-, hvalue⟩ := Dialogue.runs_pure.mp hrest
      cases hvalue
    next unavailable states =>
      obtain ⟨front', back', planned, rfl, htargets, hlast⟩ := Dialogue.runs_bind.mp hrest
      obtain ⟨rfl, hvalue⟩ := Dialogue.runs_pure.mp hlast
      obtain ⟨hrecords, hfailed⟩ := of_lookupStates hlookup
      obtain ⟨hasks, hplanned⟩ := of_planTargets htargets
      cases planned with
      | error error => cases hvalue
      | ok planned =>
        cases hvalue
        obtain ⟨hrecords', hempty⟩ := hplanned planned.1 planned.2 rfl
        refine ⟨rfl, fun store hmem => ?_, ?_⟩
        · rcases hrecords.trans hrecords' store hmem with hmem | heq
          · exact absurd hmem (by simp)
          · exact heq
        · -- The lookup is not among the estimates, so it is the one of `lookup_states`.
          rintro ⟨requirement, reason, hmem⟩
          apply hempty
          apply hfailed
          refine ⟨requirement, reason, ?_⟩
          rcases List.mem_cons.mp hmem with heq | hmem
          · cases heq
          · rcases List.mem_append.mp hmem with hmem | hmem
            · exact hmem
            · rw [List.append_nil] at hmem
              exact absurd ⟨requirement, reason, hmem⟩ hasks.not_lookupFailed

/-- With the store recorded as unavailable and cold degradation not allowed, the plan is
never cold exactly if no candidate is eligible, or an eligible candidate still has a state
path of the store, or the first cheapest path reuses a state of another store. After a
failed lookup an eligible candidate is always planned cold. -/
theorem never_cold_iff {input : PlanningInput}
    (h : (planningInput identity request policy).Runs exchanges (.ok input))
    (hpolicy : policy.allowColdOnStoreOutage = false)
    (hout : identity ∈ input.stateObservation.unavailableStores) :
    ((∀ placement, plan input = .ok placement → placement.path ≠ .cold) ↔
      (∀ candidate ∈ input.candidates, ¬ Eligible input candidate) ∨
      (∃ candidate ∈ input.candidates, Eligible input candidate ∧
        ∃ statePath ∈ candidate.statePaths, statePath.option.store = identity) ∨
      ∃ m, IsFirstLeast FeasiblePath.rank (feasiblePaths input) m ∧ m.path ≠ .cold) ∧
    (LookupFailed exchanges → (∃ candidate ∈ input.candidates, Eligible input candidate) →
      ∃ placement, plan input = .ok placement ∧ placement.path = .cold) := by
  obtain ⟨rfl, honly, hfailed⟩ := of_planningInput h
  have hlost : PathLost input ↔ ∃ candidate ∈ input.candidates, Eligible input candidate ∧
      ∃ statePath ∈ candidate.statePaths, statePath.option.store = identity := by
    constructor
    · rintro ⟨candidate, hmem, heligible, statePath, hpath, hstore⟩
      exact ⟨candidate, hmem, heligible, statePath, hpath, honly _ hstore⟩
    · rintro ⟨candidate, hmem, heligible, statePath, hpath, rfl⟩
      exact ⟨candidate, hmem, heligible, statePath, hpath, hout⟩
  have hcold : (∃ placement, plan input = .ok placement ∧ placement.path = .cold) ↔
      ∃ m, IsFirstLeast FeasiblePath.rank (feasiblePaths input) m ∧ m.path = .cold ∧
        ¬ PathLost input := by
    rw [plan_cold_iff]
    simp only [hpolicy, true_and]
  rw [← hlost]
  constructor
  · constructor
    · intro hnever
      by_cases hleast : ∃ m, IsFirstLeast FeasiblePath.rank (feasiblePaths input) m
      · obtain ⟨m, hm⟩ := hleast
        by_cases hpath : m.path = .cold
        · right
          left
          by_contra hseen
          obtain ⟨placement, hplan, hplacement⟩ := hcold.mpr ⟨m, hm, hpath, hseen⟩
          exact hnever placement hplan hplacement
        · exact .inr (.inr ⟨m, hm, hpath⟩)
      · left
        intro candidate hmem heligible
        exact hleast (exists_isFirstLeast_iff.mpr ⟨candidate, hmem, heligible⟩)
    · intro hcondition placement hplan hplacement
      obtain ⟨m, hm, hpath, hseen⟩ := hcold.mp ⟨placement, hplan, hplacement⟩
      rcases hcondition with hall | hlost | ⟨m', hm', hreuse⟩
      · obtain ⟨candidate, hmem, heligible⟩ := exists_isFirstLeast_iff.mp ⟨m, hm⟩
        exact hall candidate hmem heligible
      · exact hseen hlost
      · rw [hm.unique hm'] at hpath
        exact hreuse hpath
  · intro hlookup heligible
    have hempty := hfailed hlookup
    obtain ⟨m, hm⟩ := exists_isFirstLeast_iff.mpr heligible
    refine hcold.mpr ⟨m, hm, ?_, ?_⟩
    · cases mem_feasiblePaths.mp hm.mem with
      | cold _ _ => rfl
      | reuse hmem _ hpath _ =>
        rw [hempty _ hmem] at hpath
        cases hpath
    · rintro ⟨candidate, hmem, -, statePath, hpath, -⟩
      rw [hempty candidate hmem] at hpath
      cases hpath

/-- A target that supports the kind of the sample state. -/
def sampleDiscovered : DiscoveredTarget where
  target := sampleTarget
  capabilities := ⟨∅, false, false, false, false, false, {"kv"}⟩
  snapshot := { targetId := "target", ready := true, estimatedQueueMicros := some 0 }

/-- The sample state for the semantics of the sample request. -/
def sampleMatch : StateDescriptor :=
  { sampleState with relevantInputSemantics := some sampleRequest.inputSemantics }

/-- The exchanges of a planning in which the store answers once and then fails. -/
def sampleOutage : List PlanningExchange :=
  [⟨.discover sampleRequest, .ok [sampleDiscovered]⟩,
    ⟨.lookup (requirementFor sampleRequest {"kv"}), .ok [sampleMatch, sampleMatch]⟩,
    ⟨.estimate sampleMatch sampleTarget, .ok [sampleOption]⟩,
    ⟨.estimate sampleMatch sampleTarget, .error (.unavailable "down")⟩]

/-- The input of that planning. -/
def sampleOutageInput : PlanningInput where
  request := sampleRequest
  candidates := [⟨sampleTarget, sampleDiscovered.capabilities, sampleDiscovered.snapshot,
    coldEstimate sampleRequest, [statePathFor sampleMatch sampleRequest sampleOption]⟩]
  stateObservation := ⟨(∅ : TreeMap StoreId String).insert "store" "down"⟩
  policy := ⟨false, .coldOnSameTarget⟩

theorem runs_sampleOutage :
    (planningInput "store" sampleRequest ⟨false, .coldOnSameTarget⟩).Runs sampleOutage
      (.ok sampleOutageInput) :=
  .ask _ (.ask _ (.ask _ (.ask _ (.done _))))

/-- There the planner sees the outage and returns no cold plan. -/
theorem never_cold_sample : sampleOutageInput.candidates ≠ [] ∧
    ∀ placement, plan sampleOutageInput = .ok placement → placement.path ≠ .cold := by
  have hiff := never_cold_iff runs_sampleOutage rfl (by decide)
  refine ⟨by decide, hiff.1.mpr ?_⟩
  right
  left
  exact ⟨_, List.mem_singleton_self _, ⟨rfl, rfl, rfl, by decide⟩, _,
    List.mem_singleton_self _, rfl⟩

/-- The exchanges of a planning in which the lookup fails. -/
def sampleLookupOutage : List PlanningExchange :=
  [⟨.discover sampleRequest, .ok [sampleDiscovered]⟩,
    ⟨.lookup (requirementFor sampleRequest {"kv"}), .error (.unavailable "down")⟩]

/-- There the store is recorded, cold degradation is not allowed, and the plan is cold. -/
theorem not_never_cold_lookup : ∃ input placement,
    (planningInput "store" sampleRequest ⟨false, .coldOnSameTarget⟩).Runs sampleLookupOutage
      (.ok input) ∧
    input.policy.allowColdOnStoreOutage = false ∧ input.candidates ≠ [] ∧
    "store" ∈ input.stateObservation.unavailableStores ∧
    plan input = .ok placement ∧ placement.path = .cold :=
  ⟨_, _, .ask _ (.ask _ (.done _)), rfl, by decide, by decide, rfl, rfl⟩

end Locus.Runtime
