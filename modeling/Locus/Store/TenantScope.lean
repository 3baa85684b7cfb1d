import Locus.Runtime.PlanningInput
import Locus.Store.StateIds

/-!
# The tenant of a state query

`planning_input` looks up states in the store under the context of its request. The context
carries the authenticated tenant, but the requirement carries no scope, and without one the
store asks for the tenant of its configuration. So a lookup that is sent carries the tenant of
the request exactly if the configuration names it.
-/

namespace Locus.Store

open Locus.Core Locus.Engine Locus.Lib Locus.Planner Locus.Runtime

/-- What planning with a NexusKV store asks: target discovery, and what the store asks. -/
inductive ServiceCall
  | discover (request : CanonicalRequest)
  | store (call : StoreCall)

/-- What the environment may answer. -/
def ServiceCall.Answer : ServiceCall → Type
  | discover _ => Except InferenceError (List DiscoveredTarget)
  | store call => call.Answer

/-- A conversation with discovery, the bridge and the records. -/
abbrev ServiceM (α : Type) := Dialogue ServiceCall.Answer α

/-- The questions of an operation of the store are questions of the service. -/
def fromStore {α : Type} (operation : StoreM α) : ServiceM α :=
  operation.handle fun question => Dialogue.call (ServiceCall.store question)

variable (config : NexusKvStoreConfig) (context : OperationContext)

/-- The calls of `planning_input` are answered by discovery and by the store. -/
def serve : (question : PlanningCall) → ServiceM question.Answer
  | .discover request => Dialogue.call (ServiceCall.discover request)
  | .lookup requirement => fromStore (lookup config requirement context)
  | .estimate state target => fromStore (estimate state target context)

/-- `planning_input` with a NexusKV store. -/
def planWithStore (request : CanonicalRequest) (policy : RoutingPolicy) :
    ServiceM (Except InferenceError PlanningInput) :=
  (planningInput storeIdentity request policy).handle (serve config context)

section Scope

/-- Only these state kinds are looked up. -/
def supportedKinds (discovered : List DiscoveredTarget) : Finset StateKind :=
  discovered.foldl (fun kinds found => kinds ∪ found.capabilities.supportedStateKinds) ∅

/-- A question that touches no other tenant's scope than this one's. -/
def InScope (nameSpace tenant : String) : ServiceCall → Prop
  | .store (.postLookup request) => request.identity.tenant = tenant
  | .store (.register state _) => ∃ entry, state = storeStateId tenant nameSpace entry
  | _ => True

/-- Every lookup and every registration is under the authenticated tenant. -/
def Isolated (exchanges : List (Exchange ServiceCall.Answer)) : Prop :=
  ∀ tenant, context.tenantId = some tenant →
    ∀ exchange ∈ exchanges, InScope config.nameSpace tenant exchange.1

/-- Two runs share neither the tenant of a lookup nor a state that both register. -/
def DisjointScopes (exchanges exchanges' : List (Exchange ServiceCall.Answer)) : Prop :=
  (∀ lookup lookup' answer answer', ⟨.store (.postLookup lookup), answer⟩ ∈ exchanges →
    ⟨.store (.postLookup lookup'), answer'⟩ ∈ exchanges' →
      lookup.identity.tenant ≠ lookup'.identity.tenant) ∧
  ∀ state state' record record' answer answer',
    ⟨.store (.register state record), answer⟩ ∈ exchanges →
      ⟨.store (.register state' record'), answer'⟩ ∈ exchanges' → state ≠ state'

/-- The store is asked: discovery finds a target with a supported kind, the context is active,
and the request has a token sequence. -/
def LookupSent (request : CanonicalRequest) (exchanges : List (Exchange ServiceCall.Answer)) :
    Prop :=
  ∃ (discovered : List DiscoveredTarget) (rest : List (Exchange ServiceCall.Answer)),
    exchanges = ⟨.discover request, (.ok discovered : Except InferenceError _)⟩ ::
      ⟨.store (.ensureActive context), (.ok () : Except ContextError Unit)⟩ :: rest ∧
    supportedKinds discovered ≠ ∅ ∧ (request.items.findSome? InputItem.tokenIds).isSome = true

end Scope

section Questions

variable {config context} {request : CanonicalRequest} {policy : RoutingPolicy}

/-- A question that neither looks up nor registers. -/
def Harmless : ServiceCall → Prop
  | .store (.postLookup _) | .store (.register _ _) => False
  | _ => True

theorem Harmless.inScope {nameSpace tenant : String} {question : ServiceCall}
    (h : Harmless question) : InScope nameSpace tenant question := by
  cases question with
  | discover request => exact trivial
  | store call =>
    cases call with
    | postLookup request => exact absurd h id
    | register state record => exact absurd h id
    | _ => exact trivial

/-- What an operation of the store asks, the service is asked. -/
theorem asksOnly_fromStore {α : Type} {P : ServiceCall → Prop} {operation : StoreM α}
    (h : operation.AsksOnly fun call => P (.store call)) : (fromStore operation).AsksOnly P :=
  h.handle fun _ hquestion => Dialogue.asksOnly_call hquestion

/-- An estimate neither looks up nor registers. -/
theorem asksOnly_estimate (state : StateDescriptor) (target : ExecutionTarget) :
    (fromStore (estimate state target context)).AsksOnly Harmless := by
  refine asksOnly_fromStore (Dialogue.AsksOnly.bind (Dialogue.asksOnly_call trivial) ?_)
  rintro (error | ⟨⟩)
  · exact Dialogue.asksOnly_pure _
  · simp only
    split_ifs
    · exact Dialogue.asksOnly_pure _
    · refine Dialogue.AsksOnly.bind (Dialogue.asksOnly_call trivial) ?_
      rintro (⟨⟩ | _ | record)
      · exact Dialogue.asksOnly_pure _
      · exact Dialogue.asksOnly_pure _
      · refine Dialogue.AsksOnly.bind (Dialogue.asksOnly_call trivial) ?_
        intro answer
        exact Dialogue.asksOnly_pure _

/-- A lookup asks in the scope of its tenant only. -/
theorem asksOnly_lookup (requirement : StateRequirement) :
    (fromStore (lookup config requirement context)).AsksOnly
      (InScope config.nameSpace (lookupTenant config requirement)) := by
  refine asksOnly_fromStore (Dialogue.AsksOnly.bind (Dialogue.asksOnly_call trivial) ?_)
  rintro (error | ⟨⟩)
  · exact Dialogue.asksOnly_pure _
  · cases htokens : requirement.queryTokenIds with
    | none => exact Dialogue.asksOnly_pure _
    | some tokens =>
      simp only
      refine Dialogue.AsksOnly.bind (Dialogue.asksOnly_call rfl) ?_
      intro answer
      cases answer.result with
      | error error => exact Dialogue.asksOnly_pure _
      | ok response =>
        simp only
        cases lookupMatch config requirement response with
        | error error => exact Dialogue.asksOnly_pure _
        | ok found =>
          cases found with
          | none => exact Dialogue.asksOnly_pure _
          | some hit =>
            have hscope : InScope config.nameSpace (lookupTenant config requirement)
                (.store (.register (matchDescriptor config requirement hit).id hit.record)) :=
              ⟨hit.entry.identity.entryId, rfl⟩
            refine Dialogue.AsksOnly.bind (Dialogue.asksOnly_call hscope) ?_
            rintro (⟨⟩ | ⟨⟩)
            · exact Dialogue.asksOnly_pure _
            · exact Dialogue.asksOnly_pure _

/-- A question for an estimate. -/
def AsksEstimate (question : PlanningCall) : Prop :=
  ∃ state target, question = .estimate state target

/-- The inner loop of `planning_input` asks for estimates only. -/
theorem asksOnly_planStates (identity : StoreId) (found : DiscoveredTarget)
    (states : List StateDescriptor) (unavailable : Std.TreeMap StoreId String) :
    (planStates identity request found states unavailable).AsksOnly AsksEstimate := by
  induction states generalizing unavailable with
  | nil => exact Dialogue.asksOnly_pure _
  | cons state states ih =>
    rw [planStates]
    split_ifs
    · exact ih unavailable
    · refine Dialogue.AsksOnly.bind (Dialogue.asksOnly_call ⟨state, found.target, rfl⟩) ?_
      rintro (error | options)
      · cases error with
        | unavailable reason => exact ih _
        | _ => exact Dialogue.asksOnly_pure _
      · exact (ih unavailable).bind fun _ => Dialogue.asksOnly_pure _

/-- The outer loop of `planning_input` asks for estimates only. -/
theorem asksOnly_planTargets (identity : StoreId) (states : List StateDescriptor)
    (discovered : List DiscoveredTarget) (unavailable : Std.TreeMap StoreId String) :
    (planTargets identity request states discovered unavailable).AsksOnly AsksEstimate := by
  induction discovered generalizing unavailable with
  | nil => exact Dialogue.asksOnly_pure _
  | cons found discovered ih =>
    rw [planTargets]
    refine (asksOnly_planStates identity found states unavailable).bind ?_
    rintro (error | ⟨unavailable, statePaths⟩)
    · exact Dialogue.asksOnly_pure _
    · exact (ih unavailable).bind fun _ => Dialogue.asksOnly_pure _

/-- What is asked after the lookup is harmless. -/
theorem harmless_of_planTargets {states : List StateDescriptor}
    {discovered : List DiscoveredTarget} {unavailable : Std.TreeMap StoreId String}
    {exchanges : List (Exchange ServiceCall.Answer)}
    {result : Except InferenceError (Std.TreeMap StoreId String × List PlanningCandidate)}
    (hrun : ((planTargets storeIdentity request states discovered unavailable).handle
      (serve config context)).Runs exchanges result) :
    ∀ exchange ∈ exchanges, Harmless exchange.1 := by
  refine ((asksOnly_planTargets storeIdentity states discovered unavailable).handle ?_)
    exchanges result hrun
  rintro _ ⟨state, target, rfl⟩
  exact asksOnly_estimate state target

/-- The continuation of `planning_input` once the states are known. -/
def planFound (request : CanonicalRequest) (policy : RoutingPolicy)
    (discovered : List DiscoveredTarget) :
    Except InferenceError (Std.TreeMap StoreId String × List StateDescriptor) →
      PlanningM (Except InferenceError PlanningInput)
  | .error error => return .error error
  | .ok (unavailable, states) => do
    let planned ← planTargets storeIdentity request states discovered unavailable
    return planned.map fun (unavailable, candidates) =>
      ⟨request, candidates, ⟨unavailable⟩, policy⟩

/-- `planning_input` discovers, looks up and goes on. -/
theorem planWithStore_eq :
    planWithStore config context request policy =
      Dialogue.call (ServiceCall.discover request) >>= fun answer =>
        match (answer : Except InferenceError (List DiscoveredTarget)) with
        | .error error => pure (.error error)
        | .ok discovered =>
          (lookupStates storeIdentity request discovered).handle (serve config context) >>=
            fun found => (planFound request policy discovered found).handle
              (serve config context) := by
  refine (Dialogue.handle_call_bind (serve config context) (.discover request) _).trans ?_
  congr 1
  funext answer
  cases answer with
  | error error => rfl
  | ok discovered =>
    exact Dialogue.handle_bind _ _ _

theorem harmless_of_planFound {discovered : List DiscoveredTarget}
    {found : Except InferenceError (Std.TreeMap StoreId String × List StateDescriptor)}
    {exchanges : List (Exchange ServiceCall.Answer)}
    {result : Except InferenceError PlanningInput}
    (hrun : ((planFound request policy discovered found).handle (serve config context)).Runs
      exchanges result) : ∀ exchange ∈ exchanges, Harmless exchange.1 := by
  cases found with
  | error error =>
    obtain ⟨rfl, -⟩ := Dialogue.runs_pure.mp hrun
    simp
  | ok found =>
    simp only [planFound, Dialogue.handle_bind] at hrun
    obtain ⟨front, back, planned, rfl, hfront, hback⟩ := Dialogue.runs_bind.mp hrun
    obtain ⟨rfl, -⟩ := Dialogue.runs_pure.mp hback
    simpa using harmless_of_planTargets hfront

/-- A lookup first asks for its context. Then it is sent unless there are no tokens. -/
theorem lookup_cases {requirement : StateRequirement}
    {exchanges : List (Exchange ServiceCall.Answer)}
    {result : Except StoreError (List StateDescriptor)}
    (hrun : (fromStore (lookup config requirement context)).Runs exchanges result) :
    (∃ answer : Except ContextError Unit,
      exchanges = [⟨.store (.ensureActive context), answer⟩] ∧
        (answer = .ok () → requirement.queryTokenIds = none)) ∨
    ∃ tokens answer rest, requirement.queryTokenIds = some tokens ∧
      exchanges = ⟨.store (.ensureActive context), (.ok () : Except ContextError Unit)⟩ ::
        ⟨.store (.postLookup (lookupRequest config requirement tokens)), answer⟩ :: rest := by
  obtain ⟨answer, rest, rfl, hrest⟩ := Dialogue.runs_ask.mp hrun
  cases answer with
  | error error =>
    obtain ⟨rfl, -⟩ := Dialogue.runs_pure.mp hrest
    exact .inl ⟨.error error, rfl, by simp⟩
  | ok =>
    cases htokens : requirement.queryTokenIds with
    | none =>
      simp only [htokens] at hrest
      obtain ⟨rfl, -⟩ := Dialogue.runs_pure.mp hrest
      exact .inl ⟨.ok (), rfl, by simp⟩
    | some tokens =>
      simp only [htokens] at hrest
      obtain ⟨answer, rest, rfl, -⟩ := Dialogue.runs_ask.mp hrest
      exact .inr ⟨tokens, answer, rest, rfl, rfl⟩

/-- What `planning_input` asks before it plans: nothing if no kind of state is supported, and
otherwise what a lookup asks. -/
theorem lookupStates_cases {discovered : List DiscoveredTarget}
    {exchanges : List (Exchange ServiceCall.Answer)}
    {found : Except InferenceError (Std.TreeMap StoreId String × List StateDescriptor)}
    (hrun : ((lookupStates storeIdentity request discovered).handle (serve config context)).Runs
      exchanges found) :
    exchanges = [] ∧ supportedKinds discovered = ∅ ∨
      (∃ answer : Except ContextError Unit,
        exchanges = [⟨.store (.ensureActive context), answer⟩] ∧
          (answer = .ok () → request.items.findSome? InputItem.tokenIds = none)) ∨
      ∃ tokens answer rest, supportedKinds discovered ≠ ∅ ∧
        request.items.findSome? InputItem.tokenIds = some tokens ∧
        exchanges = ⟨.store (.ensureActive context), (.ok () : Except ContextError Unit)⟩ ::
          ⟨.store (.postLookup (lookupRequest config
            (requirementFor request (supportedKinds discovered)) tokens)), answer⟩ :: rest := by
  unfold lookupStates at hrun
  simp only at hrun
  split_ifs at hrun with hkinds
  · obtain ⟨rfl, -⟩ := Dialogue.runs_pure.mp hrun
    exact .inl ⟨rfl, hkinds⟩
  · obtain ⟨sent, tail, answer, rfl, hsent, htail⟩ := Dialogue.runs_bind.mp hrun
    have hnone : tail = [] := by
      rcases answer with (_ | _ | _ | _ | _ | _) | states
      all_goals
        obtain ⟨rfl, -⟩ := Dialogue.runs_pure.mp htail
        rfl
    subst hnone
    rw [List.append_nil]
    rcases lookup_cases hsent with hunsent | ⟨tokens, posted, rest, htokens, rfl⟩
    · exact .inr (.inl hunsent)
    · exact .inr (.inr ⟨tokens, posted, rest, hkinds, htokens, rfl⟩)

/-- Either the lookup is sent under the tenant of the configuration, or nothing is looked up or
registered. -/
theorem planWithStore_cases {exchanges : List (Exchange ServiceCall.Answer)}
    {result : Except InferenceError PlanningInput}
    (hrun : (planWithStore config context request policy).Runs exchanges result) :
    (LookupSent context request exchanges ∧ ∃ exchange ∈ exchanges,
      ∃ lookup, exchange.1 = .store (.postLookup lookup) ∧
        lookup.identity.tenant = config.tenant) ∨
      (¬ LookupSent context request exchanges ∧
        ∀ exchange ∈ exchanges, Harmless exchange.1) := by
  rw [planWithStore_eq, Dialogue.runs_call_bind] at hrun
  obtain ⟨answer, rest, rfl, hrun⟩ := hrun
  cases answer with
  | error error =>
    obtain ⟨rfl, -⟩ := Dialogue.runs_pure.mp hrun
    right
    refine ⟨?_, by simp [Harmless]⟩
    rintro ⟨discovered, rest, heq, -⟩
    cases heq
  | ok discovered =>
    obtain ⟨front, back, found, rfl, hfront, hback⟩ := Dialogue.runs_bind.mp hrun
    have hharmless := harmless_of_planFound hback
    rcases lookupStates_cases hfront with ⟨rfl, hkinds⟩ | ⟨active, rfl, htokens⟩ |
      ⟨tokens, posted, rest, hkinds, htokens, rfl⟩
    · right
      refine ⟨?_, ?_⟩
      · rintro ⟨discovered', rest, heq, hsome, -⟩
        cases heq
        exact hsome hkinds
      · rintro exchange (_ | ⟨_, hmem⟩)
        · exact trivial
        · exact hharmless exchange hmem
    · right
      refine ⟨?_, ?_⟩
      · rintro ⟨discovered', rest, heq, -, hsome⟩
        cases heq
        rw [htokens rfl] at hsome
        cases hsome
      · rintro exchange (_ | ⟨_, _ | ⟨_, hmem⟩⟩)
        · exact trivial
        · exact trivial
        · exact hharmless exchange hmem
    · left
      refine ⟨⟨discovered, _, rfl, hkinds, ?_⟩, _,
        List.mem_cons_of_mem _ (List.mem_cons_of_mem _ List.mem_cons_self), _, rfl, rfl⟩
      rw [htokens]
      rfl

/-- Every question is in the scope of the tenant of the configuration. -/
theorem asksOnly_planWithStore :
    (planWithStore config context request policy).AsksOnly
      (InScope config.nameSpace config.tenant) := by
  rw [planWithStore_eq]
  refine Dialogue.AsksOnly.bind (Dialogue.asksOnly_call trivial) ?_
  rintro (error | discovered)
  · exact Dialogue.asksOnly_pure _
  · refine Dialogue.AsksOnly.bind ?_ ?_
    · unfold lookupStates
      simp only
      split_ifs
      · exact Dialogue.asksOnly_pure _
      · refine Dialogue.AsksOnly.bind (asksOnly_lookup _) ?_
        rintro ((_ | _ | _ | _ | _ | _) | states)
        all_goals exact Dialogue.asksOnly_pure _
    · intro found exchanges result hrun exchange hmem
      exact (harmless_of_planFound hrun exchange hmem).inScope

/-- Runs that are isolated under different tenants share no scope. -/
theorem disjoint_of_isolated {context' : OperationContext} {tenant tenant' : String}
    {exchanges exchanges' : List (Exchange ServiceCall.Answer)}
    (htenant : context.tenantId = some tenant) (htenant' : context'.tenantId = some tenant')
    (hne : tenant ≠ tenant') (h : Isolated config context exchanges)
    (h' : Isolated config context' exchanges') : DisjointScopes exchanges exchanges' := by
  constructor
  · intro lookup lookup' answer answer' hmem hmem' hsame
    have hscope : lookup.identity.tenant = tenant := h tenant htenant _ hmem
    have hscope' : lookup'.identity.tenant = tenant' := h' tenant' htenant' _ hmem'
    exact hne (by rw [← hscope, ← hscope', hsame])
  · rintro state state' record record' answer answer' hmem hmem' rfl
    obtain ⟨entry, hentry⟩ := h tenant htenant _ hmem
    obtain ⟨entry', hentry'⟩ := h' tenant' htenant' _ hmem'
    rw [hentry] at hentry'
    exact hne (storeStateId_inj.mp hentry').1

/-- `planning_input` asks the store under the authenticated tenant exactly if it sends no lookup
or the configuration names that tenant. Where it does so for two tenants, their requests share
no scope. -/
theorem isolated_iff {exchanges : List (Exchange ServiceCall.Answer)}
    {result : Except InferenceError PlanningInput}
    (hrun : (planWithStore config context request policy).Runs exchanges result) :
    (Isolated config context exchanges ↔
      ∀ tenant, context.tenantId = some tenant → LookupSent context request exchanges →
        config.tenant = tenant) ∧
    ∀ (context' : OperationContext) (exchanges' : List (Exchange ServiceCall.Answer))
      (tenant tenant' : String),
      context.tenantId = some tenant → context'.tenantId = some tenant' → tenant ≠ tenant' →
        Isolated config context exchanges → Isolated config context' exchanges' →
          DisjointScopes exchanges exchanges' := by
  refine ⟨⟨?_, ?_⟩, ?_⟩
  · intro hisolated tenant htenant hsent
    rcases planWithStore_cases hrun with ⟨-, exchange, hmem, lookup, hlookup, hconfig⟩ | ⟨hnot, -⟩
    · have hscope := hisolated tenant htenant exchange hmem
      rw [hlookup] at hscope
      exact hconfig.symm.trans hscope
    · exact absurd hsent hnot
  · intro hcondition tenant htenant exchange hmem
    rcases planWithStore_cases hrun with ⟨hsent, -⟩ | ⟨-, hharmless⟩
    · rw [← hcondition tenant htenant hsent]
      exact asksOnly_planWithStore exchanges result hrun exchange hmem
    · exact (hharmless exchange hmem).inScope
  · intro context' exchanges' tenant tenant' htenant htenant' hne h h'
    exact disjoint_of_isolated htenant htenant' hne h h'

end Questions

section Runs

/-- A store that is configured for one tenant. -/
def configFor (tenant : String) : NexusKvStoreConfig where
  baseUrl := "http://bridge:7700"
  apiKey := none
  tenant := tenant
  nameSpace := "prefixes"
  engineFamily := "vllm"
  semanticType := "kv"

/-- The context of a request of a tenant. -/
def contextFor (tenant : String) : OperationContext where
  requestId := "request"
  tenantId := some tenant

/-- A request with one token sequence. -/
def tokenRequest : CanonicalRequest :=
  { sampleRequest with items := [⟨"prompt", .tokenSequence [1, 2]⟩] }

/-- The bridge has an entry for both tokens. -/
def tokenMatch : NexusMatchResult where
  matchedUnits := 2
  entry := ⟨⟨"model", "entry", 1, "lineage"⟩, ⟨nexusKvSchema, "layout", "kv", "block"⟩,
    ⟨"gpu", "gpu-0"⟩⟩
  compatibility := ⟨true, false⟩
  validation := ⟨sampleRequest.model, sampleRequest.inputSemantics, "handle"⟩

/-- The target supports what the bridge finds. -/
def tokenTarget : DiscoveredTarget where
  target := sampleTarget
  capabilities := ⟨∅, false, false, false, false, false, {"nexuskv.kv"}⟩
  snapshot := { targetId := "target", ready := true, estimatedQueueMicros := some 0 }

/-- The planning of the request: the bridge finds the entry, which is registered, and fails to
estimate. -/
def tokenExchanges (config : NexusKvStoreConfig) (context : OperationContext) :
    List (Exchange ServiceCall.Answer) :=
  let requirement := requirementFor tokenRequest {"nexuskv.kv"}
  let descriptor := matchDescriptor config requirement tokenMatch
  [⟨.discover tokenRequest, .ok [tokenTarget]⟩,
    ⟨.store (.ensureActive context), .ok ()⟩,
    ⟨.store (.postLookup (lookupRequest config requirement [1, 2])),
      .response ⟨bridgeSchema, nexusKvSchema, some tokenMatch⟩⟩,
    ⟨.store (.register descriptor.id tokenMatch.record), .ok ()⟩,
    ⟨.store (.ensureActive context), .ok ()⟩,
    ⟨.store (.readRecord descriptor.id), .ok (some tokenMatch.record)⟩,
    ⟨.store (.postEstimate (estimateRequest tokenMatch.record sampleTarget)), .sendError "down"⟩]

/-- What that planning returns. -/
def tokenInput : PlanningInput where
  request := tokenRequest
  candidates := [⟨sampleTarget, tokenTarget.capabilities, tokenTarget.snapshot,
    coldEstimate tokenRequest, []⟩]
  stateObservation := ⟨(∅ : Std.TreeMap StoreId String).insert storeIdentity "down"⟩
  policy := ⟨true, .coldOnSameTarget⟩

theorem runs_tokenExchanges (tenant tenant' : String) :
    (planWithStore (configFor tenant) (contextFor tenant') tokenRequest
      ⟨true, .coldOnSameTarget⟩).Runs (tokenExchanges (configFor tenant) (contextFor tenant'))
      (.ok tokenInput) :=
  .ask _ (.ask _ (.ask _ (.ask _ (.ask _ (.ask _ (.ask _ (.done _)))))))

/-- A request of the configured tenant is isolated. -/
theorem isolated_iff_acme :
    Isolated (configFor "acme") (contextFor "acme")
      (tokenExchanges (configFor "acme") (contextFor "acme")) := by
  refine (isolated_iff (runs_tokenExchanges "acme" "acme")).1.mpr ?_
  intro tenant htenant _
  exact Option.some.inj htenant

/-- Under one configuration two tenants ask under the tenant of neither, and register the same
state. -/
theorem not_isolated_shared :
    (configFor "shared").validate = .ok () ∧
    (∀ tenant, (planWithStore (configFor "shared") (contextFor tenant) tokenRequest
      ⟨true, .coldOnSameTarget⟩).Runs (tokenExchanges (configFor "shared") (contextFor tenant))
      (.ok tokenInput)) ∧
    ¬ Isolated (configFor "shared") (contextFor "acme")
      (tokenExchanges (configFor "shared") (contextFor "acme")) ∧
    ¬ DisjointScopes (tokenExchanges (configFor "shared") (contextFor "acme"))
      (tokenExchanges (configFor "shared") (contextFor "globex")) := by
  refine ⟨by decide, runs_tokenExchanges "shared", ?_, ?_⟩
  · intro hisolated
    have hscope := hisolated "acme" rfl _
      (List.mem_cons_of_mem _ (List.mem_cons_of_mem _ List.mem_cons_self))
    have hsame : "shared" = "acme" := hscope
    exact absurd hsame (by decide)
  · rintro ⟨-, hstates⟩
    exact hstates _ _ _ _ _ _
      (List.mem_cons_of_mem _ (List.mem_cons_of_mem _ (List.mem_cons_of_mem _ List.mem_cons_self)))
      (List.mem_cons_of_mem _ (List.mem_cons_of_mem _ (List.mem_cons_of_mem _ List.mem_cons_self)))
      rfl

end Runs

end Locus.Store
