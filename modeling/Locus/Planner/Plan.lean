import Locus.Core.Execution

/-!
# Cost-based placement

`plan` walks over the candidates and, inside each, over its state paths. It keeps
the cheapest path seen so far and remembers whether a path was passed over because
its store is unavailable.
-/

namespace Locus.Planner

open Std (TreeMap)
open Locus.Core

/-- The predicted cost of a path, by cause. -/
structure CostBreakdown where
  queueMicros : UInt64
  unmatchedPrefillMicros : UInt64
  stateMaterializationMicros : UInt64
  decodeMicros : UInt64
  topologyMicros : UInt64
  policyMicros : UInt64
  deriving DecidableEq

/-- The predicted cost in total. -/
def CostBreakdown.totalMicros (cost : CostBreakdown) : UInt64 :=
  saturatingAdd (saturatingAdd (saturatingAdd (saturatingAdd (saturatingAdd cost.queueMicros
    cost.unmatchedPrefillMicros) cost.stateMaterializationMicros) cost.decodeMicros)
    cost.topologyMicros) cost.policyMicros

/-- What executing a path is expected to cost. -/
structure ExecutionEstimate where
  unmatchedPrefillMicros : UInt64
  decodeMicros : UInt64
  topologyMicros : UInt64
  policyMicros : UInt64
  deriving DecidableEq

/-- A way to reuse a state on a candidate. The materialization estimate overrides the
store's own. -/
structure StatePathCandidate where
  state : StateDescriptor
  compatibility : CompatibilityResult
  option : MaterializationOption
  materializationEstimateMicros : Option UInt64
  estimate : ExecutionEstimate
  deriving DecidableEq

/-- A target that may be chosen. -/
structure PlanningCandidate where
  target : ExecutionTarget
  capabilities : EngineCapabilities
  snapshot : EngineSnapshot
  coldEstimate : ExecutionEstimate
  statePaths : List StatePathCandidate
  deriving DecidableEq

/-- The stores that did not answer, with the reason. -/
structure StateObservation where
  unavailableStores : TreeMap StoreId String

/-- What to do when the planned path fails. -/
inductive FallbackAction
  | coldOnSameTarget
  | replan
  | fail
  deriving DecidableEq

/-- The deployment's choices on degraded paths. -/
structure RoutingPolicy where
  allowColdOnStoreOutage : Bool := true
  importFailureFallback : FallbackAction := .coldOnSameTarget
  deriving DecidableEq

/-- Everything a plan is computed from. -/
structure PlanningInput where
  request : CanonicalRequest
  candidates : List PlanningCandidate
  stateObservation : StateObservation
  policy : RoutingPolicy

/-- A state to reuse and how to obtain it. -/
structure StateReusePlan where
  state : StateDescriptor
  compatibility : CompatibilityResult
  option : MaterializationOption
  deriving DecidableEq

inductive ExecutionPath
  | cold
  | reuse (plan : StateReusePlan)
  deriving DecidableEq

/-- The chosen target and path. -/
structure PlacementPlan where
  target : ExecutionTarget
  path : ExecutionPath
  predictedCost : CostBreakdown
  fallback : FallbackAction
  rationale : List String
  deriving DecidableEq

/-- A path that passed every filter. -/
structure FeasiblePath where
  target : ExecutionTarget
  path : ExecutionPath
  cost : CostBreakdown
  fallback : FallbackAction
  stableKey : String
  rationale : List String
  deriving DecidableEq

/-- A path is better if it costs less, with ties broken by the stable key. -/
def FeasiblePath.isBetterThan (path other : FeasiblePath) : Bool :=
  decide (path.cost.totalMicros < other.cost.totalMicros) ||
  (path.cost.totalMicros == other.cost.totalMicros && decide (path.stableKey < other.stableKey))

inductive PlanningError
  | noFeasibleCandidate
  | storeUnavailable
  deriving DecidableEq

def costFor (queueMicros : UInt64) (estimate : ExecutionEstimate)
    (stateMaterializationMicros : UInt64) : CostBreakdown where
  queueMicros := queueMicros
  unmatchedPrefillMicros := estimate.unmatchedPrefillMicros
  stateMaterializationMicros := stateMaterializationMicros
  decodeMicros := estimate.decodeMicros
  topologyMicros := estimate.topologyMicros
  policyMicros := estimate.policyMicros

/-- Keep the better of the best path so far and a new one. -/
def consider (best : Option FeasiblePath) (candidate : FeasiblePath) : Option FeasiblePath :=
  match best with
  | none => some candidate
  | some current => if candidate.isBetterThan current then some candidate else best

/-- An unknown queue counts as the longest. -/
def PlanningCandidate.queueMicros (candidate : PlanningCandidate) : UInt64 :=
  candidate.snapshot.estimatedQueueMicros.getD u64Max

/-- The cold path of a candidate. -/
def coldPath (candidate : PlanningCandidate) : FeasiblePath where
  target := candidate.target
  path := .cold
  cost := costFor candidate.queueMicros candidate.coldEstimate 0
  fallback := .fail
  stableKey := candidate.target.id ++ ":0:cold"
  rationale := ["feasible cold execution path"]

/-- A path that reuses a state on a candidate. -/
def reusePath (input : PlanningInput) (candidate : PlanningCandidate)
    (statePath : StatePathCandidate) : FeasiblePath where
  target := candidate.target
  path := .reuse ⟨statePath.state, statePath.compatibility, statePath.option⟩
  cost := costFor candidate.queueMicros statePath.estimate
    (statePath.materializationEstimateMicros.getD statePath.option.estimatedTransferMicros)
  fallback := input.policy.importFailureFallback
  stableKey := candidate.target.id ++ ":1:" ++ statePath.state.id ++ ":" ++ statePath.option.id
  rationale := ["compatible state path passed correctness and capability filters"]

/-- The test that makes `plan` skip a candidate. -/
def skipsCandidate (input : PlanningInput) (candidate : PlanningCandidate) : Bool :=
  candidate.target.model != input.request.model ||
  candidate.snapshot.targetId != candidate.target.id ||
  !candidate.snapshot.ready ||
  !candidate.capabilities.satisfies input.request.requirements

/-- The test that makes `plan` skip a state path of an available store. -/
def skipsStatePath (input : PlanningInput) (candidate : PlanningCandidate)
    (statePath : StatePathCandidate) : Bool :=
  !statePath.compatibility.isCompatible ||
  statePath.state.store != statePath.option.store ||
  statePath.state.id != statePath.option.sourceState ||
  statePath.state.kind != statePath.option.stateKind ||
  statePath.state.model != input.request.model ||
  statePath.option.targetId != candidate.target.id ||
  statePath.option.targetEngine != candidate.target.engine ||
  !decide (statePath.state.kind ∈ candidate.capabilities.supportedStateKinds) ||
  statePath.state.relevantInputSemantics.any (fun identity =>
    identity != input.request.inputSemantics)

/-- The best path so far, and whether a path was lost to an unavailable store. -/
structure PlanState where
  best : Option FeasiblePath := none
  unavailablePathSeen : Bool := false

/-- The inner loop body of `plan`. -/
def planStatePath (input : PlanningInput) (candidate : PlanningCandidate) (state : PlanState)
    (statePath : StatePathCandidate) : PlanState :=
  if input.stateObservation.unavailableStores.contains statePath.option.store then
    { state with unavailablePathSeen := true }
  else if skipsStatePath input candidate statePath then state
  else { state with best := consider state.best (reusePath input candidate statePath) }

/-- The outer loop body of `plan`. -/
def planCandidate (input : PlanningInput) (state : PlanState) (candidate : PlanningCandidate) :
    PlanState :=
  if skipsCandidate input candidate then state
  else
    candidate.statePaths.foldl (planStatePath input candidate)
      { state with best := consider state.best (coldPath candidate) }

/-- `CostBasedPlanner::plan` -/
def plan (input : PlanningInput) : Except PlanningError PlacementPlan :=
  let state := input.candidates.foldl (planCandidate input) {}
  match state.best with
  | none => .error .noFeasibleCandidate
  | some selected =>
    if state.unavailablePathSeen && !input.policy.allowColdOnStoreOutage &&
        decide (selected.path = .cold) then
      .error .storeUnavailable
    else
      .ok {
        target := selected.target, path := selected.path, predictedCost := selected.cost,
        fallback := selected.fallback, rationale := selected.rationale }

/-- A target on generation 1 of an engine. -/
def sampleTarget : ExecutionTarget where
  id := "target"
  engine := ⟨"engine", 1⟩
  model := ⟨"model", none, "profile"⟩
  role := .combined
  parallelLayout := ⟨1, 1, 1, "layout"⟩
  residency := "resident"
  capabilityRevision := "revision"

/-- A state that covers one token. -/
def sampleState : StateDescriptor where
  id := "state"
  store := "store"
  kind := "kv"
  model := sampleTarget.model
  relevantInputSemantics := none
  representationRevision := "revision"
  positionalSemantics := none
  runtimeCompatibility := none
  boundary := ⟨[⟨"item", 1⟩], .tokenOffset "item" 1, .complete, "digest"⟩
  locations := []
  storeReference := ⟨"store", "state"⟩

/-- A way to bring the state to the target. -/
def sampleOption : MaterializationOption where
  id := "option"
  store := "store"
  sourceState := "state"
  targetId := "target"
  targetEngine := ⟨"engine", 1⟩
  stateKind := "kv"
  locality := .localState
  estimatedTransferMicros := 1
  optionHandle := ⟨"store", "option"⟩

/-- A request for the model of the target. -/
def sampleRequest : CanonicalRequest where
  id := "request"
  model := sampleTarget.model
  inputSemantics := ⟨⟨"tokenizer", "1", "a"⟩, ⟨"template", "1", "b"⟩, none⟩
  requirements := ⟨∅, false, false, false, false⟩

end Locus.Planner
