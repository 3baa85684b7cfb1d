import Locus.Calibration.State
import Locus.Engine.Adapter
import Locus.Lib.Dialogue
import Locus.ModelIo.Pipeline
import Locus.Planner.Executor
import Locus.Planner.Plan

/-!
# What a plan is computed from

`planning_input` discovers targets, looks up states for the kinds they support, and asks
the store for estimates. A store that does not answer is recorded, and planning goes on
with what is left. Discovery and the store are the environment of a dialogue.
-/

namespace Locus.Runtime

open Std (TreeMap)
open Locus.Core Locus.Engine Locus.Lib Locus.Planner

structure DiscoveredTarget where
  target : ExecutionTarget
  capabilities : EngineCapabilities
  snapshot : EngineSnapshot
  deriving DecidableEq

/-- How inference fails once it is admitted. -/
inductive InferenceError
  | context (error : ContextError)
  | modelIo (error : ModelIo.ModelIoError)
  | engine (error : EngineError)
  | store (error : StoreError)
  | planning (error : PlanningError)
  | execution (error : PlanExecutionError)
  | calibration (error : Calibration.CalibrationError)
  | discovery (message : String)
  deriving DecidableEq

/-- What `planning_input` asks of its environment. -/
inductive PlanningCall
  | discover (request : CanonicalRequest)
  | lookup (requirement : StateRequirement)
  | estimate (state : StateDescriptor) (target : ExecutionTarget)

/-- What the environment may answer. -/
def PlanningCall.Answer : PlanningCall → Type
  | discover _ => Except InferenceError (List DiscoveredTarget)
  | lookup _ => Except StoreError (List StateDescriptor)
  | estimate _ _ => Except StoreError (List MaterializationOption)

/-- A conversation with discovery and the store. -/
abbrev PlanningM (α : Type) := Dialogue PlanningCall.Answer α

/-- Ask one question. -/
abbrev ask (question : PlanningCall) : PlanningM question.Answer :=
  Dialogue.call question

/-- `mix_fingerprint` -/
def mixFingerprint (hash : UInt64) (bytes : List UInt8) : UInt64 :=
  bytes.foldl (fun hash byte => (hash ^^^ byte.toUInt64) * 0x100000001b3) hash

/-- `str::as_bytes` -/
def asBytes (text : String) : List UInt8 := text.toUTF8.toList

/-- `u32::to_le_bytes` -/
def toLeBytes (token : UInt32) : List UInt8 :=
  [token.toUInt8, (token >>> 8).toUInt8, (token >>> 16).toUInt8, (token >>> 24).toUInt8]

/-- Mix one input item into the fingerprint. -/
def mixItem (hash : UInt64) (item : InputItem) : UInt64 :=
  let hash := mixFingerprint hash (asBytes item.id)
  match item.value with
  | .tokenSequence tokenIds =>
    tokenIds.foldl (fun hash token => mixFingerprint hash (toLeBytes token)) hash
  | .other debugText => mixFingerprint hash (asBytes debugText)

/-- The format `016x`. -/
def hexDigits (hash : UInt64) : String :=
  let digits := Nat.toDigits 16 hash.toNat
  String.ofList (List.replicate (16 - digits.length) '0' ++ digits)

/-- `input_fingerprint` -/
def inputFingerprint (request : CanonicalRequest) : String :=
  let texts := [request.model.modelRevision, request.model.adapterRevision.getD "",
    request.model.executionProfile, request.inputSemantics.tokenizer.fingerprint,
    request.inputSemantics.template.fingerprint]
  let hash := texts.foldl (fun hash text => mixFingerprint hash (asBytes text)) 0xcbf29ce484222325
  "locus-input-fnv1a64-v1:" ++ hexDigits (request.items.foldl mixItem hash)

/-- The tokens of an item, if it is a token sequence. -/
def InputItem.tokenIds (item : InputItem) : Option (List UInt32) :=
  match item.value with
  | .tokenSequence tokenIds => some tokenIds
  | .other _ => none

/-- `input_token_count` -/
def inputTokenCount (request : CanonicalRequest) : UInt64 :=
  ((request.items.filterMap InputItem.tokenIds).map fun tokens => UInt64.ofNat tokens.length).sum

/-- `cold_estimate` -/
def coldEstimate (request : CanonicalRequest) : ExecutionEstimate where
  unmatchedPrefillMicros := saturatingMul (inputTokenCount request) 10
  decodeMicros := saturatingMul (request.maxOutputTokens.getD 16).toUInt64 20
  topologyMicros := 0
  policyMicros := 0

/-- `reuse_estimate` -/
def reuseEstimate (state : StateDescriptor) (request : CanonicalRequest) : ExecutionEstimate :=
  let covered := (state.boundary.coveredComponents.map fun component => component.coveredUnits).sum
  let unmatched := saturatingSub (inputTokenCount request) covered
  { coldEstimate request with unmatchedPrefillMicros := saturatingMul unmatched 10 }

/-- `compatibility_for` -/
def compatibilityFor (state : StateDescriptor) (request : CanonicalRequest) :
    CompatibilityResult :=
  if state.model ≠ request.model then .incompatible "model execution identity mismatch"
  else
    match state.relevantInputSemantics with
    | some identity =>
      if identity ≠ request.inputSemantics then .incompatible "input semantic identity mismatch"
      else .compatible "model and input semantics match"
    | none => {
      verdict := .unknown
      checkedDimensions := ["model_execution"]
      evidence := ["store omitted input semantic identity"]
      requiredConversion := none }

/-- What the store is asked to look up. -/
def requirementFor (request : CanonicalRequest) (acceptedStateKinds : Finset StateKind) :
    StateRequirement where
  model := request.model
  inputSemantics := request.inputSemantics
  acceptedStateKinds := acceptedStateKinds
  inputFingerprint := inputFingerprint request
  queryTokenIds := request.items.findSome? InputItem.tokenIds
  tenantScope := none

/-- The state path of one option. -/
def statePathFor (state : StateDescriptor) (request : CanonicalRequest)
    (option : MaterializationOption) : StatePathCandidate where
  state := state
  compatibility := compatibilityFor state request
  option := option
  materializationEstimateMicros := none
  estimate := reuseEstimate state request

/-- The test that makes `planning_input` skip a state for a target. -/
def skipsState (request : CanonicalRequest) (found : DiscoveredTarget) (state : StateDescriptor) :
    Bool :=
  !decide (state.kind ∈ found.capabilities.supportedStateKinds) ||
  !(compatibilityFor state request).isCompatible

variable (identity : StoreId) (request : CanonicalRequest)

/-- The inner loop of `planning_input`: the state paths of one target. -/
def planStates (found : DiscoveredTarget) :
    List StateDescriptor → TreeMap StoreId String →
      PlanningM (Except InferenceError (TreeMap StoreId String × List StatePathCandidate))
  | [], unavailable => return .ok (unavailable, [])
  | state :: states, unavailable =>
    if skipsState request found state then planStates found states unavailable
    else do
      let answer : Except StoreError (List MaterializationOption) ←
        ask (.estimate state found.target)
      match answer with
      | .error (.unavailable reason) =>
        planStates found states (unavailable.insert identity reason)
      | .error error => return .error (.store error)
      | .ok options => do
        let rest ← planStates found states unavailable
        return rest.map fun (unavailable, paths) =>
          (unavailable, options.map (statePathFor state request) ++ paths)

/-- The outer loop of `planning_input`: the candidates. -/
def planTargets (states : List StateDescriptor) :
    List DiscoveredTarget → TreeMap StoreId String →
      PlanningM (Except InferenceError (TreeMap StoreId String × List PlanningCandidate))
  | [], unavailable => return .ok (unavailable, [])
  | found :: discovered, unavailable => do
    let first ← planStates identity request found states unavailable
    match first with
    | .error error => return .error error
    | .ok (unavailable, statePaths) => do
      let rest ← planTargets states discovered unavailable
      return rest.map fun (unavailable, candidates) =>
        (unavailable, ⟨found.target, found.capabilities, found.snapshot, coldEstimate request,
          statePaths⟩ :: candidates)

/-- The lookup of `planning_input`. Without a supported kind the store is not asked. -/
def lookupStates (discovered : List DiscoveredTarget) :
    PlanningM (Except InferenceError (TreeMap StoreId String × List StateDescriptor)) :=
  let acceptedStateKinds := discovered.foldl
    (fun kinds found => kinds ∪ found.capabilities.supportedStateKinds) ∅
  if acceptedStateKinds = ∅ then return .ok (∅, [])
  else do
    let answer : Except StoreError (List StateDescriptor) ←
      ask (.lookup (requirementFor request acceptedStateKinds))
    match answer with
    | .ok states => return .ok (∅, states)
    | .error (.unavailable reason) =>
      return .ok ((∅ : TreeMap StoreId String).insert identity reason, [])
    | .error error => return .error (.store error)

/-- `DefaultInferenceService::planning_input` -/
def planningInput (policy : RoutingPolicy) : PlanningM (Except InferenceError PlanningInput) := do
  let answer : Except InferenceError (List DiscoveredTarget) ← ask (.discover request)
  match answer with
  | .error error => return .error error
  | .ok discovered => do
    let found ← lookupStates identity request discovered
    match found with
    | .error error => return .error error
    | .ok (unavailable, states) => do
      let planned ← planTargets identity request states discovered unavailable
      return planned.map fun (unavailable, candidates) =>
        ⟨request, candidates, ⟨unavailable⟩, policy⟩

end Locus.Runtime
