import Mathlib.Data.Finset.Basic
import Mathlib.Data.String.Basic
import Mathlib.Data.UInt
import Std.Data.ExtTreeMap

/-!
# Targets, requests and reusable state

The canonical data that planning and execution exchange. Identifiers are strings
and sets of kinds are finite sets. Of a request only the parts that planning and
execution read are kept.
-/

namespace Locus.Core

abbrev RequestId := String
abbrev EngineInstanceId := String
abbrev ExecutionTargetId := String
abbrev StoreId := String
abbrev StateId := String
abbrev MaterializationOptionId := String
abbrev ImportId := String
abbrev AttachmentId := String
abbrev StateKind := String
abbrev InputItemId := String

/-- A handle that only the peers of its namespace can interpret. -/
structure OpaqueHandle where
  nameSpace : String
  value : String
  deriving DecidableEq

/-- An engine instance and the generation of its process. -/
structure EngineInstanceRef where
  id : EngineInstanceId
  generation : UInt64
  deriving DecidableEq

/-- What makes two executions of a model interchangeable. -/
structure ModelExecutionIdentity where
  modelRevision : String
  adapterRevision : Option String
  executionProfile : String
  deriving DecidableEq

/-- The part of serving that a target takes. -/
inductive ExecutionRole
  | combined
  | prefill
  | decode
  | namespaced (role : String)
  deriving DecidableEq

/-- How a target is laid out over devices. -/
structure ParallelLayout where
  tensorParallel : UInt16
  pipelineParallel : UInt16
  expertParallel : UInt16
  layoutRevision : String
  deriving DecidableEq

/-- Where a request can run. -/
structure ExecutionTarget where
  id : ExecutionTargetId
  engine : EngineInstanceRef
  model : ModelExecutionIdentity
  role : ExecutionRole
  parallelLayout : ParallelLayout
  residency : String
  capabilityRevision : String
  deriving DecidableEq

/-- One component of the input semantics. -/
structure SemanticComponentIdentity where
  kind : String
  revision : String
  fingerprint : String
  deriving DecidableEq

/-- How the input of a request is to be read. -/
structure InputSemanticIdentity where
  tokenizer : SemanticComponentIdentity
  template : SemanticComponentIdentity
  multimodalPreprocessing : Option SemanticComponentIdentity
  deriving DecidableEq

/-- The kinds of input items. -/
inductive InputKind
  | tokenSequence
  | mediaReference
  | tensorReference
  | preparedInputReference
  | typedMetadata
  | extension (name : String)
  deriving DecidableEq

/-- The value of an input item. Of all but token sequences only the debug text is kept. -/
inductive InputItemValue
  | tokenSequence (tokenIds : List UInt32)
  | other (debugText : String)
  deriving DecidableEq

structure InputItem where
  id : InputItemId
  value : InputItemValue
  deriving DecidableEq

/-- What a request needs from its target. -/
structure CapabilityRequirements where
  inputKinds : Finset InputKind
  requiresIncrementalOutput : Bool
  requiresReasoningDeltas : Bool
  requiresToolCalls : Bool
  requiresStructuredOutput : Bool
  deriving DecidableEq

/-- A typed annotation of the input. -/
structure TypedMetadata where
  typeUrl : String
  fields : Std.ExtTreeMap String String
  deriving DecidableEq

/-- A normalized request. Numbers of the sampling parameters that are floats are known by
their bits. -/
structure CanonicalRequest where
  id : RequestId
  model : ModelExecutionIdentity
  inputSemantics : InputSemanticIdentity
  toolParser : Option SemanticComponentIdentity := none
  requirements : CapabilityRequirements
  items : List InputItem := []
  annotations : List TypedMetadata := []
  maxOutputTokens : Option UInt32 := none
  temperature : Option UInt32 := none
  topP : Option UInt32 := none
  seed : Option UInt64 := none
  stopSequences : List String := []
  deriving DecidableEq

/-- What a target can do. -/
structure EngineCapabilities where
  supportedInputKinds : Finset InputKind
  emitsTokenDeltas : Bool
  emitsTextDeltas : Bool
  emitsReasoningDeltas : Bool
  emitsToolCalls : Bool
  supportsStructuredOutput : Bool
  supportedStateKinds : Finset StateKind
  deriving DecidableEq

/-- Whether a target can serve a request. -/
def EngineCapabilities.satisfies (capabilities : EngineCapabilities)
    (requirements : CapabilityRequirements) : Bool :=
  decide (requirements.inputKinds ⊆ capabilities.supportedInputKinds) &&
  (!requirements.requiresIncrementalOutput ||
    capabilities.emitsTokenDeltas || capabilities.emitsTextDeltas) &&
  (!requirements.requiresReasoningDeltas || capabilities.emitsReasoningDeltas) &&
  (!requirements.requiresToolCalls || capabilities.emitsToolCalls) &&
  (!requirements.requiresStructuredOutput || capabilities.supportsStructuredOutput)

/-- What an engine's telemetry is worth. -/
inductive TelemetryStatus
  | fresh
  | stale
  | unavailable
  deriving DecidableEq

/-- How far an engine's telemetry can be trusted. -/
inductive TelemetryConfidence
  | unknown
  | low
  | medium
  | high
  deriving DecidableEq

/-- An observation of an engine. Pressure on its cache is in ten-thousandths. -/
structure EngineSnapshot where
  targetId : ExecutionTargetId
  ready : Bool
  telemetryStatus : TelemetryStatus := .unavailable
  telemetryConfidence : TelemetryConfidence := .unknown
  telemetrySource : String := ""
  observedAtUnixMillis : UInt64 := 0
  validUntilUnixMillis : UInt64 := 0
  runningRequests : Option UInt64 := none
  waitingRequests : Option UInt64 := none
  estimatedQueueMicros : Option UInt64
  kvCacheUsagePermyriad : Option UInt16 := none
  prefillTokensPerSecond : Option UInt64 := none
  decodeTokensPerSecond : Option UInt64 := none
  observationRevision : UInt64 := 0
  degradedReason : Option String := none
  deriving DecidableEq

/-- `EngineSnapshot::telemetry_is_fresh_at` -/
def EngineSnapshot.telemetryIsFreshAt (snapshot : EngineSnapshot) (nowUnixMillis : UInt64) : Bool :=
  snapshot.telemetryStatus == .fresh &&
  decide (snapshot.observedAtUnixMillis ≤ nowUnixMillis) &&
  decide (nowUnixMillis ≤ snapshot.validUntilUnixMillis)

/-- How much of one input item a state covers. -/
structure ComponentCoverage where
  itemId : InputItemId
  coveredUnits : UInt64
  deriving DecidableEq

/-- Where execution resumes after a state is attached. -/
inductive ResumeCoordinate
  | tokenOffset (itemId : InputItemId) (offset : UInt64)
  | checkpoint (nameSpace : String) (step : UInt64)
  | itemBoundary (itemId : InputItemId)
  | typed (typeUrl value : String)
  deriving DecidableEq

inductive BoundaryCompleteness
  | complete
  | checkpointed
  | partially
  deriving DecidableEq

/-- The part of the input that a state stands for. -/
structure ReusableBoundary where
  coveredComponents : List ComponentCoverage
  resumeCoordinate : ResumeCoordinate
  completeness : BoundaryCompleteness
  validationDigest : String
  deriving DecidableEq

inductive CompatibilityVerdict
  | compatible
  | incompatible
  | unknown
  deriving DecidableEq

/-- The outcome of comparing a state with a request. -/
structure CompatibilityResult where
  verdict : CompatibilityVerdict
  checkedDimensions : List String
  evidence : List String
  requiredConversion : Option String
  deriving DecidableEq

/-- `CompatibilityResult::compatible` -/
def CompatibilityResult.compatible (evidence : String) : CompatibilityResult where
  verdict := .compatible
  checkedDimensions := ["model_execution", "input_semantics"]
  evidence := [evidence]
  requiredConversion := none

/-- `CompatibilityResult::incompatible` -/
def CompatibilityResult.incompatible (evidence : String) : CompatibilityResult where
  verdict := .incompatible
  checkedDimensions := ["model_execution", "input_semantics"]
  evidence := [evidence]
  requiredConversion := none

def CompatibilityResult.isCompatible (result : CompatibilityResult) : Bool :=
  result.verdict == .compatible

/-- What a store is asked for. -/
structure StateRequirement where
  model : ModelExecutionIdentity
  inputSemantics : InputSemanticIdentity
  acceptedStateKinds : Finset StateKind
  inputFingerprint : String
  queryTokenIds : Option (List UInt32)
  tenantScope : Option String
  deriving DecidableEq

/-- A reusable state known to a store. -/
structure StateDescriptor where
  id : StateId
  store : StoreId
  kind : StateKind
  model : ModelExecutionIdentity
  relevantInputSemantics : Option InputSemanticIdentity
  representationRevision : String
  positionalSemantics : Option String
  runtimeCompatibility : Option String
  boundary : ReusableBoundary
  locations : List String
  storeReference : OpaqueHandle
  deriving DecidableEq

inductive StateLocality
  | localState
  | remoteState (topologyPath : String)
  deriving DecidableEq

/-- A way to bring a state to a target. -/
structure MaterializationOption where
  id : MaterializationOptionId
  store : StoreId
  sourceState : StateId
  targetId : ExecutionTargetId
  targetEngine : EngineInstanceRef
  stateKind : StateKind
  locality : StateLocality
  estimatedTransferMicros : UInt64
  optionHandle : OpaqueHandle
  deriving DecidableEq

/-- What an engine is asked to prepare for. -/
structure StateImportSpec where
  sourceState : StateId
  stateKind : StateKind
  boundary : ReusableBoundary
  compatibility : CompatibilityResult
  deriving DecidableEq

/-- `StateImportSpec::from_plan` -/
def StateImportSpec.fromPlan (state : StateDescriptor) (compatibility : CompatibilityResult) :
    StateImportSpec where
  sourceState := state.id
  stateKind := state.kind
  boundary := state.boundary
  compatibility := compatibility

/-- An import that an engine has prepared. Times are in nanoseconds. -/
structure StateImportTarget where
  importId : ImportId
  targetId : ExecutionTargetId
  engine : EngineInstanceRef
  stateKind : StateKind
  sink : OpaqueHandle
  expiresAt : ℕ
  deriving DecidableEq

/-- What a store returns after a transfer. -/
structure TransferReceipt where
  importId : ImportId
  store : StoreId
  bytesTransferred : UInt64
  receipt : OpaqueHandle
  deriving DecidableEq

/-- A committed import, ready to be attached to an execution. -/
structure PreparedStateAttachment where
  id : AttachmentId
  targetId : ExecutionTargetId
  engine : EngineInstanceRef
  stateKind : StateKind
  boundary : ReusableBoundary
  expiresAt : ℕ
  deriving DecidableEq

/-- Why an operation's context ends it. -/
inductive ContextError
  | cancelled
  | deadlineExceeded
  deriving DecidableEq

/-- `u64::MAX` -/
def u64Max : UInt64 := 18446744073709551615

/-- `u64::saturating_add` -/
def saturatingAdd (a b : UInt64) : UInt64 :=
  if a.toNat + b.toNat < 2 ^ 64 then a + b else u64Max

/-- A saturating sum is the smaller one of the sum and the largest number. -/
theorem toNat_saturatingAdd (a b : UInt64) :
    (saturatingAdd a b).toNat = min (a.toNat + b.toNat) (2 ^ 64 - 1) := by
  unfold saturatingAdd
  split_ifs with h
  · rw [UInt64.toNat_add, Nat.mod_eq_of_lt h]
    omega
  · have hmax : u64Max.toNat = 2 ^ 64 - 1 := rfl
    omega

/-- `u64::saturating_sub` -/
def saturatingSub (a b : UInt64) : UInt64 := if b ≤ a then a - b else 0

/-- `u64::saturating_mul` -/
def saturatingMul (a b : UInt64) : UInt64 :=
  if a.toNat * b.toNat < 2 ^ 64 then a * b else u64Max

/-- A saturating difference is the difference of natural numbers. -/
theorem toNat_saturatingSub (a b : UInt64) : (saturatingSub a b).toNat = a.toNat - b.toNat := by
  unfold saturatingSub
  split_ifs with h
  · exact UInt64.toNat_sub_of_le _ _ h
  · rw [UInt64.le_iff_toNat_le] at h
    have hzero : (0 : UInt64).toNat = 0 := rfl
    omega

/-- A saturating product is the smaller one of the product and the largest number. -/
theorem toNat_saturatingMul (a b : UInt64) :
    (saturatingMul a b).toNat = min (a.toNat * b.toNat) (2 ^ 64 - 1) := by
  unfold saturatingMul
  split_ifs with h
  · rw [UInt64.toNat_mul, Nat.mod_eq_of_lt h]
    omega
  · have hmax : u64Max.toNat = 2 ^ 64 - 1 := rfl
    omega

end Locus.Core
