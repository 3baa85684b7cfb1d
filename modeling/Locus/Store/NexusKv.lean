import Locus.Engine.Adapter
import Locus.Lib.Dialogue

/-!
# The NexusKV store

`NexusKvStore` asks a bridge over HTTP. A lookup registers the handle, the locator and the
tier of what it found under an identifier of the state; an estimate reads them back. The bridge
and the table of records, which all requests share, are the environment of a dialogue.
-/

namespace Locus.Store

open Locus.Core Locus.Engine Locus.Lib

/-- `BRIDGE_SCHEMA` -/
def bridgeSchema : String := "locus.nexuskv-bridge.v1"

/-- `NEXUSKV_SCHEMA` -/
def nexusKvSchema : String := "nexuskv.contract.v1"

/-- The identity of the store. -/
def storeIdentity : StoreId := "locus.nexuskv-bridge"

structure NexusKvStoreConfig where
  baseUrl : String
  apiKey : Option String
  tenant : String
  nameSpace : String
  engineFamily : String
  semanticType : String
  deriving DecidableEq

/-- The characters that `str::trim` removes. -/
def isWhitespace (c : Char) : Bool :=
  (9 ≤ c.toNat && c.toNat ≤ 13) || (0x2000 ≤ c.toNat && c.toNat ≤ 0x200a) ||
  c.toNat ∈ [0x20, 0x85, 0xa0, 0x1680, 0x2028, 0x2029, 0x202f, 0x205f, 0x3000]

/-- `NexusKvStore::new`: the checks of the configuration. -/
def NexusKvStoreConfig.validate (config : NexusKvStoreConfig) : Except StoreError Unit :=
  if config.baseUrl.toList.all isWhitespace then
    .error (.protocol "NexusKV bridge base URL must not be empty")
  else if config.tenant = "" ∨ config.nameSpace = "" then
    .error (.protocol "NexusKV tenant and namespace must not be empty")
  else .ok ()

/-- What a lookup registers about a state. -/
structure NexusStoreRecord where
  sourceState : String
  sourceHandle : String
  sourceLocator : String
  sourceTier : String
  deriving DecidableEq

section Messages

structure LookupIdentity where
  tenant : String
  nameSpace : String
  model : String
  engineFamily : String
  semanticType : String
  tokens : List UInt32
  deriving DecidableEq

structure LookupRequest where
  schemaVersion : String
  nexuskvSchemaVersion : String
  identity : LookupIdentity
  locusModelIdentity : ModelExecutionIdentity
  locusInputSemanticIdentity : InputSemanticIdentity
  inputFingerprint : String
  deriving DecidableEq

structure NexusEntryIdentity where
  keyModel : String
  entryId : String
  generation : UInt32
  lineage : String
  deriving DecidableEq

structure NexusDescriptor where
  schemaVersion : String
  descriptorId : String
  semanticType : String
  granularity : String
  deriving DecidableEq

structure NexusLocation where
  tier : String
  locator : String
  deriving DecidableEq

structure NexusEntry where
  identity : NexusEntryIdentity
  descriptor : NexusDescriptor
  location : NexusLocation
  deriving DecidableEq

structure NexusCompatibility where
  reusable : Bool
  fallbackToRecompute : Bool
  deriving DecidableEq

/-- The identities that the bridge has validated, and its handle for the source. -/
structure LocusValidation where
  modelIdentity : ModelExecutionIdentity
  inputSemanticIdentity : InputSemanticIdentity
  sourceHandle : String
  deriving DecidableEq

structure NexusMatchResult where
  matchedUnits : UInt32
  entry : NexusEntry
  compatibility : NexusCompatibility
  validation : LocusValidation
  deriving DecidableEq

structure LookupResponse where
  schemaVersion : String
  nexuskvSchemaVersion : String
  matchResult : Option NexusMatchResult
  deriving DecidableEq

structure EstimateRequest where
  schemaVersion : String
  sourceState : String
  sourceHandle : String
  sourceLocator : String
  sourceTier : String
  targetId : String
  targetEngineId : String
  targetEngineGeneration : UInt64
  targetResidency : String
  deriving DecidableEq

structure EstimateResponse where
  schemaVersion : String
  optionId : String
  optionHandle : String
  locality : String
  topologyPath : Option String
  estimatedTransferMicros : UInt64
  deriving DecidableEq

structure MaterializeRequest where
  schemaVersion : String
  optionId : String
  optionHandle : String
  importId : String
  targetId : String
  targetEngineId : String
  targetEngineGeneration : UInt64
  sinkNamespace : String
  sinkValue : String
  deriving DecidableEq

structure MaterializeResponse where
  schemaVersion : String
  bytesTransferred : UInt64
  receipt : OpaqueHandle
  evidenceLevel : String
  physicalTransferVerified : Bool
  deriving DecidableEq

/-- How the bridge answers a request: it cannot be reached, it answers with a status that is no
success, its body is no valid response, or it responds. -/
inductive BridgeAnswer (α : Type)
  | sendError (error : String)
  | failure (status : ℕ) (statusText : String) (detail : Option String)
  | invalid (error : String)
  | response (value : α)
  deriving DecidableEq

/-- `NexusKvStore::post`: what becomes of an answer. -/
def BridgeAnswer.result {α : Type} : BridgeAnswer α → Except StoreError α
  | sendError error => .error (.unavailable error)
  | failure status statusText detail =>
    let detail := detail.getD "response body was unavailable"
    if status = 409 then .error (.incompatible detail)
    else if status = 422 then .error (.unsupported detail)
    else if 500 ≤ status ∧ status < 600 then .error (.unavailable detail)
    else .error (.protocol ("bridge returned " ++ statusText ++ ": " ++ detail))
  | invalid error => .error (.protocol ("invalid bridge response: " ++ error))
  | response value => .ok value

/-- Only a response gives a result. -/
theorem BridgeAnswer.result_eq_ok {α : Type} {answer : BridgeAnswer α} {value : α}
    (h : answer.result = .ok value) : answer = .response value := by
  cases answer with
  | sendError error => cases h
  | failure status statusText detail =>
    simp only [BridgeAnswer.result] at h
    split_ifs at h
  | invalid error => cases h
  | response value' =>
    cases h
    rfl

end Messages

section Functions

variable (config : NexusKvStoreConfig)

/-- `store_state_id`. Lengths are in bytes. -/
def storeStateId (tenant nameSpace entryId : String) : StateId :=
  "nexuskv:" ++ toString tenant.utf8ByteSize ++ ":" ++ tenant ++ ":" ++
    toString nameSpace.utf8ByteSize ++ ":" ++ nameSpace ++ ":" ++ entryId

/-- `validate_schema` -/
def validateSchema (bridge nexuskv : String) : Except StoreError Unit :=
  if bridge ≠ bridgeSchema ∨ nexuskv ≠ nexusKvSchema then
    .error (.protocol ("unsupported bridge schemas: bridge=" ++ bridge ++ ", nexuskv=" ++ nexuskv))
  else .ok ()

/-- `LocusValidation::matches` -/
def LocusValidation.matches (validation : LocusValidation) (requirement : StateRequirement) :
    Bool :=
  validation.modelIdentity == requirement.model &&
  validation.inputSemanticIdentity == requirement.inputSemantics

/-- The tenant under which a lookup asks. -/
def lookupTenant (requirement : StateRequirement) : String :=
  requirement.tenantScope.getD config.tenant

/-- What a lookup sends. -/
def lookupRequest (requirement : StateRequirement) (tokens : List UInt32) : LookupRequest where
  schemaVersion := bridgeSchema
  nexuskvSchemaVersion := nexusKvSchema
  identity := {
    tenant := lookupTenant config requirement
    nameSpace := config.nameSpace
    model := requirement.model.modelRevision
    engineFamily := config.engineFamily
    semanticType := config.semanticType
    tokens }
  locusModelIdentity := requirement.model
  locusInputSemanticIdentity := requirement.inputSemantics
  inputFingerprint := requirement.inputFingerprint

/-- What is registered about a match. -/
def NexusMatchResult.record (hit : NexusMatchResult) : NexusStoreRecord where
  sourceState := hit.entry.identity.entryId
  sourceHandle := hit.validation.sourceHandle
  sourceLocator := hit.entry.location.locator
  sourceTier := hit.entry.location.tier

/-- The state that a match stands for. -/
def matchDescriptor (requirement : StateRequirement) (hit : NexusMatchResult) :
    StateDescriptor where
  id := storeStateId (lookupTenant config requirement) config.nameSpace hit.entry.identity.entryId
  store := storeIdentity
  kind := "nexuskv." ++ hit.entry.descriptor.semanticType
  model := requirement.model
  relevantInputSemantics := some requirement.inputSemantics
  representationRevision := hit.entry.descriptor.descriptorId
  positionalSemantics := some hit.entry.descriptor.granularity
  runtimeCompatibility := some config.engineFamily
  boundary := {
    coveredComponents := [⟨"prompt", hit.matchedUnits.toUInt64⟩]
    resumeCoordinate := .tokenOffset "prompt" hit.matchedUnits.toUInt64
    completeness := .complete
    validationDigest := hit.entry.identity.lineage ++ ":" ++
      toString hit.entry.identity.generation.toNat }
  locations := [hit.entry.location.locator]
  storeReference := ⟨"nexuskv.contract.v1.entry", hit.entry.identity.entryId⟩

/-- What a lookup makes of a response: an error, nothing, or a match that it registers. -/
def lookupMatch (requirement : StateRequirement) (response : LookupResponse) :
    Except StoreError (Option NexusMatchResult) := do
  validateSchema response.schemaVersion response.nexuskvSchemaVersion
  match response.matchResult with
  | none => return none
  | some hit =>
    if !hit.validation.matches requirement then
      .error (.incompatible
        "NexusKV bridge did not validate the requested model and input semantics")
    else if !hit.compatibility.reusable || hit.compatibility.fallbackToRecompute then return none
    else if hit.entry.identity.keyModel ≠ requirement.model.modelRevision then
      .error (.incompatible "NexusKV match model does not equal the requested revision")
    else if hit.entry.descriptor.schemaVersion ≠ nexusKvSchema then
      .error (.protocol ("unsupported NexusKV descriptor schema: " ++
        hit.entry.descriptor.schemaVersion))
    else if hit.matchedUnits = 0 then return none
    else if (matchDescriptor config requirement hit).kind ∉ requirement.acceptedStateKinds then
      return none
    else return some hit

/-- What an estimate sends for a registered state. -/
def estimateRequest (record : NexusStoreRecord) (target : ExecutionTarget) : EstimateRequest where
  schemaVersion := bridgeSchema
  sourceState := record.sourceState
  sourceHandle := record.sourceHandle
  sourceLocator := record.sourceLocator
  sourceTier := record.sourceTier
  targetId := target.id
  targetEngineId := target.engine.id
  targetEngineGeneration := target.engine.generation
  targetResidency := target.residency

/-- What an estimate makes of a response. -/
def estimateOptions (state : StateDescriptor) (target : ExecutionTarget)
    (response : EstimateResponse) : Except StoreError (List MaterializationOption) :=
  if response.schemaVersion ≠ bridgeSchema then
    .error (.protocol ("unsupported estimate schema: " ++ response.schemaVersion))
  else
    .ok [{
      id := response.optionId
      store := storeIdentity
      sourceState := state.id
      targetId := target.id
      targetEngine := target.engine
      stateKind := state.kind
      locality := if response.locality = "local" then .localState
        else .remoteState (response.topologyPath.getD "unknown")
      estimatedTransferMicros := response.estimatedTransferMicros
      optionHandle := ⟨"locus.nexuskv-bridge.materialization.v1", response.optionHandle⟩ }]

end Functions

section Checks

/-- The response offers a match that passes all checks of a lookup. -/
structure Offers (requirement : StateRequirement) (response : LookupResponse)
    (hit : NexusMatchResult) : Prop where
  bridge_schema : response.schemaVersion = bridgeSchema
  nexuskv_schema : response.nexuskvSchemaVersion = nexusKvSchema
  found : response.matchResult = some hit
  validated : hit.validation.matches requirement = true
  reusable : hit.compatibility.reusable = true
  no_fallback : hit.compatibility.fallbackToRecompute = false
  model : hit.entry.identity.keyModel = requirement.model.modelRevision
  descriptor_schema : hit.entry.descriptor.schemaVersion = nexusKvSchema
  covers : hit.matchedUnits ≠ 0
  accepted : "nexuskv." ++ hit.entry.descriptor.semanticType ∈ requirement.acceptedStateKinds

variable {config : NexusKvStoreConfig} {requirement : StateRequirement}
  {response : LookupResponse} {hit : NexusMatchResult}

theorem validateSchema_eq_ok_iff {bridge nexuskv : String} :
    validateSchema bridge nexuskv = .ok () ↔ bridge = bridgeSchema ∧ nexuskv = nexusKvSchema := by
  unfold validateSchema
  split_ifs with hdiffers
  · simp only [false_iff]
    tauto
  · simp only [true_iff]
    tauto

/-- A lookup takes what is offered, and nothing else. -/
theorem lookupMatch_eq_some_iff :
    lookupMatch config requirement response = .ok (some hit) ↔
      Offers requirement response hit := by
  constructor
  · intro h
    unfold lookupMatch at h
    cases hschema : validateSchema response.schemaVersion response.nexuskvSchemaVersion with
    | error error =>
      rw [hschema] at h
      cases h
    | ok =>
      obtain ⟨hbridge, hnexuskv⟩ := validateSchema_eq_ok_iff.mp hschema
      rw [hschema] at h
      cases hresult : response.matchResult with
      | none =>
        simp only [hresult] at h
        cases h
      | some found =>
        simp only [hresult] at h
        change (if _ then _ else _) = _ at h
        split_ifs at h with hvalidated hreusable hmodel hdescriptor hunits hkind <;> cases h
        simp only [Bool.not_eq_true', Bool.not_eq_false, Bool.or_eq_true, not_or,
          Bool.not_eq_true] at hvalidated hreusable
        exact ⟨hbridge, hnexuskv, hresult, hvalidated, hreusable.1, hreusable.2,
          not_not.mp hmodel, not_not.mp hdescriptor, hunits, hkind⟩
  · intro h
    have hschema := validateSchema_eq_ok_iff.mpr ⟨h.bridge_schema, h.nexuskv_schema⟩
    have hkind : (matchDescriptor config requirement hit).kind ∈ requirement.acceptedStateKinds :=
      h.accepted
    unfold lookupMatch
    rw [hschema]
    simp only [h.found, h.validated, h.reusable, h.no_fallback, h.model, h.descriptor_schema,
      h.covers, hkind, ne_eq, not_true_eq_false, if_false, Bool.not_true, Bool.or_false,
      Bool.false_eq_true]
    rfl

end Checks

section Operations

/-- What an operation asks of its environment: whether its context is active, a request to the
bridge, or an access to the records, whose lock may be poisoned. -/
inductive StoreCall
  | ensureActive (context : OperationContext)
  | postLookup (request : LookupRequest)
  | register (state : StateId) (record : NexusStoreRecord)
  | readRecord (state : StateId)
  | postEstimate (request : EstimateRequest)
  | postMaterialize (request : MaterializeRequest)

/-- What the environment may answer. The records answer with an error if the lock is
poisoned. -/
def StoreCall.Answer : StoreCall → Type
  | ensureActive _ => Except ContextError Unit
  | postLookup _ => BridgeAnswer LookupResponse
  | register _ _ => Except Unit Unit
  | readRecord _ => Except Unit (Option NexusStoreRecord)
  | postEstimate _ => BridgeAnswer EstimateResponse
  | postMaterialize _ => BridgeAnswer MaterializeResponse

/-- A conversation with the bridge and the records. -/
abbrev StoreM (α : Type) := Dialogue StoreCall.Answer α

/-- Ask one question. -/
abbrev ask (question : StoreCall) : StoreM question.Answer := Dialogue.call question

/-- The error of a poisoned lock. -/
def lockPoisoned : StoreError := .protocol "NexusKV record lock poisoned"

/-- The part of `lookup` after its checks: send, and register what was found. -/
def lookupTokens (config : NexusKvStoreConfig) (requirement : StateRequirement)
    (tokens : List UInt32) : StoreM (Except StoreError (List StateDescriptor)) := do
  let answer : BridgeAnswer LookupResponse ←
    ask (.postLookup (lookupRequest config requirement tokens))
  match answer.result with
  | .error error => return .error error
  | .ok response =>
    match lookupMatch config requirement response with
    | .error error => return .error error
    | .ok none => return .ok []
    | .ok (some hit) => do
      let descriptor := matchDescriptor config requirement hit
      let registered : Except Unit Unit ← ask (.register descriptor.id hit.record)
      match registered with
      | .error () => return .error lockPoisoned
      | .ok () => return .ok [descriptor]

/-- `NexusKvStore::lookup` -/
def lookup (config : NexusKvStoreConfig) (requirement : StateRequirement)
    (context : OperationContext) : StoreM (Except StoreError (List StateDescriptor)) := do
  let active : Except ContextError Unit ← ask (.ensureActive context)
  match active with
  | .error error => return .error (.context error)
  | .ok () =>
    match requirement.queryTokenIds with
    | none => return .error (.unsupported "NexusKV lookup requires canonical token IDs")
    | some tokens => lookupTokens config requirement tokens

/-- `NexusKvStore::estimate` -/
def estimate (state : StateDescriptor) (target : ExecutionTarget) (context : OperationContext) :
    StoreM (Except StoreError (List MaterializationOption)) := do
  let active : Except ContextError Unit ← ask (.ensureActive context)
  match active with
  | .error error => return .error (.context error)
  | .ok () =>
    if state.store ≠ storeIdentity then
      return .error (.incompatible "state belongs to another store")
    else do
      let found : Except Unit (Option NexusStoreRecord) ← ask (.readRecord state.id)
      match found with
      | .error () => return .error lockPoisoned
      | .ok none => return .error (.protocol "unknown NexusKV state record")
      | .ok (some record) => do
        let answer : BridgeAnswer EstimateResponse ←
          ask (.postEstimate (estimateRequest record target))
        return answer.result.bind (estimateOptions state target)

/-- `NexusKvStore::materialize` -/
def materialize (option : MaterializationOption) (target : StateImportTarget)
    (context : OperationContext) : StoreM (Except StoreError TransferReceipt) := do
  let active : Except ContextError Unit ← ask (.ensureActive context)
  match active with
  | .error error => return .error (.context error)
  | .ok () =>
    if option.store ≠ storeIdentity ∨ option.targetId ≠ target.targetId ∨
        option.targetEngine ≠ target.engine ∨ option.stateKind ≠ target.stateKind ∨
        option.optionHandle.nameSpace ≠ "locus.nexuskv-bridge.materialization.v1" then
      return .error (.incompatible
        "NexusKV materialization option does not match the import target")
    else do
      let found : Except Unit (Option NexusStoreRecord) ← ask (.readRecord option.sourceState)
      match found with
      | .error () => return .error lockPoisoned
      | .ok none => return .error (.protocol "unknown NexusKV materialization source")
      | .ok (some _) => do
        let answer : BridgeAnswer MaterializeResponse ← ask (.postMaterialize {
          schemaVersion := bridgeSchema
          optionId := option.id
          optionHandle := option.optionHandle.value
          importId := target.importId
          targetId := target.targetId
          targetEngineId := target.engine.id
          targetEngineGeneration := target.engine.generation
          sinkNamespace := target.sink.nameSpace
          sinkValue := target.sink.value })
        match answer.result with
        | .error error => return .error error
        | .ok response =>
          let protocolOnly := response.receipt.nameSpace = "nexuskv.protocol-transfer-receipt.v1"
          if response.schemaVersion ≠ bridgeSchema then
            return .error (.protocol ("unsupported materialization schema: " ++
              response.schemaVersion))
          else if (response.evidenceLevel = "protocol" ∧
                response.physicalTransferVerified = false ∧ response.bytesTransferred = 0 ∧
                protocolOnly) ∨
              (response.evidenceLevel = "physical" ∧ response.physicalTransferVerified = true ∧
                ¬ protocolOnly) then
            return .ok ⟨target.importId, storeIdentity, response.bytesTransferred,
              response.receipt⟩
          else
            return .error (.protocol
              "NexusKV materialization evidence is internally inconsistent")

end Operations

end Locus.Store
