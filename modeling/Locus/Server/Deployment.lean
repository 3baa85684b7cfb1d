import Locus.Engine.Registry
import Locus.Engine.Telemetry
import Locus.ModelIo.HuggingFace
import Locus.ModelIo.ModelRegistry

/-!
# Assembling the server

`build_server` turns a configuration into a model registry and an engine registry. Models are
loaded and registered one by one. Each engine is bound to models of the registry by explicit
mappings, by the older single-model fields, or to all of them. The environment variables are
given; of a secret only whether it can be read matters here.
-/

namespace Locus.Server

open Std (TreeMap TreeSet)
open Locus.Core Locus.Engine Locus.Parser

/-- What reading an environment variable gives. -/
inductive VariableValue
  | value (text : String)
  | notPresent
  | notUnicode
  deriving DecidableEq

inductive ServerError
  | invalidConfig (message : String)
  | missingSecret (name : String)
  | invalidSecret (name : String)
  | modelProfile (error : ModelIo.HuggingFaceModelIoError)
  | modelIo (error : ModelIo.ModelIoError)
  | engine (error : EngineError)
  deriving DecidableEq

structure ModelSettings (Value : Type) where
  aliases : List String
  modelRevision : String
  adapterRevision : Option String := none
  executionProfile : String := "default"
  tokenizerJson : String
  tokenizerRevision : String
  chatTemplate : String
  templateRevision : String
  templateContext : TreeMap String Value := ∅
  addGenerationPrompt : Bool := true
  maxRenderedBytes : ℕ := 4 * 1024 * 1024
  reasoningParser : Option ModelIo.TaggedReasoningParserSpec := none
  toolParser : Option ModelIo.TaggedJsonToolParserSpec := none

structure EngineModelSettings where
  upstreamModel : String
  profile : String
  targetId : Option String := none
  deriving DecidableEq

structure EngineSettings where
  id : String
  generation : UInt64 := 1
  kind : RuntimeFlavor
  baseUrl : String
  apiKeyEnv : Option String := none
  modelMappings : List EngineModelSettings := []
  servedModel : Option String := none
  model : Option String := none
  runtimeVersion : String
  adapterVersion : String
  topology : String := "unspecified"
  hardware : String := "unspecified"
  healthEndpoint : Option String := none
  targetId : Option String := none
  residency : String := "resident"
  capabilityRevision : String := "v1"
  tensorParallel : UInt16 := 1
  pipelineParallel : UInt16 := 1
  expertParallel : UInt16 := 1
  layoutRevision : String := "v1"
  telemetry : RemoteTelemetryConfig := {}
  deriving DecidableEq

/-- A model of an engine, the alias of its profile and the target it becomes. -/
structure ResolvedEngineModel where
  upstreamModel : String
  profile : String
  targetId : String
  deriving DecidableEq

/-- `required` -/
def required (field value : String) : Except ServerError String :=
  if isBlank value then .error (.invalidConfig (field ++ " must not be empty")) else .ok value

/-- `nonzero` -/
def nonzero (field : String) (value : UInt16) : Except ServerError UInt16 :=
  if value = 0 then .error (.invalidConfig (field ++ " must be greater than zero"))
  else .ok value

/-- `resolve_path` -/
def resolvePath (base path : String) : String :=
  if path.toList.head? = some '/' then path
  else if base = "" ∨ base.toList.getLast? = some '/' then base ++ path
  else base ++ "/" ++ path

/-- `resolve_secret` -/
def resolveSecret (environment : String → VariableValue) (name : String) :
    Except ServerError String :=
  if isBlank name then
    .error (.invalidConfig "secret environment variable name must not be empty")
  else
    match environment name with
    | .value text => if text ≠ "" then .ok text else .error (.missingSecret name)
    | .notPresent => .error (.missingSecret name)
    | .notUnicode => .error (.invalidSecret name)

/-- `resolve_optional_secret` -/
def resolveOptionalSecret (environment : String → VariableValue) :
    Option String → Except ServerError (Option String)
  | none => .ok none
  | some name => (resolveSecret environment name).map some

section Models

variable (serde : Serde) (platform : ModelIo.Platform serde.Value) (files : ModelIo.Files)
  (directory : String)

/-- The models that were registered so far, and the executions that their aliases stand for. -/
structure Models where
  registry : ModelIo.ModelRegistry ModelIo.BasicModelIo := {}
  byAlias : TreeMap String ModelExecutionIdentity := ∅

/-- What a configured model is loaded from. -/
def ModelSettings.spec {Value : Type} (settings : ModelSettings Value)
    (identity : ModelExecutionIdentity) : ModelIo.HuggingFaceProfileSpec Value where
  publicAliases := settings.aliases
  model := identity
  tokenizerJson := resolvePath directory settings.tokenizerJson
  tokenizerRevision := settings.tokenizerRevision
  chatTemplate := resolvePath directory settings.chatTemplate
  templateRevision := settings.templateRevision
  templateContext := settings.templateContext
  addGenerationPrompt := settings.addGenerationPrompt
  maxRenderedBytes := settings.maxRenderedBytes
  reasoningParser := settings.reasoningParser
  toolParser := settings.toolParser

/-- The execution of a configured model. -/
def ModelSettings.executionIdentity {Value : Type} (settings : ModelSettings Value) :
    ModelExecutionIdentity :=
  ⟨settings.modelRevision, settings.adapterRevision, settings.executionProfile⟩

/-- One round of the loop over the models. -/
def addModel (models : Models) (settings : ModelSettings serde.Value) :
    Except ServerError Models := do
  let modelRevision ← required "models.model_revision" settings.modelRevision
  let executionProfile ← required "models.execution_profile" settings.executionProfile
  let identity : ModelExecutionIdentity :=
    ⟨modelRevision, settings.adapterRevision, executionProfile⟩
  let modelIo ← (ModelIo.loadHuggingfaceModelIo serde platform files
    (settings.spec directory identity)).mapError .modelProfile
  let registry ← (models.registry.register ModelIo.BasicModelIo.profile modelIo).mapError .modelIo
  return ⟨registry, settings.aliases.foldl (fun byAlias name => byAlias.insert name identity)
    models.byAlias⟩

/-- All models. -/
def buildModels (settings : List (ModelSettings serde.Value)) : Except ServerError Models :=
  settings.foldlM (addModel serde platform files directory) {}

end Models

section Engines

variable (byAlias : TreeMap String ModelExecutionIdentity)

/-- The model of a mapping. -/
def resolveMapping (engine : EngineSettings) (mapping : EngineModelSettings) :
    Except ServerError ResolvedEngineModel := do
  let upstreamModel ← required "engines.model_mappings.upstream_model" mapping.upstreamModel
  let profile ← required "engines.model_mappings.profile" mapping.profile
  let targetId ← match mapping.targetId with
    | some targetId => required "engines.model_mappings.target_id" targetId
    | none => .ok (engine.id ++ "/" ++ upstreamModel)
  return ⟨upstreamModel, profile, targetId⟩

/-- The single model of the older fields. -/
def resolveLegacy (engine : EngineSettings) : Except ServerError ResolvedEngineModel := do
  let upstreamModel ← required "engines.served_model" (engine.servedModel.getD "")
  let profile ← required "engines.model" (engine.model.getD "")
  let targetId ← required "engines.target_id" (engine.targetId.getD "")
  return ⟨upstreamModel, profile, targetId⟩

/-- How many of the older fields are set. -/
def EngineSettings.legacyCount (engine : EngineSettings) : ℕ :=
  [engine.servedModel.isSome, engine.model.isSome, engine.targetId.isSome].countP fun isSet => isSet

/-- The candidates of an engine. -/
def engineCandidates (engine : EngineSettings) : Except ServerError (List ResolvedEngineModel) :=
  if engine.modelMappings ≠ [] then
    engine.modelMappings.mapM (resolveMapping engine)
  else if engine.legacyCount > 0 then
    if engine.legacyCount ≠ 3 then
      .error (.invalidConfig ("engine " ++ engine.id ++
        " legacy served_model, model, and target_id fields must be configured together"))
    else (resolveLegacy engine).map fun model => [model]
  else .ok (byAlias.keys.map fun name => ⟨name, name, engine.id ++ "/" ++ name⟩)

/-- The first model that an earlier one has the upstream name of. -/
def duplicateUpstream : List ResolvedEngineModel → List String → Option String
  | [], _ => none
  | candidate :: rest, names =>
    if candidate.upstreamModel ∈ names then some candidate.upstreamModel
    else duplicateUpstream rest (names ++ [candidate.upstreamModel])

/-- `resolve_engine_models` -/
def resolveEngineModels (engine : EngineSettings) :
    Except ServerError (List ResolvedEngineModel) := do
  if engine.modelMappings ≠ [] ∧ engine.legacyCount > 0 then
    throw (.invalidConfig ("engine " ++ engine.id ++ " cannot combine model_mappings with " ++
      "legacy served_model/model/target_id fields"))
  let candidates ← engineCandidates byAlias engine
  match duplicateUpstream candidates [] with
  | some name => .error (.invalidConfig ("engine " ++ engine.id ++
      " has duplicate upstream model mapping: " ++ name))
  | none => .ok candidates

/-- The target of a binding. -/
def buildTarget (engine : EngineSettings) (reference : EngineInstanceRef)
    (binding : ResolvedEngineModel) : Except ServerError RemoteExecutionTarget := do
  let model ← match byAlias[binding.profile]? with
    | some model => .ok model
    | none => .error (.invalidConfig ("engine " ++ engine.id ++
        " references unknown model profile " ++ binding.profile))
  let tensorParallel ← nonzero "engines.tensor_parallel" engine.tensorParallel
  let pipelineParallel ← nonzero "engines.pipeline_parallel" engine.pipelineParallel
  let expertParallel ← nonzero "engines.expert_parallel" engine.expertParallel
  let layoutRevision ← required "engines.layout_revision" engine.layoutRevision
  let residency ← required "engines.residency" engine.residency
  let capabilityRevision ← required "engines.capability_revision" engine.capabilityRevision
  return {
    servedModel := binding.upstreamModel
    target := {
      id := binding.targetId
      engine := reference
      model := model
      role := .combined
      parallelLayout := ⟨tensorParallel, pipelineParallel, expertParallel, layoutRevision⟩
      residency := residency
      capabilityRevision := capabilityRevision } }

/-- The loop over the bindings of an engine, with the ids of the targets before them. It
returns the ids of all targets. -/
def buildTargets (engine : EngineSettings) (reference : EngineInstanceRef) :
    List ResolvedEngineModel → Finset String →
      Except ServerError (List RemoteExecutionTarget × Finset String)
  | [], targetIds => .ok ([], targetIds)
  | binding :: bindings, targetIds =>
    if binding.targetId ∈ targetIds then
      .error (.invalidConfig ("duplicate execution target id: " ++ binding.targetId))
    else do
      let target ← buildTarget byAlias engine reference binding
      let (targets, targetIds) ← buildTargets engine reference bindings
        (insert binding.targetId targetIds)
      return (target :: targets, targetIds)

/-- `RemoteCompletionAdapter::new` -/
def newAdapter (config : RemoteEngineConfig) (flavor : RuntimeFlavor) :
    Except ServerError RemoteCompletionAdapter :=
  match h : config.validate with
  | .error error => .error (.engine error)
  | .ok () => .ok ⟨config, flavor, h⟩

/-- The engines that were registered so far. -/
structure Engines where
  engineIds : Finset String := ∅
  targetIds : Finset String := ∅
  adapters : TreeMap EngineInstanceId RemoteCompletionAdapter := ∅
  entries : Registry.Entries := ∅

variable (environment : String → VariableValue)

/-- One round of the loop over the engines. -/
def addEngine (engines : Engines) (engine : EngineSettings) : Except ServerError Engines := do
  if engine.id ∈ engines.engineIds then
    throw (.invalidConfig ("duplicate engine id: " ++ engine.id))
  if engine.generation = 0 then
    throw (.invalidConfig ("engine " ++ engine.id ++ " generation must be greater than zero"))
  let id ← required "engines.id" engine.id
  let reference : EngineInstanceRef := ⟨id, engine.generation⟩
  let _ ← required "engines.runtime_version" engine.runtimeVersion
  let _ ← required "engines.adapter_version" engine.adapterVersion
  let _ ← required "engines.topology" engine.topology
  let _ ← required "engines.hardware" engine.hardware
  let bindings ← resolveEngineModels byAlias engine
  let (targets, targetIds) ← buildTargets byAlias engine reference bindings engines.targetIds
  let baseUrl ← required "engines.base_url" engine.baseUrl
  let _ ← resolveOptionalSecret environment engine.apiKeyEnv
  let adapter ← newAdapter
    ⟨baseUrl, ⟨reference, engine.healthEndpoint⟩, targets, engine.telemetry⟩ engine.kind
  let entries ← (Registry.register engines.entries reference).mapError .engine
  return {
    engineIds := insert engine.id engines.engineIds
    targetIds := targetIds
    adapters := engines.adapters.insert id adapter
    entries := entries }

end Engines

/-- The parts of a configuration that models and engines are built from. -/
structure DeploymentConfig (Value : Type) where
  models : List (ModelSettings Value)
  requiredModels : List String := []
  engines : List EngineSettings

/-- The models and engines of a server. -/
structure Deployment where
  models : Models
  requiredModels : List String
  engines : Engines

/-- The required models, each one once and in order. They have to be known. -/
def checkRequired (byAlias : TreeMap String ModelExecutionIdentity) (names : List String) :
    Except ServerError (List String) := do
  let names ← names.mapM (required "required_models")
  let names := (TreeSet.ofList names).toList
  match names.find? fun name => !byAlias.contains name with
  | some name => .error (.invalidConfig
      ("required model references unknown profile alias: " ++ name))
  | none => .ok names

/-- The part of `build_server` that makes the registries. -/
def deploy (serde : Serde) (platform : ModelIo.Platform serde.Value) (files : ModelIo.Files)
    (directory : String) (environment : String → VariableValue)
    (config : DeploymentConfig serde.Value) : Except ServerError Deployment := do
  if config.models = [] then
    throw (.invalidConfig "at least one model must be configured")
  if config.engines = [] then
    throw (.invalidConfig "at least one engine must be configured")
  let models ← buildModels serde platform files directory config.models
  let requiredModels ← checkRequired models.byAlias config.requiredModels
  let engines ← config.engines.foldlM (addEngine models.byAlias environment) {}
  return ⟨models, requiredModels, engines⟩

end Locus.Server
