import Locus.Engine.Registry
import Locus.ModelIo.ModelRegistry
import Locus.Runtime.PlanningInput
import Locus.Runtime.Selection

/-!
# Discovery and inventory

A request asks every engine that is ready for its targets and goes on with those of its
model. The list of models and the readiness of the server ask the same engines, but only for
snapshots. An engine that fails is recorded and passed over. The adapters are the environment
of a dialogue.
-/

namespace Locus.Runtime

open Locus.Calibration Locus.Core Locus.Engine Locus.Lib Locus.ModelIo

/-- What the engines are asked. -/
inductive AdapterCall
  | executionTargets (engine : EngineInstanceId)
  | capabilities (engine : EngineInstanceId) (target : ExecutionTarget)
  | snapshot (engine : EngineInstanceId) (target : ExecutionTarget)

/-- What the engines may answer. -/
def AdapterCall.Answer : AdapterCall → Type
  | executionTargets _ => Except EngineError (List ExecutionTarget)
  | capabilities _ _ => Except EngineError EngineCapabilities
  | snapshot _ _ => Except EngineError EngineSnapshot

/-- A conversation with the engines. -/
abbrev AdapterM (α : Type) := Dialogue AdapterCall.Answer α

/-- Ask one engine. -/
abbrev askAdapter (question : AdapterCall) : AdapterM question.Answer :=
  Dialogue.call question

/-- `EngineRegistry::routable_adapters`. An adapter is known by the id of its engine. -/
def routableAdapters (entries : Registry.Entries) : List EngineInstanceId :=
  (entries.toList.filter fun engine => engine.2.lifecycle = .ready).map Prod.fst

section Discover

/-- What was discovered so far, and what failed. -/
structure Found where
  discovered : List DiscoveredTarget := []
  failures : List String := []

/-- A failure is recorded. -/
def Found.fail (found : Found) (error : EngineError) : Found :=
  { found with failures := found.failures ++ [error.text] }

/-- A target was discovered. -/
def Found.add (found : Found) (target : DiscoveredTarget) : Found :=
  { found with discovered := found.discovered ++ [target] }

variable (request : CanonicalRequest)

/-- The inner loop of `discover`, over the targets of one engine. -/
def discoverTargets (engine : EngineInstanceId) :
    List ExecutionTarget → Found → AdapterM Found
  | [], found => return found
  | target :: targets, found =>
    if target.model ≠ request.model then discoverTargets engine targets found
    else do
      let capabilities : Except EngineError EngineCapabilities ←
        askAdapter (.capabilities engine target)
      match capabilities with
      | .error error => discoverTargets engine targets (found.fail error)
      | .ok capabilities => do
        let snapshot : Except EngineError EngineSnapshot ← askAdapter (.snapshot engine target)
        match snapshot with
        | .error error => discoverTargets engine targets (found.fail error)
        | .ok snapshot => discoverTargets engine targets (found.add ⟨target, capabilities, snapshot⟩)

/-- The outer loop of `discover`, over the engines. -/
def discoverEngines : List EngineInstanceId → Found → AdapterM Found
  | [], found => return found
  | engine :: engines, found => do
    let targets : Except EngineError (List ExecutionTarget) ←
      askAdapter (.executionTargets engine)
    match targets with
    | .error error => discoverEngines engines (found.fail error)
    | .ok targets => do
      let found ← discoverTargets request engine targets found
      discoverEngines engines found

/-- Targets in the order of their ids. -/
def sortById (discovered : List DiscoveredTarget) : List DiscoveredTarget :=
  discovered.mergeSort fun left right => decide (left.target.id ≤ right.target.id)

/-- `EngineTargetDiscovery::discover` -/
def discover (entries : Registry.Entries) :
    AdapterM (Except InferenceError (List DiscoveredTarget)) := do
  let found ← discoverEngines request (routableAdapters entries) {}
  if found.discovered.isEmpty ∧ ¬found.failures.isEmpty then
    return .error (.discovery ("; ".intercalate found.failures))
  else return .ok (sortById found.discovered)

end Discover

section Inventory

structure TargetInventory where
  profiles : List ModelProfile
  readyModels : Finset ModelExecutionIdentity := ∅
  observedTargets : ℕ := 0
  readyTargets : ℕ := 0
  failures : List String := []

/-- A failure is recorded. -/
def TargetInventory.fail (inventory : TargetInventory) (failure : String) : TargetInventory :=
  { inventory with failures := inventory.failures ++ [failure] }

/-- A target was observed. -/
def TargetInventory.observe (inventory : TargetInventory) : TargetInventory :=
  { inventory with observedTargets := inventory.observedTargets + 1 }

/-- A target of this model is ready. -/
def TargetInventory.ready (inventory : TargetInventory) (model : ModelExecutionIdentity) :
    TargetInventory :=
  { inventory with
    readyTargets := inventory.readyTargets + 1
    readyModels := insert model inventory.readyModels }

/-- The models of the catalog. -/
def TargetInventory.catalogModels (inventory : TargetInventory) : List ModelExecutionIdentity :=
  inventory.profiles.map fun profile => profile.model

/-- The inner loop of `target_inventory`, over the targets of one engine. -/
def inventoryTargets (engine : EngineInstanceId) :
    List ExecutionTarget → TargetInventory → AdapterM TargetInventory
  | [], inventory => return inventory
  | target :: targets, inventory =>
    let observed := inventory.observe
    if target.model ∉ inventory.catalogModels then
      inventoryTargets engine targets
        (observed.fail ("target " ++ target.id ++ " has no matching semantic profile"))
    else do
      let snapshot : Except EngineError EngineSnapshot ← askAdapter (.snapshot engine target)
      match snapshot with
      | .error error => inventoryTargets engine targets (observed.fail error.text)
      | .ok snapshot =>
        if snapshot.ready then inventoryTargets engine targets (observed.ready target.model)
        else
          inventoryTargets engine targets
            (observed.fail ("target " ++ target.id ++ " is not ready"))

/-- The outer loop of `target_inventory`, over the engines. -/
def inventoryEngines : List EngineInstanceId → TargetInventory → AdapterM TargetInventory
  | [], inventory => return inventory
  | engine :: engines, inventory => do
    let targets : Except EngineError (List ExecutionTarget) ←
      askAdapter (.executionTargets engine)
    match targets with
    | .error error => inventoryEngines engines (inventory.fail error.text)
    | .ok targets => do
      let inventory ← inventoryTargets engine targets inventory
      inventoryEngines engines inventory

variable {Io : Type} (profileOf : Io → ModelProfile) (catalog : ModelRegistry Io)
  (entries : Registry.Entries)

/-- `DefaultInferenceService::target_inventory` -/
def targetInventory : AdapterM TargetInventory :=
  inventoryEngines (routableAdapters entries) { profiles := catalog.profileList }

/-- The profiles of models with a ready target. -/
def TargetInventory.routable (inventory : TargetInventory) : List ModelProfile :=
  inventory.profiles.filter fun profile => profile.model ∈ inventory.readyModels

/-- `DefaultInferenceService::models` -/
def models : AdapterM (List ModelProfile) := do
  let inventory ← targetInventory catalog entries
  return inventory.routable

/-- What a readiness report is made from, apart from the inventory: the mode, the calibrator
unless its lock is poisoned, and whether there is a traffic controller that drains. -/
structure ServiceStatus where
  placementMode : PlacementMode
  calibrator : Option PersistentCalibrator
  trafficDraining : Bool

/-- The status of the calibrator. -/
def ServiceStatus.calibration (status : ServiceStatus) : Except InferenceError CalibrationStatus :=
  match status.calibrator with
  | none => .error (.calibration .lockPoisoned)
  | some calibrator => .ok calibrator.status

structure ReadinessReport where
  modelProfiles : ℕ
  routableModels : ℕ
  requiredModels : ℕ
  readyTargets : ℕ
  observedTargets : ℕ
  placementMode : PlacementMode
  calibrationRevision : UInt64
  calibrationPersistent : Bool
  calibrationPersistenceHealthy : Bool
  trafficDraining : Bool

/-- The report on an inventory with the status of the calibrator. -/
def readinessReport (required : List String) (status : ServiceStatus)
    (inventory : TargetInventory) (calibration : CalibrationStatus) : ReadinessReport where
  modelProfiles := inventory.profiles.length
  routableModels := inventory.routable.length
  requiredModels := required.length
  readyTargets := inventory.readyTargets
  observedTargets := inventory.observedTargets
  placementMode := status.placementMode
  calibrationRevision := calibration.revision
  calibrationPersistent := calibration.persistent
  calibrationPersistenceHealthy := calibration.persistenceHealthy
  trafficDraining := status.trafficDraining

/-- The required models, among these, that have no ready target. -/
def missingModels (inventory : TargetInventory) :
    List String → Except InferenceError (List String)
  | [] => .ok []
  | name :: rest =>
    match catalog.resolve name with
    | .error _ => .error (.discovery ("required model " ++ name ++
        " has no semantic profile: model was not found: " ++ name))
    | .ok modelIo =>
      match missingModels inventory rest with
      | .error error => .error error
      | .ok missing =>
        .ok (if (profileOf modelIo).model ∈ inventory.readyModels then missing
          else name :: missing)

/-- What failed, or that nothing did. -/
def TargetInventory.evidence (inventory : TargetInventory) (otherwise : String) : String :=
  if inventory.failures.isEmpty then otherwise else "; ".intercalate inventory.failures

/-- `readiness` on an inventory. -/
def readinessOf (required : List String) (status : ServiceStatus) (inventory : TargetInventory) :
    Except InferenceError ReadinessReport :=
  if inventory.profiles.isEmpty then
    .error (.discovery "no model profiles are registered")
  else if inventory.readyModels = ∅ then
    .error (.discovery ("no model has a ready execution target; " ++ inventory.evidence
      "no execution target matched a registered semantic profile"))
  else
    match missingModels profileOf catalog inventory required with
    | .error error => .error error
    | .ok missing =>
      if missing.isEmpty then
        status.calibration.map fun calibration =>
          readinessReport required status inventory calibration
      else
        .error (.discovery ("required models without a ready target: " ++
          ", ".intercalate missing ++ "; " ++ inventory.evidence
            "no matching ready execution target was observed"))

/-- `DefaultInferenceService::readiness`. The required models are in order, each one once. -/
def readiness (required : List String) (status : ServiceStatus) :
    AdapterM (Except InferenceError ReadinessReport) := do
  let inventory ← targetInventory catalog entries
  return readinessOf profileOf catalog required status inventory

end Inventory

end Locus.Runtime
