import Locus.Calibration.State
import Locus.Planner.Plan
import Mathlib.Data.List.Nodup

/-!
# The calibrator and its file

The calibrator keeps its state in memory and writes it to a file after a number of updates,
on `flush`, and before a placement is promoted. The file system may fail at every stage of
a write; only after the rename does the file hold the new bytes. A log beside the two keeps
what no field of the calibrator remembers.
-/

namespace Locus.Calibration

open Locus.Core Locus.Planner

/-- How a state becomes the bytes of a file and back. What was written is read back. -/
structure StateFormat where
  toVecPretty : CalibrationState → Except String (List UInt8)
  fromSlice : List UInt8 → Except String CalibrationState
  round_trip : ∀ {state : CalibrationState} {bytes : List UInt8},
    toVecPretty state = .ok bytes → fromSlice bytes = .ok state

/-- A format that is known on some states only. -/
def StateFormat.ofTable (table : List (CalibrationState × List UInt8))
    (hdistinct : (table.map Prod.snd).Nodup) : StateFormat where
  toVecPretty state := ((table.find? fun entry => decide (entry.1 = state)).map Prod.snd).elim
    (.error "unknown state") .ok
  fromSlice bytes := ((table.find? fun entry => decide (entry.2 = bytes)).map Prod.fst).elim
    (.error "unknown bytes") .ok
  round_trip {state bytes} h := by
    cases hfound : table.find? fun entry => decide (entry.1 = state) with
    | none => simp [hfound] at h
    | some entry =>
      have hmem := List.mem_of_find?_eq_some hfound
      have hstate : entry.1 = state := by simpa using List.find?_some hfound
      have hbytes : entry.2 = bytes := by simpa [hfound] using h
      cases hback : table.find? fun entry => decide (entry.2 = bytes) with
      | none =>
        rw [List.find?_eq_none] at hback
        exact absurd hbytes (by simpa using hback entry hmem)
      | some other =>
        have hother : other.2 = bytes := by simpa using List.find?_some hback
        have hsame : other = entry := List.inj_on_of_nodup_map hdistinct
          (List.mem_of_find?_eq_some hback) hmem (hother.trans hbytes.symm)
        simp [hsame, hstate]

/-- The path of the state file, with its parent unless that is empty, and with the path
that its extension `locus-calibration.tmp` gives. -/
structure StatePath where
  path : String
  parent : Option String
  temporary : String
  deriving DecidableEq

/-- The errors with which the file system answers a read. -/
structure ReadAnswers where
  metadata : Option String := none
  read : Option String := none
  deriving DecidableEq

/-- The errors with which the file system answers the stages of a write. -/
structure WriteAnswers where
  createDir : Option String := none
  writeTemporary : Option String := none
  syncTemporary : Option String := none
  rename : Option String := none
  syncDirectory : Option String := none
  deriving DecidableEq

section Files

variable (format : StateFormat) (policy : CalibrationPolicy)

/-- `load_state` -/
def loadState (path : String) (answers : ReadAnswers) (file : List UInt8) :
    Except CalibrationError CalibrationState :=
  match answers.metadata with
  | some source => .error (.read path source)
  | none =>
    if policy.maxStateBytes < file.length then
      .error (.limit ("state file is " ++ toString file.length ++ " bytes; limit is " ++
        toString policy.maxStateBytes ++ " bytes"))
    else
      match answers.read with
      | some source => .error (.read path source)
      | none =>
        match format.fromSlice file with
        | .error source => .error (.parse path source)
        | .ok state =>
          if state.schemaVersion ≠ schemaVersion then
            .error (.schema schemaVersion state.schemaVersion)
          else if policy.maxRecords < state.records.size then
            .error (.limit ("state has " ++ toString state.records.size ++
              " records; limit is " ++ toString policy.maxRecords))
          else if state.records.toList.any (fun (_, record) =>
              decide (policy.maxMaterializationPathsPerRecord <
                record.materializationRatioBps.size)) then
            .error (.limit ("state exceeds the " ++
              toString policy.maxMaterializationPathsPerRecord ++
              " materialization paths per record limit"))
          else .ok state

/-- `persist_state`: whether the file was replaced, and how the call ends. -/
def persistState (path : StatePath) (answers : WriteAnswers) :
    Bool × Except CalibrationError Unit :=
  match path.parent, answers.createDir with
  | some parent, some source => (false, .error (.write parent source))
  | _, _ =>
    match answers.writeTemporary with
    | some source => (false, .error (.write path.temporary source))
    | none =>
      match answers.syncTemporary with
      | some source => (false, .error (.write path.temporary source))
      | none =>
        match answers.rename with
        | some source => (false, .error (.write path.path source))
        | none =>
          match path.parent, answers.syncDirectory with
          | some parent, some source => (true, .error (.write parent source))
          | _, _ => (true, .ok ())

end Files

structure PersistentCalibrator where
  policy : CalibrationPolicy
  state : CalibrationState
  statePath : Option StatePath
  persistenceHealthy : Bool := true
  dirtyUpdates : UInt64 := 0
  deriving DecidableEq

def PersistentCalibrator.isPersistent (calibrator : PersistentCalibrator) : Bool :=
  calibrator.statePath.isSome

/-- `PersistentCalibrator::load`, for a file system that holds the given bytes at the path. -/
def PersistentCalibrator.load (format : StateFormat) (policy : CalibrationPolicy)
    (statePath : Option StatePath) (answers : ReadAnswers) (file : Option (List UInt8)) :
    Except CalibrationError PersistentCalibrator := do
  policy.validate
  let state ← match statePath, file with
    | some path, some bytes => loadState format policy path.path answers bytes
    | _, _ => pure {}
  return { policy, state, statePath }

/-- What happened to the state and to its file. -/
inductive LogEntry
  | updated
  | replaced (bytes : List UInt8) (state : CalibrationState)
  | persisted
  deriving DecidableEq

/-- A calibrator, the file at its path, and what happened since it was loaded. -/
structure Host where
  calibrator : PersistentCalibrator
  file : Option (List UInt8)
  log : List LogEntry := []
  deriving DecidableEq

namespace Host

def setHealthy (host : Host) (healthy : Bool) : Host :=
  { host with calibrator := { host.calibrator with persistenceHealthy := healthy } }

def setDirty (host : Host) (dirty : UInt64) : Host :=
  { host with calibrator := { host.calibrator with dirtyUpdates := dirty } }

/-- The file is replaced by one that holds the state in memory. -/
def replace (host : Host) (bytes : List UInt8) : Host :=
  { host with
    file := some bytes
    log := host.log ++ [.replaced bytes host.calibrator.state] }

/-- The state in memory is updated. -/
def update (host : Host) (state : CalibrationState) : Host :=
  { host with
    calibrator := { host.calibrator with state := state }
    log := host.log ++ [.updated] }

variable (format : StateFormat) (answers : WriteAnswers)

/-- `persist_locked` -/
def persistLocked (host : Host) : Except CalibrationError Unit × Host :=
  match host.calibrator.statePath with
  | none => (.ok (), host)
  | some path =>
    match format.toVecPretty host.calibrator.state with
    | .error source => (.error (.serialize source), host.setHealthy false)
    | .ok bytes =>
      if host.calibrator.policy.maxStateBytes < bytes.length then
        (.error (.limit ("serialized state is " ++ toString bytes.length ++
          " bytes; limit is " ++ toString host.calibrator.policy.maxStateBytes ++ " bytes")),
          host.setHealthy false)
      else
        let (replaced, result) := persistState path answers
        let host := if replaced then host.replace bytes else host
        match result with
        | .error error => (.error error, host.setHealthy false)
        | .ok () => (.ok (), { host.setHealthy true with log := host.log ++ [.persisted] })

/-- Write the state, and on success count no update as pending. -/
def persistPending (host : Host) : Except CalibrationError Unit × Host :=
  match host.persistLocked format answers with
  | (.error error, host) => (.error error, host)
  | (.ok (), host) => (.ok (), host.setDirty 0)

/-- `commit_update_locked`. The atomic counter wraps around. -/
def commitUpdateLocked (host : Host) : Except CalibrationError Unit × Host :=
  let dirty := host.calibrator.dirtyUpdates + 1
  let host := host.setDirty dirty
  if host.calibrator.isPersistent ∧
      host.calibrator.policy.persistenceFlushEveryUpdates ≤ dirty then
    host.persistPending format answers
  else (.ok (), host)

/-- `record_observation` -/
def recordObservation (host : Host) (observation : CalibrationObservation) :
    Except CalibrationError Unit × Host :=
  let (state, changed) :=
    Calibration.recordObservation host.calibrator.policy observation host.calibrator.state
  if changed then (host.update state).commitUpdateLocked format answers
  else (.ok (), { host with calibrator := { host.calibrator with state := state } })

/-- `record_shadow_decision` -/
def recordShadowDecision (host : Host) (replayConsistent : Bool)
    (legacyFingerprint calibratedFingerprint : String) : Except CalibrationError Unit × Host :=
  (host.update (Calibration.recordShadowDecision host.calibrator.state replayConsistent
    legacyFingerprint calibratedFingerprint)).commitUpdateLocked format answers

/-- `flush` -/
def flush (host : Host) : Except CalibrationError Unit × Host :=
  if ¬ host.calibrator.isPersistent ∨ host.calibrator.dirtyUpdates = 0 then (.ok (), host)
  else host.persistPending format answers

end Host

section Promotion

/-- What a calibrated plan's estimates for a candidate rest on. -/
structure CandidateCalibrationEvidence where
  key : CalibrationKey
  snapshotFresh : Bool
  queueCalibrationRequired : Bool
  usedConservativeQueue : Bool
  usedConservativePrefill : Bool
  usedConservativeDecode : Bool
  revision : UInt64
  deriving DecidableEq

structure PromotionStatus where
  qualified : Bool
  revision : UInt64
  reasons : List String
  deriving DecidableEq

/-- `qualify_metric`: the reasons it adds. -/
def qualifyMetric (metric : Option MetricEstimate) (name : String) (policy : CalibrationPolicy) :
    List String :=
  match metric with
  | none => [name ++ " calibration is missing"]
  | some metric =>
    (if metric.samples < policy.minSamplesPerMetric then
      [name ++ " samples " ++ toString metric.samples.toNat ++ "/" ++
        toString policy.minSamplesPerMetric.toNat] else []) ++
    (if policy.maxMapeBps < metric.mapeBps then
      [name ++ " MAPE " ++ toString metric.mapeBps.toNat ++ " bps exceeds " ++
        toString policy.maxMapeBps.toNat ++ " bps"] else [])

/-- The reasons of `promotion_status` that do not depend on the plan. -/
def sharedReasons (calibrator : PersistentCalibrator) : List String :=
  let policy := calibrator.policy
  let shadow := calibrator.state.shadow
  (if calibrator.isPersistent then [] else ["calibration state is not persistent"]) ++
  (if calibrator.persistenceHealthy then [] else ["calibration persistence is unhealthy"]) ++
  (if shadow.decisions < policy.minShadowDecisions then
    ["shadow decisions " ++ toString shadow.decisions.toNat ++ "/" ++
      toString policy.minShadowDecisions.toNat] else []) ++
  (if shadow.decisions ≠ 0 ∧
      saturatingMul shadow.agreements 10000 / shadow.decisions < policy.minShadowAgreementBps then
    ["shadow agreement " ++
      toString (saturatingMul shadow.agreements 10000 / shadow.decisions).toNat ++
      " bps is below " ++ toString policy.minShadowAgreementBps.toNat ++ " bps"] else []) ++
  (if 0 < shadow.replayMismatches then
    ["deterministic replay mismatches: " ++ toString shadow.replayMismatches.toNat] else [])

/-- The reasons of `promotion_status` that are about the selected target. -/
def targetReasons (calibrator : PersistentCalibrator) (plan : PlacementPlan)
    (evidence : CandidateCalibrationEvidence) : List String :=
  let policy := calibrator.policy
  let record := calibrator.state.records[evidence.key.stableId]?
  (if evidence.snapshotFresh then []
    else ["selected target telemetry is stale or unavailable"]) ++
  qualifyMetric (record.map (·.prefillMicrosPerToken)) "prefill" policy ++
  qualifyMetric (record.map (·.decodeMicrosPerToken)) "decode" policy ++
  (if evidence.queueCalibrationRequired then
    qualifyMetric (record.map (·.queueMicrosPerWaitingRequest)) "queue" policy else []) ++
  match plan.path with
  | .cold => []
  | .reuse reuse =>
    qualifyMetric (record.map (·.topologyMicros)) "topology" policy ++
    qualifyMetric (record.bind fun record => record.materializationRatioBps[materializationKey
      reuse.option.store reuse.option.stateKind plan.target.id]?) "materialization" policy

/-- `promotion_status` -/
def Host.promotionStatus (format : StateFormat) (answers : WriteAnswers) (host : Host)
    (plan : PlacementPlan) (evidence : Option CandidateCalibrationEvidence) :
    Except CalibrationError PromotionStatus × Host :=
  let revision := host.calibrator.state.revision
  let reasons := sharedReasons host.calibrator
  match evidence with
  | none =>
    (.ok { qualified := false, revision,
           reasons := reasons ++ ["selected target has no calibration evidence"] }, host)
  | some evidence =>
    let reasons := reasons ++ targetReasons host.calibrator plan evidence
    let qualified := reasons.isEmpty
    if qualified ∧ 0 < host.calibrator.dirtyUpdates then
      match host.persistPending format answers with
      | (.error error, host) => (.error error, host)
      | (.ok (), host) => (.ok { qualified, revision, reasons }, host)
    else (.ok { qualified, revision, reasons }, host)

end Promotion

structure CalibrationStatus where
  revision : UInt64
  persistent : Bool
  persistenceHealthy : Bool
  dirtyUpdates : UInt64
  shadowDecisions : UInt64
  shadowAgreements : UInt64
  replayMismatches : UInt64
  deriving DecidableEq

/-- `PersistentCalibrator::status`, for a lock that is not poisoned. -/
def PersistentCalibrator.status (calibrator : PersistentCalibrator) : CalibrationStatus where
  revision := calibrator.state.revision
  persistent := calibrator.isPersistent
  persistenceHealthy := calibrator.persistenceHealthy
  dirtyUpdates := calibrator.dirtyUpdates
  shadowDecisions := calibrator.state.shadow.decisions
  shadowAgreements := calibrator.state.shadow.agreements
  replayMismatches := calibrator.state.shadow.replayMismatches

/-- The calls that use the state, with what the file system answers during each. -/
inductive Call
  | recordObservation (answers : WriteAnswers) (observation : CalibrationObservation)
  | recordShadowDecision (answers : WriteAnswers) (replayConsistent : Bool)
      (legacyFingerprint calibratedFingerprint : String)
  | promotionStatus (answers : WriteAnswers) (plan : PlacementPlan)
      (evidence : Option CandidateCalibrationEvidence)
  | flush (answers : WriteAnswers)
  deriving DecidableEq

/-- What a call does. -/
def Host.perform (format : StateFormat) (host : Host) : Call → Host
  | .recordObservation answers observation =>
    (host.recordObservation format answers observation).2
  | .recordShadowDecision answers replayConsistent legacyFingerprint calibratedFingerprint =>
    (host.recordShadowDecision format answers replayConsistent legacyFingerprint
      calibratedFingerprint).2
  | .promotionStatus answers plan evidence =>
    (host.promotionStatus format answers plan evidence).2
  | .flush answers => (host.flush format answers).2

/-- Whether a call updates the state. -/
def Call.updates : Call → Prop
  | .recordObservation _ observation => observation.completed ∧ observation.hasSample
  | .recordShadowDecision .. => True
  | .promotionStatus .. | .flush _ => False

/-- The steps of a host: each call is one. -/
def callStep (format : StateFormat) (host : Host) (call : Call) (next : Host) : Prop :=
  next = host.perform format call

end Locus.Calibration
