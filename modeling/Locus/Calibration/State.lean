import Locus.Core.Execution
import Locus.Lib.BoundedMap
import Locus.Lib.Least
import Mathlib.Data.Prod.Lex

/-!
# The calibration state and its updates

What the calibrator has learned: for each engine, generation and model the estimates of
the unit costs with their errors, and the evidence from shadow decisions. An update is
computed under the state lock; whether it is then written to a file is left to the
calibrator. Maps are extensional, so that equal contents are equal states.
-/

namespace Locus.Calibration

open Std (ExtTreeMap)
open Locus.Core Locus.Lib

/-- The operator's limits and thresholds. Cardinality limits are natural numbers. -/
structure CalibrationPolicy where
  ewmaAlphaBps : UInt32 := 1250
  minSamplesPerMetric : UInt64 := 32
  maxMapeBps : UInt64 := 2500
  minShadowDecisions : UInt64 := 128
  minShadowAgreementBps : UInt64 := 9500
  conservativeQueueMicros : UInt64 := 5000000
  conservativeQueueMicrosPerWaitingRequest : UInt64 := 1000000
  conservativePrefillMicrosPerToken : UInt64 := 100
  conservativeDecodeMicrosPerToken : UInt64 := 1000
  conservativeMaterializationRatioBps : UInt64 := 15000
  conservativeTopologyMicros : UInt64 := 0
  maxUnitMicros : UInt64 := 60000000
  maxMaterializationRatioBps : UInt64 := 100000
  persistenceFlushEveryUpdates : UInt64 := 16
  maxRecords : ℕ := 4096
  maxMaterializationPathsPerRecord : ℕ := 256
  maxStateBytes : ℕ := 33554432
  deriving DecidableEq

/-- How an operation of the calibrator fails. Errors of the file system and of the format
are known by their texts. -/
inductive CalibrationError
  | invalidPolicy
  | lockPoisoned
  | read (path source : String)
  | parse (path source : String)
  | schema (expected actual : String)
  | serialize (source : String)
  | write (path source : String)
  | limit (message : String)
  deriving DecidableEq

/-- `CalibrationPolicy::validate` -/
def CalibrationPolicy.validate (policy : CalibrationPolicy) : Except CalibrationError Unit :=
  if policy.ewmaAlphaBps = 0 ∨ policy.ewmaAlphaBps > 10000 ∨ policy.minSamplesPerMetric = 0 ∨
      policy.maxMapeBps = 0 ∨ policy.minShadowDecisions = 0 ∨ policy.minShadowAgreementBps = 0 ∨
      policy.minShadowAgreementBps > 10000 ∨ policy.conservativeQueueMicros = 0 ∨
      policy.conservativeQueueMicrosPerWaitingRequest = 0 ∨
      policy.conservativePrefillMicrosPerToken = 0 ∨ policy.conservativeDecodeMicrosPerToken = 0 ∨
      policy.conservativeMaterializationRatioBps < 10000 ∨ policy.maxUnitMicros = 0 ∨
      policy.maxMaterializationRatioBps < policy.conservativeMaterializationRatioBps ∨
      policy.persistenceFlushEveryUpdates = 0 ∨ policy.maxRecords = 0 ∨
      policy.maxMaterializationPathsPerRecord = 0 ∨ policy.maxStateBytes = 0 then
    .error .invalidPolicy
  else .ok ()

section Keys

/-- The escape of one character in a JSON string. -/
def jsonChar (c : Char) : String :=
  if c = '\"' then "\\\""
  else if c = '\\' then "\\\\"
  else if c = '\n' then "\\n"
  else if c = '\r' then "\\r"
  else if c = '\t' then "\\t"
  else if c.toNat = 8 then "\\b"
  else if c.toNat = 12 then "\\f"
  else if c.toNat < 32 then
    "\\u00" ++ String.ofList [(c.toNat / 16).digitChar, (c.toNat % 16).digitChar]
  else c.toString

/-- A JSON string. -/
def jsonString (text : String) : String :=
  "\"" ++ String.join (text.toList.map jsonChar) ++ "\""

/-- What an estimate is learned for. -/
structure CalibrationKey where
  engineId : String
  engineGeneration : UInt64
  modelRevision : String
  adapterRevision : Option String
  executionProfile : String
  deriving DecidableEq

/-- `CalibrationKey::from_target` -/
def CalibrationKey.fromTarget (target : ExecutionTarget) : CalibrationKey where
  engineId := target.engine.id
  engineGeneration := target.engine.generation
  modelRevision := target.model.modelRevision
  adapterRevision := target.model.adapterRevision
  executionProfile := target.model.executionProfile

/-- The key of a record: the JSON text of the five parts. -/
def CalibrationKey.stableId (key : CalibrationKey) : String :=
  "[" ++ jsonString key.engineId ++ "," ++ toString key.engineGeneration.toNat ++ "," ++
    jsonString key.modelRevision ++ "," ++ (key.adapterRevision.map jsonString).getD "null" ++
    "," ++ jsonString key.executionProfile ++ "]"

/-- `materialization_key` -/
def materializationKey (store stateKind targetId : String) : String :=
  "[" ++ jsonString store ++ "," ++ jsonString stateKind ++ "," ++ jsonString targetId ++ "]"

end Keys

/-- How long a transfer took, against the store's estimate. -/
structure MaterializationObservation where
  store : String
  stateKind : String
  targetId : String
  estimatedMicros : UInt64
  actualMicros : UInt64
  deriving DecidableEq

/-- What was measured while one request was served. -/
structure CalibrationObservation where
  key : CalibrationKey
  waitingRequests : Option UInt64 := none
  inputTokens : UInt64 := 0
  outputTokens : UInt64 := 0
  timeToFirstTokenMicros : Option UInt64 := none
  generationMicros : Option UInt64 := none
  topologyMicros : Option UInt64 := none
  materialization : Option MaterializationObservation := none
  completed : Bool := true
  deriving DecidableEq

/-- A moving average and the moving average of its relative error. -/
structure MetricEstimate where
  estimate : UInt64 := 0
  samples : UInt64 := 0
  mapeBps : UInt64 := 0
  deriving DecidableEq

/-- What is known about one engine and model. -/
structure CalibrationRecord where
  lastUpdatedRevision : UInt64 := 0
  queueMicrosPerWaitingRequest : MetricEstimate := {}
  prefillMicrosPerToken : MetricEstimate := {}
  decodeMicrosPerToken : MetricEstimate := {}
  topologyMicros : MetricEstimate := {}
  materializationRatioBps : ExtTreeMap String MetricEstimate := ∅
  deriving DecidableEq

/-- How often the calibrated plan was compared with the legacy plan, and with what result. -/
structure ShadowEvidence where
  decisions : UInt64 := 0
  agreements : UInt64 := 0
  replayMismatches : UInt64 := 0
  deriving DecidableEq

/-- `SCHEMA_VERSION` -/
def schemaVersion : String := "locus.calibration-state.v1"

/-- Everything the calibrator remembers. -/
structure CalibrationState where
  schemaVersion : String := Calibration.schemaVersion
  revision : UInt64 := 0
  records : ExtTreeMap String CalibrationRecord := ∅
  shadow : ShadowEvidence := {}
  deriving DecidableEq

section Metrics

/-- `weighted_average`. The products of a word and at most 10000 fit 128 bits. -/
def weightedAverage (previous sample alphaBps : UInt64) : UInt64 :=
  let retained := saturatingSub 10000 alphaBps
  let total := (previous.toNat * retained.toNat + sample.toNat * alphaBps.toNat) / 10000
  if total < 2 ^ 64 then UInt64.ofNat total else u64Max

/-- `u64::abs_diff` -/
def absDiff (a b : UInt64) : UInt64 := if a ≤ b then b - a else a - b

/-- `u64::clamp` for a lower bound that does not exceed the upper one. -/
def clamp (value low high : UInt64) : UInt64 :=
  if value < low then low else if high < value then high else value

/-- `MetricEstimate::update` -/
def MetricEstimate.update (metric : MetricEstimate) (sample : UInt64) (policy : CalibrationPolicy)
    (maximum : UInt64) : MetricEstimate :=
  let sample := clamp sample 1 maximum
  if metric.samples = 0 then { estimate := sample, mapeBps := 0, samples := 1 }
  else
    let errorBps := saturatingMul (absDiff metric.estimate sample) 10000 / max sample 1
    { estimate := weightedAverage metric.estimate sample policy.ewmaAlphaBps.toUInt64
      mapeBps := weightedAverage metric.mapeBps errorBps policy.ewmaAlphaBps.toUInt64
      samples := saturatingAdd metric.samples 1 }

/-- `MetricEstimate::value_or` -/
def MetricEstimate.valueOr (metric : MetricEstimate) (fallback : UInt64) : UInt64 :=
  if metric.samples = 0 then fallback else metric.estimate

end Metrics

section Observing

variable (policy : CalibrationPolicy) (observation : CalibrationObservation)

/-- The test that lets `record_observation` pass an observation on. -/
def CalibrationObservation.hasSample : Bool :=
  (observation.timeToFirstTokenMicros.any fun _ =>
    decide (0 < observation.inputTokens) && observation.waitingRequests.isSome) ||
  (observation.generationMicros.any fun _ => decide (0 < observation.outputTokens)) ||
  observation.topologyMicros.isSome ||
  (observation.materialization.any fun materialization =>
    decide (0 < materialization.estimatedMicros))

/-- What `min_by_key` compares: the last update, then the key. -/
def recordAge (entry : String × CalibrationRecord) : ℕ ×ₗ String :=
  toLex (entry.2.lastUpdatedRevision.toNat, entry.1)

/-- The key of the record whose last update is the oldest. -/
def oldestRecord (records : ExtTreeMap String CalibrationRecord) : Option String :=
  (records.toList.foldl (keepLess recordAge) none).map Prod.fst

/-- `ensure_record_capacity` -/
def ensureRecordCapacity (records : ExtTreeMap String CalibrationRecord) (incoming : String)
    (maximum : ℕ) : ExtTreeMap String CalibrationRecord :=
  makeRoom oldestRecord records incoming maximum

/-- The first branch: the time to the first token of an idle engine measures its prefill,
that of a busy one what is left for each waiting request. -/
def observeFirstToken (record : CalibrationRecord) : CalibrationRecord × Bool :=
  match observation.timeToFirstTokenMicros with
  | none => (record, false)
  | some ttft =>
    if 0 < observation.inputTokens then
      match observation.waitingRequests with
      | none => (record, false)
      | some waiting =>
        if waiting = 0 then
          let sample := ttft / max observation.inputTokens 1
          ({ record with
            prefillMicrosPerToken :=
              record.prefillMicrosPerToken.update sample policy policy.maxUnitMicros }, true)
        else
          let prefillUnit :=
            record.prefillMicrosPerToken.valueOr policy.conservativePrefillMicrosPerToken
          let prefill := saturatingMul observation.inputTokens prefillUnit
          let residual := saturatingSub ttft prefill
          ({ record with
            queueMicrosPerWaitingRequest := record.queueMicrosPerWaitingRequest.update
              (residual / waiting) policy policy.maxUnitMicros }, true)
    else (record, false)

/-- The second branch: the time between tokens. -/
def observeDecode (record : CalibrationRecord) : CalibrationRecord × Bool :=
  match observation.generationMicros with
  | none => (record, false)
  | some generationMicros =>
    if 0 < observation.outputTokens then
      ({ record with
        decodeMicrosPerToken := record.decodeMicrosPerToken.update
          (generationMicros / observation.outputTokens) policy policy.maxUnitMicros }, true)
    else (record, false)

/-- The third branch: the overhead of an import. -/
def observeTopology (record : CalibrationRecord) : CalibrationRecord × Bool :=
  match observation.topologyMicros with
  | none => (record, false)
  | some topologyMicros =>
    ({ record with
      topologyMicros := record.topologyMicros.update topologyMicros policy policy.maxUnitMicros },
      true)

/-- Make room for one more path: the least key goes. -/
def ensurePathCapacity (paths : ExtTreeMap String MetricEstimate) (incoming : String)
    (maximum : ℕ) : ExtTreeMap String MetricEstimate :=
  makeRoom (fun paths => paths.keys.head?) paths incoming maximum

/-- The fourth branch: the time of a transfer against the store's estimate. -/
def observeMaterialization (record : CalibrationRecord) : CalibrationRecord × Bool :=
  match observation.materialization with
  | none => (record, false)
  | some materialization =>
    if 0 < materialization.estimatedMicros then
      let stableId := materializationKey materialization.store materialization.stateKind
        materialization.targetId
      let paths := ensurePathCapacity record.materializationRatioBps stableId
        policy.maxMaterializationPathsPerRecord
      let ratioBps :=
        saturatingMul materialization.actualMicros 10000 / materialization.estimatedMicros
      ({ record with
        materializationRatioBps := paths.insert stableId ((paths[stableId]?.getD {}).update
          ratioBps policy policy.maxMaterializationRatioBps) }, true)
    else (record, false)

/-- The four branches in order, with whether any of them changed the record. -/
def observeRecord (record : CalibrationRecord) : CalibrationRecord × Bool :=
  let first := observeFirstToken policy observation record
  let second := observeDecode policy observation first.1
  let third := observeTopology policy observation second.1
  let fourth := observeMaterialization policy observation third.1
  (fourth.1, first.2 || second.2 || third.2 || fourth.2)

/-- `record_observation` up to committing the update, with whether there is one. -/
def recordObservation (state : CalibrationState) : CalibrationState × Bool :=
  if !observation.completed || !observation.hasSample then (state, false)
  else
    let stableId := observation.key.stableId
    let records := ensureRecordCapacity state.records stableId policy.maxRecords
    let nextRevision := saturatingAdd state.revision 1
    let (record, changed) := observeRecord policy observation (records[stableId]?.getD {})
    if changed then
      ({ state with
        revision := nextRevision
        records := records.insert stableId { record with lastUpdatedRevision := nextRevision } },
        true)
    else ({ state with records := records.insert stableId record }, false)

/-- `record_shadow_decision` up to committing the update. -/
def recordShadowDecision (state : CalibrationState) (replayConsistent : Bool)
    (legacyFingerprint calibratedFingerprint : String) : CalibrationState :=
  { state with
    revision := saturatingAdd state.revision 1
    shadow := {
      decisions := saturatingAdd state.shadow.decisions 1
      agreements := if legacyFingerprint = calibratedFingerprint then
        saturatingAdd state.shadow.agreements 1 else state.shadow.agreements
      replayMismatches := if replayConsistent then state.shadow.replayMismatches
        else saturatingAdd state.shadow.replayMismatches 1 } }

end Observing

end Locus.Calibration
