import Locus.Calibration.Apply
import Locus.Calibration.Demotion
import Locus.Core.Events
import Locus.Planner.Executor

/-!
# What the calibrator learns about prefill

When an engine finishes a request, the service turns what it measured into an observation. On an
idle engine the time to the first token is divided by all input tokens, also if a reused state
covered some of them. So the estimate is the true time for one token as long as nothing was
covered, and too small afterwards.
-/

namespace Locus.Runtime

open Std (ExtTreeMap)
open Locus.Core Locus.Planner Locus.Calibration Locus.Lib

section Observation

/-- What `infer` knows about an execution when the engine has finished. Clock readings are in
nanoseconds. -/
structure FinishedExecution where
  planningInput : PlanningInput
  plan : PlacementPlan
  plannedAtUnixMillis : UInt64
  executionStarted : ℕ
  firstOutputAt : Option ℕ
  finishedAt : ℕ
  metadata : PlanExecutionMetadata
  reason : EngineFinishReason
  usage : Usage

namespace FinishedExecution

variable (execution : FinishedExecution)

def observationKey : CalibrationKey := CalibrationKey.fromTarget execution.plan.target

/-- The waiting requests of the chosen target, if its telemetry is fresh. -/
def waitingRequests : Option UInt64 :=
  (execution.planningInput.candidates.find? fun candidate =>
    candidate.target.id == execution.plan.target.id).bind fun candidate =>
      if candidate.snapshot.telemetryIsFreshAt execution.plannedAtUnixMillis then
        candidate.snapshot.waitingRequests
      else none

/-- The time to the first token, net of the transfer of a state. -/
def netFirstTokenMicros : Option UInt64 :=
  execution.firstOutputAt.map fun first =>
    saturatingSub (elapsedMicros execution.executionStarted first)
      ((execution.metadata.materialization.map (·.actualMicros)).getD 0)

def completed : Bool :=
  match execution.reason with
  | .cancelled | .error => false
  | _ => true

/-- The observation that `infer` records. -/
def observation : CalibrationObservation where
  key := execution.observationKey
  waitingRequests := execution.waitingRequests
  inputTokens := execution.usage.inputTokens
  outputTokens := saturatingSub execution.usage.outputTokens 1
  timeToFirstTokenMicros :=
    if execution.metadata.fallbackUsed then none else execution.netFirstTokenMicros
  generationMicros := execution.firstOutputAt.map fun first =>
    elapsedMicros first execution.finishedAt
  topologyMicros := execution.metadata.topologyMicros
  materialization := execution.metadata.materialization.map fun timing =>
    { store := timing.store
      stateKind := timing.stateKind
      targetId := timing.targetId
      estimatedMicros := timing.storeEstimatedMicros
      actualMicros := timing.actualMicros }
  completed := execution.completed

end FinishedExecution

/-- What happens to the calibrator while requests are served. -/
inductive ServiceMove
  | finished (answers : WriteAnswers) (execution : FinishedExecution)
  | shadowDecision (answers : WriteAnswers) (replayConsistent : Bool)
      (legacyFingerprint calibratedFingerprint : String)
  | promotionStatus (answers : WriteAnswers) (plan : PlacementPlan)
      (evidence : Option CandidateCalibrationEvidence)
  | flush (answers : WriteAnswers)

/-- The call of the calibrator. -/
def ServiceMove.call : ServiceMove → Call
  | finished answers execution => .recordObservation answers execution.observation
  | shadowDecision answers replayConsistent legacyFingerprint calibratedFingerprint =>
    .recordShadowDecision answers replayConsistent legacyFingerprint calibratedFingerprint
  | promotionStatus answers plan evidence => .promotionStatus answers plan evidence
  | flush answers => .flush answers

/-- The calibrator after some moves. -/
def serve (format : StateFormat) (host : Host) (moves : List ServiceMove) : Host :=
  moves.foldl (fun host move => host.perform format move.call) host

end Observation

section Property

/-- The input units that a state covers, as a word. -/
def coveredUnits (state : StateDescriptor) : UInt64 :=
  (state.boundary.coveredComponents.map (·.coveredUnits)).sum

/-- The units that were covered when a request was executed. -/
def FinishedExecution.covered (execution : FinishedExecution) : UInt64 :=
  match execution.metadata.executedPath, execution.plan.path with
  | .reuse, .reuse reuse => coveredUnits reuse.state
  | _, _ => 0

/-- A completed request on an idle engine that takes the same time for each uncovered token. -/
structure FinishedExecution.Exact (unitMicros : UInt64) (execution : FinishedExecution) : Prop where
  completed : execution.completed = true
  idle : execution.waitingRequests = some 0
  timed : ∃ micros, execution.netFirstTokenMicros = some micros ∧ micros.toNat =
    unitMicros.toNat * (execution.usage.inputTokens.toNat - execution.covered.toNat)

/-- The request gives a sample of the prefill time. -/
def FinishedExecution.Measured (execution : FinishedExecution) : Prop :=
  execution.metadata.fallbackUsed = false ∧ 0 < execution.usage.inputTokens

/-- The prefill estimate that is recorded for an engine, if there is one. -/
def recordedPrefill (state : CalibrationState) (key : CalibrationKey) : Option UInt64 :=
  ((state.records[key.stableId]?.map (·.prefillMicrosPerToken)).filter
    (fun metric => decide (0 < metric.samples))).map (·.estimate)

/-- On candidates with this key, `apply` predicts the prefill that each path takes. A prediction
that does not fit a word is cut off. -/
def PredictsPrefill (calibrator : PersistentCalibrator) (key : CalibrationKey)
    (unitMicros : UInt64) : Prop :=
  ∀ (input : PlanningInput) (nowUnixMillis : UInt64) (candidate : PlanningCandidate),
    CalibrationKey.fromTarget candidate.target = key →
    let context := calibrator.contextFor input nowUnixMillis
    (calibrateCandidate context candidate).coldEstimate.unmatchedPrefillMicros.toNat =
        min (unitMicros.toNat * (Calibration.inputTokenCount input).toNat) (2 ^ 64 - 1) ∧
      ∀ statePath : StatePathCandidate,
        (calibrateStatePath context candidate statePath).estimate.unmatchedPrefillMicros.toNat =
          min (unitMicros.toNat * ((Calibration.inputTokenCount input).toNat -
            (coveredUnits statePath.state).toNat)) (2 ^ 64 - 1)

/-- After some moves the recorded estimate is the true time for one token. There is one if the
last move was a measured request, and with it all predictions are right. -/
structure SelfConsistent (key : CalibrationKey) (unitMicros : UInt64) (moves : List ServiceMove)
    (host : Host) : Prop where
  estimate : ∀ recorded, recordedPrefill host.calibrator.state key = some recorded →
    recorded = unitMicros
  learned : ∀ front answers execution, moves = front ++ [.finished answers execution] →
    execution.observationKey.stableId = key.stableId → execution.Measured →
      recordedPrefill host.calibrator.state key = some unitMicros
  predicts : (recordedPrefill host.calibrator.state key).isSome →
    PredictsPrefill host.calibrator key unitMicros

end Property

section Samples

variable {policy : CalibrationPolicy} {unitMicros : UInt64} {execution : FinishedExecution}
  {record : CalibrationRecord} {metric : MetricEstimate} {state : CalibrationState}
  {key : CalibrationKey}

/-- The sample that a measured request gives. -/
def FinishedExecution.prefillSample (execution : FinishedExecution) : UInt64 :=
  (execution.netFirstTokenMicros.getD 0) / max execution.usage.inputTokens 1

/-- Only the first branch of an observation touches the prefill. -/
theorem prefill_observeRecord (policy : CalibrationPolicy) (observation : CalibrationObservation)
    (record : CalibrationRecord) :
    (observeRecord policy observation record).1.prefillMicrosPerToken =
      (observeFirstToken policy observation record).1.prefillMicrosPerToken := by
  have hdecode (record : CalibrationRecord) :
      (observeDecode policy observation record).1.prefillMicrosPerToken =
        record.prefillMicrosPerToken := by
    unfold observeDecode
    split
    · rfl
    · split <;> rfl
  have htopology (record : CalibrationRecord) :
      (observeTopology policy observation record).1.prefillMicrosPerToken =
        record.prefillMicrosPerToken := by
    unfold observeTopology
    split <;> rfl
  have hmaterialization (record : CalibrationRecord) :
      (observeMaterialization policy observation record).1.prefillMicrosPerToken =
        record.prefillMicrosPerToken := by
    unfold observeMaterialization
    split
    · rfl
    · split <;> rfl
  simp only [observeRecord, hmaterialization, htopology, hdecode]

/-- A measured request updates the prefill metric with its sample. -/
theorem prefill_of_measured (hexact : execution.Exact unitMicros) (hmeasured : execution.Measured) :
    (observeRecord policy execution.observation record).1.prefillMicrosPerToken =
      record.prefillMicrosPerToken.update execution.prefillSample policy policy.maxUnitMicros := by
  obtain ⟨micros, hmicros, -⟩ := hexact.timed
  rw [prefill_observeRecord]
  simp [observeFirstToken, FinishedExecution.observation, FinishedExecution.prefillSample,
    hmeasured.1, hmeasured.2, hmicros, hexact.idle]

/-- Without a time or without tokens there is no sample of the prefill. -/
theorem observeFirstToken_of_none {observation : CalibrationObservation}
    (h : observation.timeToFirstTokenMicros = none ∨ ¬ 0 < observation.inputTokens) :
    observeFirstToken policy observation record = (record, false) := by
  unfold observeFirstToken
  split
  next => rfl
  next micros hmicros =>
    rcases h with hnone | hinput
    · rw [hnone] at hmicros
      cases hmicros
    · rw [if_neg hinput]

/-- Any other request of the engine leaves it. -/
theorem prefill_of_not_measured (hmeasured : ¬ execution.Measured) :
    (observeRecord policy execution.observation record).1.prefillMicrosPerToken =
      record.prefillMicrosPerToken := by
  have hnone : execution.observation.timeToFirstTokenMicros = none ∨
      ¬ 0 < execution.observation.inputTokens := by
    by_cases hfallback : execution.metadata.fallbackUsed = true
    · exact .inl (if_pos hfallback)
    · exact .inr fun hinput => hmeasured ⟨by simpa using hfallback, hinput⟩
  rw [prefill_observeRecord, observeFirstToken_of_none hnone]

theorem toNat_prefillSample (hexact : execution.Exact unitMicros)
    (hmeasured : execution.Measured) :
    execution.prefillSample.toNat =
      unitMicros.toNat * (execution.usage.inputTokens.toNat - execution.covered.toNat) /
        execution.usage.inputTokens.toNat := by
  obtain ⟨micros, hmicros, htimed⟩ := hexact.timed
  have hmax : max execution.usage.inputTokens 1 = execution.usage.inputTokens := by
    have hinput : (1 : UInt64).toNat ≤ execution.usage.inputTokens.toNat :=
      UInt64.lt_iff_toNat_lt.mp hmeasured.2
    change (if execution.usage.inputTokens ≤ 1 then 1 else execution.usage.inputTokens) = _
    split
    next hle => exact UInt64.toNat_inj.mp (Nat.le_antisymm hinput (UInt64.le_iff_toNat_le.mp hle))
    next => rfl
  rw [FinishedExecution.prefillSample, hmicros, hmax, Option.getD_some, UInt64.toNat_div, htimed]

/-- The sample is the time for one token if no token was covered. -/
theorem sample_eq (hexact : execution.Exact unitMicros) (hmeasured : execution.Measured)
    (hcovered : execution.covered = 0) : execution.prefillSample = unitMicros := by
  have hsample := toNat_prefillSample hexact hmeasured
  have hzero : (0 : UInt64).toNat = 0 := rfl
  rw [hcovered, hzero, Nat.sub_zero,
    Nat.mul_div_cancel _ (UInt64.lt_iff_toNat_lt.mp hmeasured.2)] at hsample
  exact UInt64.toNat_inj.mp hsample

/-- The sample is too small if a token was covered. -/
theorem sample_lt (hexact : execution.Exact unitMicros) (hmeasured : execution.Measured)
    (hunit : 1 ≤ unitMicros) (hcovered : execution.covered ≠ 0) :
    execution.prefillSample < unitMicros := by
  have hsample := toNat_prefillSample hexact hmeasured
  have hinput := UInt64.lt_iff_toNat_lt.mp hmeasured.2
  rw [UInt64.lt_iff_toNat_lt, hsample]
  rw [UInt64.le_iff_toNat_le] at hunit
  rw [ne_eq, ← UInt64.toNat_inj] at hcovered
  have hzero : (0 : UInt64).toNat = 0 := rfl
  have hone : (1 : UInt64).toNat = 1 := rfl
  have hless : unitMicros.toNat * (execution.usage.inputTokens.toNat - execution.covered.toNat) <
      unitMicros.toNat * execution.usage.inputTokens.toNat :=
    Nat.mul_lt_mul_of_pos_left (by omega) (by omega)
  rw [Nat.mul_comm unitMicros.toNat execution.usage.inputTokens.toNat] at hless
  exact Nat.div_lt_of_lt_mul hless

/-- The sample that is used is the time for one token if no token was covered, or if that time
is the least that is allowed. -/
theorem clamp_sample_eq {maximum : UInt64} (hexact : execution.Exact unitMicros)
    (hmeasured : execution.Measured) (hunit : 1 ≤ unitMicros ∧ unitMicros ≤ maximum)
    (h : execution.covered = 0 ∨ unitMicros = 1) :
    clamp execution.prefillSample 1 maximum = unitMicros := by
  simp only [UInt64.le_iff_toNat_le] at hunit
  by_cases hcovered : execution.covered = 0
  · rw [sample_eq hexact hmeasured hcovered, clamp, if_neg, if_neg]
    · rw [UInt64.lt_iff_toNat_lt]
      omega
    · rw [UInt64.lt_iff_toNat_lt]
      omega
  · obtain rfl := h.resolve_left hcovered
    rw [clamp, if_pos (sample_lt hexact hmeasured (UInt64.le_refl 1) hcovered)]

/-- Otherwise it is too small. -/
theorem clamp_sample_lt {maximum : UInt64} (hexact : execution.Exact unitMicros)
    (hmeasured : execution.Measured) (hunit : 1 ≤ unitMicros ∧ unitMicros ≤ maximum)
    (hcovered : execution.covered ≠ 0) (hone : unitMicros ≠ 1) :
    clamp execution.prefillSample 1 maximum < unitMicros := by
  have hlt := sample_lt hexact hmeasured hunit.1 hcovered
  rw [ne_eq, ← UInt64.toNat_inj] at hone
  simp only [UInt64.le_iff_toNat_le] at hunit
  unfold clamp
  simp only [UInt64.lt_iff_toNat_lt] at hlt ⊢
  split_ifs
  all_goals omega

/-- An update with a sample of the estimate keeps it. -/
theorem estimate_update_eq (hpolicy : Accepted policy)
    (hmetric : 0 < metric.samples → metric.estimate = unitMicros) {sample : UInt64}
    (hsample : clamp sample 1 policy.maxUnitMicros = unitMicros) :
    (metric.update sample policy policy.maxUnitMicros).estimate = unitMicros := by
  unfold MetricEstimate.update
  simp only [hsample]
  split
  next => rfl
  next hsamples =>
    have hestimate := hmetric (UInt64.pos_iff_ne_zero.mpr hsamples)
    have hsame : unitMicros ≤ unitMicros ∧ unitMicros ≤ unitMicros :=
    ⟨UInt64.le_refl _, UInt64.le_refl _⟩
    obtain ⟨hlow, hhigh⟩ := weightedAverage_mem hpolicy.alpha hsame hsame
    rw [hestimate]
    exact UInt64.le_antisymm hhigh hlow

/-- An update with a smaller sample changes it. -/
theorem estimate_update_lt (hpolicy : Accepted policy) (hpositive : 0 < policy.ewmaAlphaBps.toNat)
    (hmetric : 0 < metric.samples → metric.estimate = unitMicros) {sample : UInt64}
    (hsample : clamp sample 1 policy.maxUnitMicros < unitMicros) :
    (metric.update sample policy policy.maxUnitMicros).estimate < unitMicros := by
  unfold MetricEstimate.update
  simp only
  split
  next => exact hsample
  next hsamples =>
    have hestimate := hmetric (UInt64.pos_iff_ne_zero.mpr hsamples)
    rw [hestimate]
    exact weightedAverage_lt hpolicy.alpha hpositive hsample

end Samples

section States

variable {policy : CalibrationPolicy} {unitMicros : UInt64} {execution : FinishedExecution}
  {state : CalibrationState} {key : CalibrationKey}

/-- What is recorded is the estimate of a record with samples. -/
theorem recordedPrefill_eq_some {recorded : UInt64} :
    recordedPrefill state key = some recorded ↔
      ∃ record : CalibrationRecord, state.records[key.stableId]? = some record ∧
        0 < record.prefillMicrosPerToken.samples ∧
        record.prefillMicrosPerToken.estimate = recorded := by
  cases hrecord : state.records[key.stableId]? with
  | none => simp [recordedPrefill, hrecord]
  | some record => simp [recordedPrefill, hrecord, Option.filter]

/-- A measured request of the engine leaves an updated record of its metric. -/
theorem recordedPrefill_of_measured (policy : CalibrationPolicy)
    (hown : execution.observationKey.stableId = key.stableId)
    (hexact : execution.Exact unitMicros) (hmeasured : execution.Measured)
    (hstate : ∀ recorded, recordedPrefill state key = some recorded → recorded = unitMicros) :
    ∃ metric : MetricEstimate, (0 < metric.samples → metric.estimate = unitMicros) ∧
      recordedPrefill (recordObservation policy execution.observation state).1 key =
        some (metric.update execution.prefillSample policy policy.maxUnitMicros).estimate := by
  have hcounted : execution.observation.completed ∧ execution.observation.hasSample := by
    obtain ⟨micros, hmicros, -⟩ := hexact.timed
    refine ⟨hexact.completed, ?_⟩
    simp [CalibrationObservation.hasSample, FinishedExecution.observation, hmeasured.1,
      hmeasured.2, hmicros, hexact.idle]
  rw [recordObservation_eq, if_pos hcounted]
  obtain ⟨record, hrecord⟩ :
      ∃ record, (observedRecords policy execution.observation state)[key.stableId]? =
        some record := by
    rw [← hown]
    exact ⟨_, ExtTreeMap.getElem?_insert_self⟩
  rcases observedRecords_cases hrecord with ⟨-, old, hold, hnew⟩ | ⟨hne, -⟩
  · refine ⟨old.prefillMicrosPerToken, fun hsamples => ?_, ?_⟩
    · rcases hold with rfl | hold
      · exact absurd hsamples (UInt64.lt_irrefl 0)
      · exact hstate _ (recordedPrefill_eq_some.mpr ⟨old, hold, hsamples, rfl⟩)
    · refine recordedPrefill_eq_some.mpr ⟨record, hrecord, ?_⟩
      have hprefill : record.prefillMicrosPerToken = old.prefillMicrosPerToken.update
          execution.prefillSample policy policy.maxUnitMicros := by
        rw [hnew]
        exact prefill_of_measured hexact hmeasured
      rw [hprefill]
      exact ⟨samples_update_pos _ _, rfl⟩
  · exact absurd hown.symm hne

/-- Any other observation records nothing new. -/
theorem recordedPrefill_of_not_measured {recorded : UInt64}
    (hother : execution.observationKey.stableId = key.stableId → ¬ execution.Measured)
    (hrecorded : recordedPrefill (recordObservation policy execution.observation state).1 key =
      some recorded) :
    recordedPrefill state key = some recorded := by
  rw [recordObservation_eq] at hrecorded
  split at hrecorded
  next =>
    obtain ⟨record, hrecord, hsamples, hestimate⟩ := recordedPrefill_eq_some.mp hrecorded
    rcases observedRecords_cases hrecord with ⟨hown, old, hold, hnew⟩ | ⟨-, hkept⟩
    · have hprefill : record.prefillMicrosPerToken = old.prefillMicrosPerToken := by
        rw [hnew]
        exact prefill_of_not_measured (hother hown.symm)
      rw [hprefill] at hsamples hestimate
      rcases hold with rfl | hold
      · exact absurd hsamples (UInt64.lt_irrefl 0)
      · exact recordedPrefill_eq_some.mpr ⟨old, hold, hsamples, hestimate⟩
    · exact recordedPrefill_eq_some.mpr ⟨record, hkept, hsamples, hestimate⟩
  next => exact hrecorded

/-- A recorded estimate is what `apply` multiplies with. -/
theorem predictsPrefill_of_recorded {calibrator : PersistentCalibrator}
    (hrecorded : recordedPrefill calibrator.state key = some unitMicros) :
    PredictsPrefill calibrator key unitMicros := by
  intro input nowUnixMillis candidate hkey context
  have hunit : (prefillUnit context candidate).1 = unitMicros := by
    obtain ⟨record, hrecord, hsamples, rfl⟩ := recordedPrefill_eq_some.mp hrecorded
    have hfound : recordFor context candidate = some record := by
      rw [recordFor, hkey]
      exact hrecord
    simp [prefillUnit, unitEstimate, hfound, Option.filter, hsamples]
  constructor
  · simp only [calibrateCandidate, hunit, toNat_saturatingMul]
    rw [Nat.mul_comm]
    rfl
  · intro statePath
    simp only [calibrateStatePath, hunit, toNat_saturatingMul, toNat_saturatingSub]
    rw [Nat.mul_comm]
    rfl

end States

section Runs

variable {format : StateFormat} {host : Host} {key : CalibrationKey} {unitMicros : UInt64}
  {moves : List ServiceMove}

/-- Requests of the engine are exact. -/
def AllExact (key : CalibrationKey) (unitMicros : UInt64) (moves : List ServiceMove) : Prop :=
  ∀ answers execution, .finished answers execution ∈ moves →
    execution.observationKey.stableId = key.stableId → execution.Exact unitMicros

/-- No measured request of the engine had a covered token, unless one takes no longer than the
least time that is allowed. -/
def AllUncovered (key : CalibrationKey) (unitMicros : UInt64) (moves : List ServiceMove) : Prop :=
  ∀ answers execution, .finished answers execution ∈ moves →
    execution.observationKey.stableId = key.stableId → execution.Measured →
      execution.covered = 0 ∨ unitMicros = 1

theorem serve_concat (moves : List ServiceMove) (move : ServiceMove) :
    serve format host (moves ++ [move]) = (serve format host moves).perform format move.call := by
  simp [serve]

theorem serve_policy (moves : List ServiceMove) :
    (serve format host moves).calibrator.policy = host.calibrator.policy := by
  induction moves using List.reverseRecOn with
  | nil => rfl
  | append_singleton moves move ih => rw [serve_concat, (perform_state format _ _).2, ih]

/-- The state after a request is recorded. -/
theorem serve_finished_state (moves : List ServiceMove) (answers : WriteAnswers)
    (execution : FinishedExecution) :
    (serve format host (moves ++ [ServiceMove.finished answers execution])).calibrator.state =
      (recordObservation host.calibrator.policy execution.observation
        (serve format host moves).calibrator.state).1 := by
  rw [serve_concat, (perform_state format _ _).1, serve_policy]
  rfl

/-- One move keeps the estimate right. -/
theorem recordedPrefill_concat (hpolicy : Accepted host.calibrator.policy)
    (hunit : 1 ≤ unitMicros ∧ unitMicros ≤ host.calibrator.policy.maxUnitMicros)
    {move : ServiceMove} (hexact : AllExact key unitMicros (moves ++ [move]))
    (huncovered : AllUncovered key unitMicros (moves ++ [move]))
    (hbefore : ∀ recorded, recordedPrefill (serve format host moves).calibrator.state key =
      some recorded → recorded = unitMicros) {recorded : UInt64}
    (hrecorded : recordedPrefill (serve format host (moves ++ [move])).calibrator.state key =
      some recorded) : recorded = unitMicros := by
  cases move with
  | finished answers execution =>
    rw [serve_finished_state] at hrecorded
    by_cases hown : execution.observationKey.stableId = key.stableId ∧ execution.Measured
    · obtain ⟨hown, hmeasured⟩ := hown
      have hexact := hexact answers execution (by simp) hown
      obtain ⟨metric, hmetric, hupdated⟩ := recordedPrefill_of_measured
        host.calibrator.policy hown hexact hmeasured hbefore
      have hsample := clamp_sample_eq hexact hmeasured hunit
        (huncovered answers execution (by simp) hown hmeasured)
      rw [hrecorded] at hupdated
      rw [Option.some.inj hupdated, estimate_update_eq hpolicy hmetric hsample]
    · exact hbefore recorded (recordedPrefill_of_not_measured (not_and.mp hown) hrecorded)
  | shadowDecision answers consistent legacy calibrated =>
    rw [serve_concat, (perform_state format _ _).1] at hrecorded
    exact hbefore recorded hrecorded
  | promotionStatus answers plan evidence =>
    rw [serve_concat, (perform_state format _ _).1] at hrecorded
    exact hbefore recorded hrecorded
  | flush answers =>
    rw [serve_concat, (perform_state format _ _).1] at hrecorded
    exact hbefore recorded hrecorded

/-- Throughout a run without covered tokens the estimate is right. -/
theorem recordedPrefill_serve (format : StateFormat) (hpolicy : Accepted host.calibrator.policy)
    (hunit : 1 ≤ unitMicros ∧ unitMicros ≤ host.calibrator.policy.maxUnitMicros)
    (hstart : recordedPrefill host.calibrator.state key = none)
    (hexact : AllExact key unitMicros moves) (huncovered : AllUncovered key unitMicros moves) :
    ∀ recorded, recordedPrefill (serve format host moves).calibrator.state key = some recorded →
      recorded = unitMicros := by
  induction moves using List.reverseRecOn with
  | nil =>
    intro recorded hrecorded
    rw [serve, List.foldl_nil, hstart] at hrecorded
    cases hrecorded
  | append_singleton moves move ih =>
    intro recorded hrecorded
    refine recordedPrefill_concat hpolicy hunit hexact huncovered (ih ?_ ?_) hrecorded
    · exact fun answers execution hmem => hexact answers execution (by simp [hmem])
    · exact fun answers execution hmem => huncovered answers execution (by simp [hmem])

/-- A run without covered tokens is self-consistent. -/
theorem AllUncovered.selfConsistent (hpolicy : Accepted host.calibrator.policy)
    (hunit : 1 ≤ unitMicros ∧ unitMicros ≤ host.calibrator.policy.maxUnitMicros)
    (hstart : recordedPrefill host.calibrator.state key = none)
    (hexact : AllExact key unitMicros moves) (h : AllUncovered key unitMicros moves) :
    SelfConsistent key unitMicros moves (serve format host moves) := by
  have hestimate := recordedPrefill_serve format hpolicy hunit hstart hexact h
  refine ⟨hestimate, ?_, fun hsome => ?_⟩
  · rintro front answers execution rfl hown hmeasured
    have hbefore : ∀ recorded, recordedPrefill (serve format host front).calibrator.state key =
        some recorded → recorded = unitMicros := recordedPrefill_serve format hpolicy hunit hstart
      (fun answers execution hmem => hexact answers execution (by simp [hmem]))
      (fun answers execution hmem => h answers execution (by simp [hmem]))
    obtain ⟨metric, -, hupdated⟩ := recordedPrefill_of_measured host.calibrator.policy
      hown (hexact answers execution (by simp) hown) hmeasured hbefore
    rw [← serve_finished_state] at hupdated
    rw [hupdated, hestimate _ hupdated]
  · obtain ⟨recorded, hrecorded⟩ := Option.isSome_iff_exists.mp hsome
    have hsame := hestimate recorded hrecorded
    exact predictsPrefill_of_recorded (hsame ▸ hrecorded)

/-- A covered token makes the estimate too small. -/
theorem SelfConsistent.covered_eq (hvalid : host.calibrator.policy.validate = .ok ())
    (hunit : 1 ≤ unitMicros ∧ unitMicros ≤ host.calibrator.policy.maxUnitMicros)
    {front : List ServiceMove} {answers : WriteAnswers} {execution : FinishedExecution}
    (hown : execution.observationKey.stableId = key.stableId)
    (hexact : execution.Exact unitMicros) (hmeasured : execution.Measured)
    (hbefore : SelfConsistent key unitMicros front (serve format host front))
    (hafter : SelfConsistent key unitMicros (front ++ [ServiceMove.finished answers execution])
      (serve format host (front ++ [ServiceMove.finished answers execution]))) :
    execution.covered = 0 ∨ unitMicros = 1 := by
  by_contra hbiased
  obtain ⟨hcovered, hone⟩ := not_or.mp hbiased
  obtain ⟨metric, hmetric, hupdated⟩ := recordedPrefill_of_measured host.calibrator.policy
    hown hexact hmeasured hbefore.estimate
  rw [← serve_finished_state front answers] at hupdated
  have hlt := estimate_update_lt (accepted_of_validate hvalid) (alpha_pos_of_validate hvalid)
    hmetric (clamp_sample_lt hexact hmeasured hunit hcovered hone)
  rw [hafter.estimate _ hupdated] at hlt
  exact UInt64.lt_irrefl _ hlt

end Runs

/-- Requests of an engine that take the same time for each uncovered token teach the calibrator
that time, exactly if no token of a measured request was covered, or if the time is the least
that is allowed. -/
theorem selfConsistent_iff (format : StateFormat) (host : Host) (key : CalibrationKey)
    (unitMicros : UInt64) (moves : List ServiceMove)
    (hvalid : host.calibrator.policy.validate = .ok ())
    (hunit : 1 ≤ unitMicros ∧ unitMicros ≤ host.calibrator.policy.maxUnitMicros)
    (hstart : recordedPrefill host.calibrator.state key = none)
    (hexact : AllExact key unitMicros moves) :
    (∀ before, before <+: moves →
      SelfConsistent key unitMicros before (serve format host before)) ↔
      AllUncovered key unitMicros moves := by
  constructor
  · intro h answers execution hmem hown hmeasured
    obtain ⟨front, back, rfl⟩ := List.append_of_mem hmem
    have hbefore := h front (List.prefix_append _ _)
    have hafter := h (front ++ [ServiceMove.finished answers execution]) ⟨back, by simp⟩
    exact hbefore.covered_eq hvalid hunit hown (hexact answers execution hmem hown) hmeasured
      hafter
  · rintro h before ⟨back, rfl⟩
    refine AllUncovered.selfConsistent (accepted_of_validate hvalid) hunit hstart ?_ ?_
    · exact fun answers execution hmem => hexact answers execution (by simp [hmem])
    · exact fun answers execution hmem => h answers execution (by simp [hmem])

/-- A request with two input tokens that an idle engine has executed. -/
def idleExecution (path : ExecutionPath) (executedPath : ExecutedPath) (firstOutputMicros : ℕ) :
    FinishedExecution where
  planningInput := {
    request := sampleRequest
    candidates := [{
      target := sampleTarget
      capabilities := ⟨∅, false, false, false, false, false, {"kv"}⟩
      snapshot := {
        targetId := "target", ready := true, telemetryStatus := .fresh
        waitingRequests := some 0, estimatedQueueMicros := none }
      coldEstimate := ⟨0, 0, 0, 0⟩
      statePaths := [] }]
    stateObservation := ⟨∅⟩
    policy := {} }
  plan := {
    target := sampleTarget
    path
    predictedCost := ⟨0, 0, 0, 0, 0, 0⟩
    fallback := .fail
    rationale := [] }
  plannedAtUnixMillis := 0
  executionStarted := 0
  firstOutputAt := some (firstOutputMicros * 1000)
  finishedAt := firstOutputMicros * 1000
  metadata := ⟨executedPath, false, none, none⟩
  reason := .stop
  usage := ⟨2, 1⟩

/-- Two tokens are computed in 200 microseconds. -/
def coldExecution : FinishedExecution := idleExecution .cold .cold 200

/-- One of two tokens is covered, the other one is computed in 100 microseconds. -/
def reuseExecution : FinishedExecution :=
  idleExecution (.reuse ⟨sampleState, .compatible "tokens", sampleOption⟩) .reuse 100

theorem exact_coldExecution : coldExecution.Exact 100 :=
  ⟨rfl, by decide, 200, by decide, by decide⟩

theorem exact_reuseExecution : reuseExecution.Exact 100 :=
  ⟨rfl, by decide, 100, by decide, by decide⟩

/-- A calibrator that has seen nothing. -/
def freshMemoryHost : Host where
  calibrator := { policy := {}, state := {}, statePath := none }
  file := none

theorem recordedPrefill_freshMemoryHost :
    recordedPrefill freshMemoryHost.calibrator.state (CalibrationKey.fromTarget sampleTarget) =
      none := by
  simp [recordedPrefill, freshMemoryHost]

/-- A cold request teaches the calibrator its time, and a second one keeps it. -/
theorem selfConsistent_iff_cold :
    SelfConsistent (CalibrationKey.fromTarget sampleTarget) 100
      [.finished {} coldExecution, .finished {} coldExecution]
      (serve promotableFormat freshMemoryHost
        [.finished {} coldExecution, .finished {} coldExecution]) := by
  have hcold : ∀ answers execution, ServiceMove.finished answers execution ∈
      [ServiceMove.finished {} coldExecution, .finished {} coldExecution] →
        execution = coldExecution := by
    intro answers execution hmem
    simp only [List.mem_cons, List.not_mem_nil, or_false, or_self] at hmem
    exact (ServiceMove.finished.inj hmem).2
  refine (selfConsistent_iff promotableFormat freshMemoryHost _ 100 _ rfl ⟨by decide, by decide⟩
    recordedPrefill_freshMemoryHost ?_).mpr ?_ _ (List.prefix_refl _)
  · intro answers execution hmem _
    rw [hcold answers execution hmem]
    exact exact_coldExecution
  · intro answers execution hmem _ _
    rw [hcold answers execution hmem]
    exact .inl rfl

/-- A reused token halves the estimate. -/
theorem not_selfConsistent_reuse :
    AllExact (CalibrationKey.fromTarget sampleTarget) 100
        [.finished {} coldExecution, .finished {} reuseExecution] ∧
      ¬ ∀ before, before <+: [ServiceMove.finished {} coldExecution,
          .finished {} reuseExecution] →
        SelfConsistent (CalibrationKey.fromTarget sampleTarget) 100 before
          (serve promotableFormat freshMemoryHost before) := by
  constructor
  · intro answers execution hmem _
    rcases List.mem_cons.mp hmem with hcold | hmem
    · obtain ⟨rfl, rfl⟩ := ServiceMove.finished.inj hcold
      exact exact_coldExecution
    · obtain ⟨rfl, rfl⟩ := ServiceMove.finished.inj (List.mem_singleton.mp hmem)
      exact exact_reuseExecution
  · intro h
    have hbefore := h [.finished {} coldExecution] ⟨[.finished {} reuseExecution], rfl⟩
    have hafter := h ([ServiceMove.finished {} coldExecution] ++
      [ServiceMove.finished {} reuseExecution]) (List.prefix_refl _)
    rcases hbefore.covered_eq rfl ⟨by decide, by decide⟩ rfl exact_reuseExecution
      ⟨rfl, by decide⟩ hafter with hcovered | hone
    · exact absurd hcovered (by decide)
    · exact absurd hone (by decide)

end Locus.Runtime
