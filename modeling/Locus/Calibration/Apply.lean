import Locus.Calibration.Calibrator
import Locus.Planner.Optimality

/-!
# Calibrated planning

`apply` rewrites the queue and the estimates of every candidate and state path with what the
calibrator has learned. It touches nothing that a filter of the planner reads, so at every
position of the input the same path is feasible before and after.
-/

namespace Locus.Calibration

open Std (TreeMap)
open Locus.Core Locus.Planner

/-- `queue_estimate`, with whether it is the conservative one. -/
def queueEstimate (policy : CalibrationPolicy) (record : Option CalibrationRecord)
    (waitingRequests directEstimate : Option UInt64) : UInt64 × Bool :=
  match directEstimate with
  | some direct => (direct, false)
  | none =>
    match waitingRequests with
    | some waiting =>
      if waiting = 0 then (0, false)
      else
        let metric := record.map (·.queueMicrosPerWaitingRequest)
        let unit := (metric.map (·.valueOr policy.conservativeQueueMicrosPerWaitingRequest)).getD
          policy.conservativeQueueMicrosPerWaitingRequest
        (saturatingMul waiting unit, metric.all (·.samples == 0))
    | none => (policy.conservativeQueueMicros, true)

/-- `unit_estimate`, with whether it is the conservative one. -/
def unitEstimate (policy : CalibrationPolicy) (metric : Option MetricEstimate)
    (telemetryRate : Option UInt64) (conservative : UInt64) : UInt64 × Bool :=
  match metric.filter (fun metric => decide (0 < metric.samples)) with
  | some metric => (metric.estimate, false)
  | none =>
    match telemetryRate.filter (fun rate => decide (0 < rate)) with
    | some rate => (clamp (1000000 / rate) 1 policy.maxUnitMicros, false)
    | none => (conservative, true)

/-- `input_token_count`. The sum wraps around. -/
def inputTokenCount (input : PlanningInput) : UInt64 :=
  (input.request.items.filterMap fun item =>
    match item.value with
    | .tokenSequence tokenIds => some (UInt64.ofNat tokenIds.length)
    | .other _ => none).sum

/-- What `apply` computes once for all candidates. -/
structure ApplyContext where
  policy : CalibrationPolicy
  state : CalibrationState
  nowUnixMillis : UInt64
  inputTokens : UInt64
  outputTokens : UInt64

section Candidates

variable (context : ApplyContext) (candidate : PlanningCandidate)

/-- The record of a candidate's target. -/
def recordFor : Option CalibrationRecord :=
  context.state.records[(CalibrationKey.fromTarget candidate.target).stableId]?

/-- The estimates that a candidate's own snapshot gives, unless it is stale. -/
def freshly (estimate : EngineSnapshot → Option UInt64) : Option UInt64 :=
  if candidate.snapshot.telemetryIsFreshAt context.nowUnixMillis then estimate candidate.snapshot
  else none

def candidateQueue : UInt64 × Bool :=
  queueEstimate context.policy (recordFor context candidate)
    (freshly context candidate (·.waitingRequests))
    (freshly context candidate (·.estimatedQueueMicros))

def prefillUnit : UInt64 × Bool :=
  unitEstimate context.policy ((recordFor context candidate).map (·.prefillMicrosPerToken))
    (freshly context candidate (·.prefillTokensPerSecond))
    context.policy.conservativePrefillMicrosPerToken

def decodeUnit : UInt64 × Bool :=
  unitEstimate context.policy ((recordFor context candidate).map (·.decodeMicrosPerToken))
    (freshly context candidate (·.decodeTokensPerSecond))
    context.policy.conservativeDecodeMicrosPerToken

/-- The inner loop body of `apply`. The covered units wrap around. -/
def calibrateStatePath (statePath : StatePathCandidate) : StatePathCandidate :=
  let record := recordFor context candidate
  let covered := (statePath.state.boundary.coveredComponents.map (·.coveredUnits)).sum
  let pathKey := materializationKey statePath.option.store statePath.option.stateKind
    candidate.target.id
  let ratio := (((record.bind (·.materializationRatioBps[pathKey]?)).filter
    (fun metric => decide (0 < metric.samples))).map (·.estimate)).getD
      context.policy.conservativeMaterializationRatioBps
  { statePath with
    estimate := { statePath.estimate with
      unmatchedPrefillMicros := saturatingMul (saturatingSub context.inputTokens covered)
        (prefillUnit context candidate).1
      decodeMicros := saturatingMul context.outputTokens (decodeUnit context candidate).1
      topologyMicros := (record.map
        (·.topologyMicros.valueOr context.policy.conservativeTopologyMicros)).getD
          context.policy.conservativeTopologyMicros }
    materializationEstimateMicros :=
      some (saturatingMul statePath.option.estimatedTransferMicros ratio / 10000) }

/-- The outer loop body of `apply`. -/
def calibrateCandidate : PlanningCandidate :=
  { candidate with
    snapshot := { candidate.snapshot with
      estimatedQueueMicros := some (candidateQueue context candidate).1 }
    coldEstimate := { candidate.coldEstimate with
      unmatchedPrefillMicros :=
        saturatingMul context.inputTokens (prefillUnit context candidate).1
      decodeMicros := saturatingMul context.outputTokens (decodeUnit context candidate).1
      topologyMicros := 0 }
    statePaths := candidate.statePaths.map (calibrateStatePath context candidate) }

/-- What the estimates of a candidate rest on. -/
def candidateEvidence : CandidateCalibrationEvidence where
  key := CalibrationKey.fromTarget candidate.target
  snapshotFresh := candidate.snapshot.telemetryIsFreshAt context.nowUnixMillis
  queueCalibrationRequired := (freshly context candidate (·.estimatedQueueMicros)).isNone &&
    (freshly context candidate (·.waitingRequests)).all (fun waiting => decide (0 < waiting))
  usedConservativeQueue := (candidateQueue context candidate).2
  usedConservativePrefill := (prefillUnit context candidate).2
  usedConservativeDecode := (decodeUnit context candidate).2
  revision := context.state.revision

end Candidates

/-- The rewritten input, with the evidence for each target. -/
structure CalibrationApplication where
  input : PlanningInput
  evidence : TreeMap String CandidateCalibrationEvidence
  revision : UInt64

/-- `PersistentCalibrator::apply`, for a lock that is not poisoned. -/
def PersistentCalibrator.apply (calibrator : PersistentCalibrator) (input : PlanningInput)
    (nowUnixMillis : UInt64) : CalibrationApplication :=
  let context : ApplyContext := {
    policy := calibrator.policy
    state := calibrator.state
    nowUnixMillis
    inputTokens := inputTokenCount input
    outputTokens := (input.request.maxOutputTokens.getD 16).toUInt64 }
  { input := { input with candidates := input.candidates.map (calibrateCandidate context) }
    evidence := input.candidates.foldl (fun evidence candidate =>
      evidence.insert candidate.target.id (candidateEvidence context candidate)) ∅
    revision := calibrator.state.revision }

/-- What `apply` computes once for an input. -/
def PersistentCalibrator.contextFor (calibrator : PersistentCalibrator) (input : PlanningInput)
    (nowUnixMillis : UInt64) : ApplyContext where
  policy := calibrator.policy
  state := calibrator.state
  nowUnixMillis := nowUnixMillis
  inputTokens := inputTokenCount input
  outputTokens := (input.request.maxOutputTokens.getD 16).toUInt64

theorem apply_input (calibrator : PersistentCalibrator) (input : PlanningInput)
    (nowUnixMillis : UInt64) :
    (calibrator.apply input nowUnixMillis).input =
      { input with candidates :=
          input.candidates.map (calibrateCandidate (calibrator.contextFor input nowUnixMillis)) } :=
  rfl

theorem apply_evidence (calibrator : PersistentCalibrator) (input : PlanningInput)
    (nowUnixMillis : UInt64) :
    (calibrator.apply input nowUnixMillis).evidence =
      input.candidates.foldl (fun evidence candidate => evidence.insert candidate.target.id
        (candidateEvidence (calibrator.contextFor input nowUnixMillis) candidate)) ∅ :=
  rfl

section Feasibility

/-- A path of an input, by the positions of its candidate and of its state path. -/
inductive PathPosition
  | cold (candidate : ℕ)
  | reuse (candidate statePath : ℕ)
  deriving DecidableEq

/-- The path at a position passes every filter; it runs on this target in this way. -/
inductive FeasibleAt (input : PlanningInput) :
    PathPosition → ExecutionTarget → ExecutionPath → Prop
  | cold {i : ℕ} {candidate : PlanningCandidate} (found : input.candidates[i]? = some candidate)
      (eligible : Eligible input candidate) : FeasibleAt input (.cold i) candidate.target .cold
  | reuse {i j : ℕ} {candidate : PlanningCandidate} {statePath : StatePathCandidate}
      (found : input.candidates[i]? = some candidate) (eligible : Eligible input candidate)
      (foundPath : candidate.statePaths[j]? = some statePath)
      (reusable : Reusable input candidate statePath) :
      FeasibleAt input (.reuse i j) candidate.target
        (.reuse ⟨statePath.state, statePath.compatibility, statePath.option⟩)

variable {input : PlanningInput} {position : PathPosition} {target : ExecutionTarget}
  {path : ExecutionPath}

/-- A feasible path is one of the planner's, and the other way round. -/
theorem exists_feasibleAt_iff :
    (∃ position, FeasibleAt input position target path) ↔
      ∃ feasible, Feasible input feasible ∧ feasible.target = target ∧ feasible.path = path := by
  constructor
  · rintro ⟨position, ⟨hfound, heligible⟩ | ⟨hfound, heligible, hpath, hreusable⟩⟩
    · exact ⟨_, .cold (List.mem_of_getElem? hfound) heligible, rfl, rfl⟩
    · exact ⟨_, .reuse (List.mem_of_getElem? hfound) heligible (List.mem_of_getElem? hpath)
        hreusable, rfl, rfl⟩
  · rintro ⟨feasible, ⟨hmem, heligible⟩ | ⟨hmem, heligible, hpath, hreusable⟩, rfl, rfl⟩
    · obtain ⟨i, hi⟩ := List.mem_iff_getElem?.mp hmem
      exact ⟨.cold i, .cold hi heligible⟩
    · obtain ⟨i, hi⟩ := List.mem_iff_getElem?.mp hmem
      obtain ⟨j, hj⟩ := List.mem_iff_getElem?.mp hpath
      exact ⟨.reuse i j, .reuse hi heligible hj hreusable⟩

variable {calibrator : PersistentCalibrator} {nowUnixMillis : UInt64} {context : ApplyContext}
  {candidate : PlanningCandidate} {statePath : StatePathCandidate}

/-- The candidates of a calibrated input, by position. -/
theorem apply_candidates_getElem? (calibrator : PersistentCalibrator) (input : PlanningInput)
    (nowUnixMillis : UInt64) (i : ℕ) :
    ∃ context, (calibrator.apply input nowUnixMillis).input.candidates[i]? =
      input.candidates[i]?.map (calibrateCandidate context) :=
  ⟨_, List.getElem?_map⟩

/-- Calibration changes nothing that the candidate filters read. -/
theorem eligible_calibrateCandidate :
    Eligible (calibrator.apply input nowUnixMillis).input (calibrateCandidate context candidate) ↔
      Eligible input candidate :=
  ⟨fun h => ⟨h.model, h.targetId, h.ready, h.satisfies⟩,
    fun h => ⟨h.model, h.targetId, h.ready, h.satisfies⟩⟩

/-- Calibration changes nothing that the state filters read. -/
theorem reusable_calibrateStatePath :
    Reusable (calibrator.apply input nowUnixMillis).input (calibrateCandidate context candidate)
      (calibrateStatePath context candidate statePath) ↔ Reusable input candidate statePath :=
  ⟨fun h => ⟨h.available, h.compatible, h.store, h.source, h.kind, h.model, h.targetId, h.engine,
      h.supported, h.semantics⟩,
    fun h => ⟨h.available, h.compatible, h.store, h.source, h.kind, h.model, h.targetId, h.engine,
      h.supported, h.semantics⟩⟩

/-- At every position the same path is feasible before and after calibration. -/
theorem feasibleAt_apply :
    FeasibleAt (calibrator.apply input nowUnixMillis).input position target path ↔
      FeasibleAt input position target path := by
  constructor
  · rintro (@⟨i, calibrated, hfound, heligible⟩ |
      @⟨i, j, calibrated, calibratedPath, hfound, heligible, hpath, hreusable⟩)
    all_goals
      obtain ⟨context, hcontext⟩ := apply_candidates_getElem? calibrator input nowUnixMillis i
      obtain ⟨candidate, hcandidate, rfl⟩ := Option.map_eq_some_iff.mp (hcontext ▸ hfound)
      have heligible := eligible_calibrateCandidate.mp heligible
    · have hcold : FeasibleAt input (.cold i) candidate.target .cold := .cold hcandidate heligible
      exact hcold
    · obtain ⟨statePath, hstatePath, rfl⟩ := Option.map_eq_some_iff.mp
        ((List.getElem?_map (f := calibrateStatePath context candidate)).symm.trans hpath)
      have hreuse := FeasibleAt.reuse hcandidate heligible hstatePath
        (reusable_calibrateStatePath.mp hreusable)
      exact hreuse
  · rintro (@⟨i, candidate, hfound, heligible⟩ |
      @⟨i, j, candidate, statePath, hfound, heligible, hpath, hreusable⟩)
    all_goals
      obtain ⟨context, hcontext⟩ := apply_candidates_getElem? calibrator input nowUnixMillis i
      rw [hfound, Option.map_some] at hcontext
    · have hcold := FeasibleAt.cold hcontext (eligible_calibrateCandidate.mpr heligible)
      exact hcold
    · have hcalibrated : (calibrateCandidate context candidate).statePaths[j]? =
          some (calibrateStatePath context candidate statePath) := by
        simp [calibrateCandidate, hpath]
      have hreuse := FeasibleAt.reuse hcontext (eligible_calibrateCandidate.mpr heligible)
        hcalibrated (reusable_calibrateStatePath.mpr hreusable)
      exact hreuse

/-- Calibration loses no path to a store that did not answer, and finds none. -/
theorem pathLost_apply :
    PathLost (calibrator.apply input nowUnixMillis).input ↔ PathLost input := by
  simp only [PathLost, PersistentCalibrator.apply, List.mem_map]
  constructor
  · rintro ⟨_, ⟨candidate, hmem, rfl⟩, heligible, _, hpath, hout⟩
    obtain ⟨statePath, hstatePath, rfl⟩ := List.mem_map.mp hpath
    exact ⟨candidate, hmem,
      eligible_calibrateCandidate.mp heligible, statePath,
      hstatePath, hout⟩
  · rintro ⟨candidate, hmem, heligible, statePath, hstatePath, hout⟩
    exact ⟨_, ⟨candidate, hmem, rfl⟩,
      eligible_calibrateCandidate.mpr heligible, _,
      List.mem_map.mpr ⟨statePath, hstatePath, rfl⟩, hout⟩

end Feasibility

end Locus.Calibration
