import Locus.Calibration.Apply
import Locus.Planner.Paths
import Locus.Planner.Saturation

/-!
# Telemetry that is out of date

Of a snapshot the planner reads whose it is, whether the target is ready, and the queue. The
calibrator overwrites the queue, and it reads telemetry only while that is fresh. So two inputs
that differ in nothing but stale telemetry are calibrated to inputs which the planner cannot
tell apart.
-/

namespace Locus.Calibration

open Locus.Core Locus.Planner

section Planner

/-- A snapshot without the fields that the planner does not read. -/
def plannedSnapshot (snapshot : EngineSnapshot) : EngineSnapshot where
  targetId := snapshot.targetId
  ready := snapshot.ready
  estimatedQueueMicros := snapshot.estimatedQueueMicros

def plannedCandidate (candidate : PlanningCandidate) : PlanningCandidate :=
  { candidate with snapshot := plannedSnapshot candidate.snapshot }

/-- An input without the telemetry that the planner does not read. -/
def plannedInput (input : PlanningInput) : PlanningInput :=
  { input with candidates := input.candidates.map plannedCandidate }

/-- The predicted costs of all paths, in order. -/
def pathCosts (input : PlanningInput) : List CostBreakdown :=
  (inputPaths input).map fun path => (path.feasiblePath input).cost

variable {input other : PlanningInput}

theorem planCandidate_plannedInput (input : PlanningInput) :
    (fun state candidate => planCandidate (plannedInput input) state (plannedCandidate candidate)) =
      planCandidate input := by
  funext state candidate
  rfl

/-- The planner does not read what is left out. -/
theorem plan_plannedInput (input : PlanningInput) : plan (plannedInput input) = plan input := by
  have hstate : (plannedInput input).candidates.foldl (planCandidate (plannedInput input)) {} =
      input.candidates.foldl (planCandidate input) {} := by
    rw [plannedInput, List.foldl_map]
    exact congrArg (fun step => input.candidates.foldl step {}) (planCandidate_plannedInput input)
  unfold plan
  rw [hstate]
  rfl

theorem pathCosts_plannedInput (input : PlanningInput) :
    pathCosts (plannedInput input) = pathCosts input := by
  unfold pathCosts inputPaths plannedInput
  rw [List.flatMap_map, List.map_flatMap, List.map_flatMap]
  congr 1
  funext candidate
  simp only [List.map_cons, List.map_map]
  rfl

/-- Inputs that agree in what the planner reads have the same plan. -/
theorem plan_eq_of_plannedInput_eq (h : plannedInput input = plannedInput other) :
    plan input = plan other := by
  rw [← plan_plannedInput, h, plan_plannedInput]

theorem pathCosts_eq_of_plannedInput_eq (h : plannedInput input = plannedInput other) :
    pathCosts input = pathCosts other := by
  rw [← pathCosts_plannedInput, h, pathCosts_plannedInput]

end Planner

section Calibrator

/-- Two candidates that differ at most in telemetry that is stale in both. -/
def SameUnlessStale (nowUnixMillis : UInt64) (candidate other : PlanningCandidate) : Prop :=
  other = candidate ∨
    candidate.snapshot.telemetryIsFreshAt nowUnixMillis = false ∧
    other.snapshot.telemetryIsFreshAt nowUnixMillis = false ∧
    ∃ snapshot, snapshot.targetId = candidate.snapshot.targetId ∧
      snapshot.ready = candidate.snapshot.ready ∧ other = { candidate with snapshot }

/-- Two inputs that differ at most in telemetry that is stale in both. -/
structure DifferInStale (nowUnixMillis : UInt64) (input other : PlanningInput) : Prop where
  request : other.request = input.request
  candidates : List.Forall₂ (SameUnlessStale nowUnixMillis) input.candidates other.candidates
  stateObservation : other.stateObservation = input.stateObservation
  policy : other.policy = input.policy

variable {context : ApplyContext} {candidate other : PlanningCandidate}

/-- Nothing is estimated from stale telemetry. -/
theorem freshly_of_stale
    (h : candidate.snapshot.telemetryIsFreshAt context.nowUnixMillis = false) :
    freshly context candidate = fun _ => none := by
  funext estimate
  rw [freshly, if_neg (by simp [h])]

/-- The calibrator makes of both candidates what is the same to the planner, on the same
evidence. -/
theorem SameUnlessStale.calibrated (h : SameUnlessStale context.nowUnixMillis candidate other) :
    plannedCandidate (calibrateCandidate context candidate) =
        plannedCandidate (calibrateCandidate context other) ∧
      candidateEvidence context candidate = candidateEvidence context other ∧
      candidate.target = other.target := by
  obtain rfl | ⟨hstale, hstale', snapshot, htarget, hready, rfl⟩ := h
  · exact ⟨rfl, rfl, rfl⟩
  · have hfreshly : freshly context { candidate with snapshot } = freshly context candidate := by
      rw [freshly_of_stale hstale, freshly_of_stale hstale']
    have hqueue : candidateQueue context { candidate with snapshot } =
        candidateQueue context candidate := by
      unfold candidateQueue
      rw [hfreshly]
      rfl
    have hprefill : prefillUnit context { candidate with snapshot } =
        prefillUnit context candidate := by
      unfold prefillUnit
      rw [hfreshly]
      rfl
    have hdecode : decodeUnit context { candidate with snapshot } =
        decodeUnit context candidate := by
      unfold decodeUnit
      rw [hfreshly]
      rfl
    have hpaths : calibrateStatePath context { candidate with snapshot } =
        calibrateStatePath context candidate := by
      funext statePath
      unfold calibrateStatePath
      rw [hprefill, hdecode]
      rfl
    refine ⟨?_, ?_, rfl⟩
    · simp only [plannedCandidate, calibrateCandidate, plannedSnapshot, htarget, hready, hqueue,
        hprefill, hdecode, hpaths]
    · unfold candidateEvidence
      rw [hfreshly, hqueue, hprefill, hdecode, hstale, hstale']

/-- What is computed once is the same for both inputs. -/
theorem DifferInStale.apply_eq {nowUnixMillis : UInt64} {input other : PlanningInput}
    (h : DifferInStale nowUnixMillis input other) (calibrator : PersistentCalibrator) :
    plannedInput (calibrator.apply input nowUnixMillis).input =
        plannedInput (calibrator.apply other nowUnixMillis).input ∧
      (calibrator.apply input nowUnixMillis).evidence =
        (calibrator.apply other nowUnixMillis).evidence := by
  obtain ⟨hrequest, hcandidates, hobservation, hpolicy⟩ := h
  have hcontext : calibrator.contextFor other nowUnixMillis =
      calibrator.contextFor input nowUnixMillis := by
    simp only [PersistentCalibrator.contextFor, inputTokenCount, hrequest]
  let context := calibrator.contextFor input nowUnixMillis
  have hsame {candidate candidate'} (h : SameUnlessStale nowUnixMillis candidate candidate') :
      plannedCandidate (calibrateCandidate context candidate) =
          plannedCandidate (calibrateCandidate context candidate') ∧
        candidateEvidence context candidate = candidateEvidence context candidate' ∧
        candidate.target = candidate'.target :=
    SameUnlessStale.calibrated h
  rw [apply_input, apply_input, apply_evidence, apply_evidence, hcontext]
  constructor
  · have hmap := List.rel_map (R := SameUnlessStale nowUnixMillis) (P := Eq)
      (fun _ _ h => (hsame h).1) hcandidates
    rw [List.forall₂_eq_eq_eq] at hmap
    simp only [plannedInput, List.map_map, hrequest, hobservation, hpolicy]
    exact congrArg (fun candidates => { input with candidates }) hmap
  · refine List.rel_foldl (P := Eq) ?_ rfl hcandidates
    rintro evidence _ rfl candidate candidate' h
    obtain ⟨-, hevidence, htarget⟩ := hsame h
    simp only [htarget]
    exact congrArg _ hevidence

end Calibrator

/-- Stale telemetry influences neither the evidence nor a cost nor the plan. -/
theorem apply_ignores_stale (calibrator : PersistentCalibrator) (nowUnixMillis : UInt64)
    (input other : PlanningInput) (hstale : DifferInStale nowUnixMillis input other) :
    (calibrator.apply input nowUnixMillis).evidence =
        (calibrator.apply other nowUnixMillis).evidence ∧
      pathCosts (calibrator.apply input nowUnixMillis).input =
        pathCosts (calibrator.apply other nowUnixMillis).input ∧
      plan (calibrator.apply input nowUnixMillis).input =
        plan (calibrator.apply other nowUnixMillis).input := by
  obtain ⟨hinput, hevidence⟩ := hstale.apply_eq calibrator
  exact ⟨hevidence, pathCosts_eq_of_plannedInput_eq hinput, plan_eq_of_plannedInput_eq hinput⟩

/-- Two queues that were reported by an engine whose telemetry has run out. -/
theorem apply_ignores_stale_queueInput :
    DifferInStale 7 (queueInput (some 1)) (queueInput (some 900)) ∧
      plan (PersistentCalibrator.apply ⟨{}, {}, none, true, 0⟩ (queueInput (some 1)) 7).input =
        plan (PersistentCalibrator.apply ⟨{}, {}, none, true, 0⟩
          (queueInput (some 900)) 7).input := by
  have hstale : DifferInStale 7 (queueInput (some 1)) (queueInput (some 900)) :=
    ⟨rfl, .cons (.inr ⟨rfl, rfl, (queueCandidate (some 900)).snapshot, rfl, rfl, rfl⟩) .nil,
      rfl, rfl⟩
  exact ⟨hstale, (apply_ignores_stale _ 7 _ _ hstale).2.2⟩

end Locus.Calibration
