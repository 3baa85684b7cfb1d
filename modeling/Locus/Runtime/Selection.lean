import Locus.Calibration.Apply
import Locus.Calibration.Durability
import Locus.Runtime.PlanningInput

/-!
# Choosing between the legacy and the calibrated plan

`select_plan` plans twice, records whether both plans agree, and in active mode asks for
promotion. The calibrator is shared, so each step may meet it in another state, with its lock
poisoned, or in a task that does not finish. Whatever it meets, only the legacy planner can
make it fail, and what it returns is feasible for the input as it was.
-/

namespace Locus.Runtime

open Locus.Core Locus.Planner Locus.Calibration

/-- `PlacementMode` -/
inductive PlacementMode
  | shadow
  | active
  deriving DecidableEq

/-- `plan_decision_fingerprint` -/
def planDecisionFingerprint (plan : PlacementPlan) : String :=
  let path :=
    match plan.path with
    | .cold => "cold"
    | .reuse reuse => "reuse:" ++ reuse.state.id ++ ":" ++ reuse.option.id
  plan.target.id ++ "|" ++ path

/-- `plan_fingerprint` -/
def planFingerprint (plan : PlacementPlan) : String :=
  planDecisionFingerprint plan ++ "|" ++ toString plan.predictedCost.totalMicros.toNat ++ "|" ++
    String.intercalate ";" plan.rationale

structure PlacementSelection where
  plan : PlacementPlan
  source : String
  calibrationRevision : UInt64 := 0
  promotionReasons : List String := []
  deriving DecidableEq

/-- How a blocking task meets the calibrator: it does not finish, the lock is poisoned, or it
runs on the calibrator of that moment. -/
inductive TaskMoment
  | joinError
  | poisoned
  | runs (host : Host) (answers : WriteAnswers)

/-- The result of a blocking task, if it finishes. -/
def TaskMoment.outcome {α : Type} (moment : TaskMoment)
    (task : Host → WriteAnswers → Except CalibrationError α × Host) :
    Option (Except CalibrationError α) :=
  match moment with
  | joinError => none
  | poisoned => some (.error .lockPoisoned)
  | runs host answers => some (task host answers).1

/-- What `select_plan` meets: the time, the calibrator when it is applied unless its lock is
poisoned, and the calibrator during the two tasks. -/
structure SelectionMoments where
  nowUnixMillis : UInt64
  calibrator : Option PersistentCalibrator
  shadow : TaskMoment
  promotion : TaskMoment

variable (format : StateFormat) (mode : PlacementMode) (moments : SelectionMoments)
  (input : PlanningInput)

/-- The end of `select_plan`, once the shadow decision is recorded. -/
def selectAfterShadow (application : CalibrationApplication)
    (legacyPlan calibratedPlan : PlacementPlan) : PlacementSelection :=
  match mode with
  | .shadow =>
    { plan := legacyPlan, source := "shadow_mode", calibrationRevision := application.revision }
  | .active =>
    let evidence := application.evidence[calibratedPlan.target.id]?
    match moments.promotion.outcome fun host answers =>
        host.promotionStatus format answers calibratedPlan evidence with
    | none => { plan := legacyPlan, source := "promotion_task_error" }
    | some (.error _) => { plan := legacyPlan, source := "promotion_check_error" }
    | some (.ok status) =>
      if status.qualified then
        { plan := calibratedPlan, source := "calibrated_active"
          calibrationRevision := status.revision }
      else
        { plan := legacyPlan, source := "active_gate_fallback"
          calibrationRevision := status.revision, promotionReasons := status.reasons }

/-- `DefaultInferenceService::select_plan` -/
def selectPlan : Except InferenceError PlacementSelection :=
  match plan input with
  | .error error => .error (.planning error)
  | .ok legacyPlan =>
    match moments.calibrator with
    | none => .ok { plan := legacyPlan, source := "calibration_error" }
    | some calibrator =>
      let application := calibrator.apply input moments.nowUnixMillis
      match plan application.input with
      | .error _ => .ok { plan := legacyPlan, source := "calibrated_planning_error" }
      | .ok calibratedPlan =>
        let replayConsistent :=
          match plan application.input with
          | .error _ => false
          | .ok replay => planFingerprint replay == planFingerprint calibratedPlan
        match moments.shadow.outcome fun host answers =>
            host.recordShadowDecision format answers replayConsistent
              (planDecisionFingerprint legacyPlan) (planDecisionFingerprint calibratedPlan) with
        | none => .ok { plan := legacyPlan, source := "shadow_task_error" }
        | some (.error _) => .ok { plan := legacyPlan, source := "shadow_persistence_error" }
        | some (.ok ()) =>
          .ok (selectAfterShadow format mode moments application legacyPlan calibratedPlan)

section FailSafe

variable {format mode moments input}

/-- The calibrated plan of an input, for which promotion was granted. -/
def Promoted (format : StateFormat) (moments : SelectionMoments) (input : PlanningInput)
    (calibratedPlan : PlacementPlan) : Prop :=
  ∃ calibrator host answers status after,
    moments.calibrator = some calibrator ∧ moments.promotion = .runs host answers ∧
      plan (calibrator.apply input moments.nowUnixMillis).input = .ok calibratedPlan ∧
      host.promotionStatus format answers calibratedPlan
        (calibrator.apply input moments.nowUnixMillis).evidence[calibratedPlan.target.id]? =
          (.ok status, after) ∧
      status.qualified = true

/-- A plan is feasible, and it is cold only where that is allowed. -/
def FeasiblePlan (input : PlanningInput) (placement : PlacementPlan) : Prop :=
  (∃ position, FeasibleAt input position placement.target placement.path) ∧
    (placement.path = .cold →
      ¬ (input.policy.allowColdOnStoreOutage = false ∧ PathLost input))

/-- What the planner returns is feasible. -/
theorem feasiblePlan_of_plan {placement : PlacementPlan} (h : plan input = .ok placement) :
    FeasiblePlan input placement := by
  obtain ⟨best, hbest, rfl, hallowed⟩ := exists_isFirstLeast_of_plan h
  refine ⟨exists_feasibleAt_iff.mpr ⟨best, mem_feasiblePaths.mp hbest.mem, rfl, rfl⟩, ?_⟩
  rintro hcold ⟨hforbidden, hlost⟩
  exact hallowed ⟨hcold, hforbidden, hlost⟩

/-- What is feasible for the calibrated input is feasible for the input. -/
theorem FeasiblePlan.of_apply {calibrator : PersistentCalibrator} {nowUnixMillis : UInt64}
    {placement : PlacementPlan}
    (h : FeasiblePlan (calibrator.apply input nowUnixMillis).input placement) :
    FeasiblePlan input placement := by
  obtain ⟨⟨position, hposition⟩, hcold⟩ := h
  refine ⟨⟨position, feasibleAt_apply.mp hposition⟩, fun hpath hforbidden => ?_⟩
  exact hcold hpath ⟨hforbidden.1, pathLost_apply.mpr hforbidden.2⟩

/-- The end of `select_plan` returns one of the two plans. -/
theorem selectAfterShadow_plan {calibrator : PersistentCalibrator}
    {legacyPlan calibratedPlan : PlacementPlan} (hcalibrator : moments.calibrator = some calibrator)
    (hplan : plan (calibrator.apply input moments.nowUnixMillis).input = .ok calibratedPlan) :
    let selection := selectAfterShadow format mode moments
      (calibrator.apply input moments.nowUnixMillis) legacyPlan calibratedPlan
    selection.plan = legacyPlan ∨
      (mode = .active ∧ Promoted format moments input selection.plan) := by
  intro selection
  have hselection : selection = selectAfterShadow format mode moments
    (calibrator.apply input moments.nowUnixMillis) legacyPlan calibratedPlan := rfl
  unfold selectAfterShadow at hselection
  cases mode with
  | shadow => exact .inl (by rw [hselection])
  | active =>
    cases hpromotion : moments.promotion with
    | joinError =>
      simp only [hpromotion, TaskMoment.outcome] at hselection
      exact .inl (by rw [hselection])
    | poisoned =>
      simp only [hpromotion, TaskMoment.outcome] at hselection
      exact .inl (by rw [hselection])
    | runs host answers =>
      simp only [hpromotion, TaskMoment.outcome] at hselection
      rcases hstatus : host.promotionStatus format answers calibratedPlan
        (calibrator.apply input moments.nowUnixMillis).evidence[calibratedPlan.target.id]?
        with ⟨result, after⟩
      rw [hstatus] at hselection
      cases result with
      | error error => exact .inl (by rw [hselection])
      | ok status =>
        simp only at hselection
        split at hselection
        next hqualified =>
          refine .inr ⟨rfl, ?_⟩
          rw [hselection]
          exact ⟨calibrator, host, answers, status, after, hcalibrator, hpromotion, hplan, hstatus,
            hqualified⟩
        next => exact .inl (by rw [hselection])

/-- Whatever `select_plan` meets, it fails exactly if the legacy planner does. Otherwise it
returns the legacy plan, or in active mode a calibrated plan for which promotion was granted.
Either one is feasible for the input as it was, and calibration leaves every position of the
input as feasible as it was. -/
theorem selectPlan_failSafe (format : StateFormat) (mode : PlacementMode)
    (moments : SelectionMoments) (input : PlanningInput) :
    (∀ error, selectPlan format mode moments input = .error (.planning error) ↔
      plan input = .error error) ∧
    ((∃ error, selectPlan format mode moments input = .error error) ↔
      ∃ error, plan input = .error error) ∧
    (∀ selection, selectPlan format mode moments input = .ok selection →
      (plan input = .ok selection.plan ∨
        (mode = .active ∧ Promoted format moments input selection.plan)) ∧
      FeasiblePlan input selection.plan) ∧
    ∀ (calibrator : PersistentCalibrator) (position : PathPosition) (target : ExecutionTarget)
      (path : ExecutionPath),
      FeasibleAt (calibrator.apply input moments.nowUnixMillis).input position target path ↔
        FeasibleAt input position target path := by
  have hoption (selection : PlacementSelection)
      (hselection : plan input = .ok selection.plan ∨
        (mode = .active ∧ Promoted format moments input selection.plan)) :
      FeasiblePlan input selection.plan := by
    rcases hselection with hlegacy | ⟨-, calibrator, -, -, -, -, -, -, hplan, -, -⟩
    · exact feasiblePlan_of_plan hlegacy
    · exact (feasiblePlan_of_plan hplan).of_apply
  have hcases : (∃ error, plan input = .error error ∧
      selectPlan format mode moments input = .error (.planning error)) ∨
      ((∃ legacyPlan, plan input = .ok legacyPlan) ∧
        ∃ selection, selectPlan format mode moments input = .ok selection ∧
          (plan input = .ok selection.plan ∨
            (mode = .active ∧ Promoted format moments input selection.plan))) := by
    cases hlegacy : plan input with
    | error error => exact .inl ⟨error, rfl, by simp [selectPlan, hlegacy]⟩
    | ok legacyPlan =>
      refine .inr ⟨⟨legacyPlan, rfl⟩, ?_⟩
      unfold selectPlan
      simp only [hlegacy]
      split
      next => exact ⟨_, rfl, .inl rfl⟩
      next calibrator hcalibrator =>
        split
        next => exact ⟨_, rfl, .inl rfl⟩
        next calibratedPlan hplan =>
          split
          next => exact ⟨_, rfl, .inl rfl⟩
          next => exact ⟨_, rfl, .inl rfl⟩
          next =>
            refine ⟨_, rfl, ?_⟩
            exact (selectAfterShadow_plan hcalibrator hplan).imp_left fun hsame => by rw [hsame]
  refine ⟨?_, ?_, ?_, fun _ _ _ _ => feasibleAt_apply⟩
  · intro error
    rcases hcases with ⟨error', hplan, hselect⟩ | ⟨⟨legacyPlan, hplan⟩, selection, hselect, -⟩
    · simp [hplan, hselect]
    · simp [hplan, hselect]
  · rcases hcases with ⟨error', hplan, hselect⟩ | ⟨⟨legacyPlan, hplan⟩, selection, hselect, -⟩
    · simp [hplan, hselect]
    · simp [hplan, hselect]
  · intro selection hselection
    rcases hcases with ⟨error', hplan, hselect⟩ | ⟨-, selection', hselect, hone⟩
    · rw [hselection] at hselect
      cases hselect
    · rw [hselection] at hselect
      cases hselect
      exact ⟨hone, hoption selection hone⟩

/-- One candidate with fresh telemetry and no waiting requests. -/
def idleInput : PlanningInput where
  request := sampleRequest
  candidates := [{
    target := sampleTarget
    capabilities := ⟨∅, true, true, false, false, false, ∅⟩
    snapshot := {
      targetId := "target", ready := true, telemetryStatus := .fresh, observedAtUnixMillis := 900
      validUntilUnixMillis := 1900, waitingRequests := some 0, estimatedQueueMicros := some 0 }
    coldEstimate := ⟨0, 320, 0, 0⟩
    statePaths := [] }]
  stateObservation := ⟨∅⟩
  policy := {}

/-- A calibrator that has seen one request and one decision. -/
def warmCalibrator : PersistentCalibrator where
  policy := promotablePolicy
  state := promotableState
  statePath := some samplePath

/-- All three steps meet that calibrator. -/
def warmMoments : SelectionMoments where
  nowUnixMillis := 1000
  calibrator := some warmCalibrator
  shadow := .runs ⟨warmCalibrator, some promotableBytes, []⟩ {}
  promotion := .runs ⟨warmCalibrator, some promotableBytes, []⟩ {}

/-- The calibrated plan: 16 tokens at 500 microseconds. -/
def warmSelection : PlacementSelection where
  plan := {
    target := sampleTarget
    path := .cold
    predictedCost := ⟨0, 0, 0, 8000, 0, 0⟩
    fallback := .fail
    rationale := ["feasible cold execution path"] }
  source := "calibrated_active"
  calibrationRevision := 2

theorem selectPlan_warm :
    selectPlan promotableFormat .active warmMoments idleInput = .ok warmSelection := by
  rfl

/-- There the calibrated plan is chosen, and it is feasible. -/
theorem selectPlan_failSafe_warm : FeasiblePlan idleInput warmSelection.plan :=
  ((selectPlan_failSafe promotableFormat .active warmMoments idleInput).2.2.1 warmSelection
    selectPlan_warm).2

end FailSafe

end Locus.Runtime
