import Locus.Calibration.Apply
import Locus.Calibration.Invariant

/-!
# The estimate of a transfer

A store's estimate is multiplied by a ratio in ten-thousandths, learned or conservative. The
product is cut off at the largest word before it is divided, so that no calibrated estimate
exceeds a ten-thousandth of that word: longer estimates are not calibrated but shortened.
-/

namespace Locus.Calibration

open Locus.Core Locus.Planner

/-- The largest calibrated estimate. -/
def longestTransferMicros : ℕ := (2 ^ 64 - 1) / 10000

section Estimate

/-- The product of `apply`, with its division. -/
def materializationEstimate (estimatedTransferMicros ratio : UInt64) : UInt64 :=
  saturatingMul estimatedTransferMicros ratio / 10000

variable {estimate estimate' ratio : UInt64}

theorem toNat_materializationEstimate :
    (materializationEstimate estimate ratio).toNat =
      min (estimate.toNat * ratio.toNat / 10000) longestTransferMicros := by
  have hten : (10000 : UInt64).toNat = 10000 := rfl
  rw [materializationEstimate, UInt64.toNat_div, toNat_saturatingMul, hten, longestTransferMicros]
  omega

/-- A longer estimate is not calibrated to a shorter one. -/
theorem materializationEstimate_mono (h : estimate ≤ estimate') :
    materializationEstimate estimate ratio ≤ materializationEstimate estimate' ratio := by
  rw [UInt64.le_iff_toNat_le] at h ⊢
  have hproduct := Nat.mul_le_mul_right ratio.toNat h
  have hquotient := Nat.div_le_div_right (c := 10000) hproduct
  simp only [toNat_materializationEstimate]
  omega

/-- A ratio of at least one does not shorten an estimate that is not too long. -/
theorem le_materializationEstimate_iff (hratio : 10000 ≤ ratio) :
    estimate ≤ materializationEstimate estimate ratio ↔
      estimate.toNat ≤ longestTransferMicros := by
  rw [UInt64.le_iff_toNat_le] at hratio ⊢
  have hten : (10000 : UInt64).toNat = 10000 := rfl
  have hproduct := Nat.mul_le_mul_left estimate.toNat hratio
  rw [hten] at hproduct
  have hquotient : estimate.toNat ≤ estimate.toNat * ratio.toNat / 10000 :=
    (Nat.le_div_iff_mul_le (by decide)).mpr hproduct
  rw [toNat_materializationEstimate]
  omega

/-- The estimate is the rounded product exactly if that is not too long. -/
theorem materializationEstimate_eq_iff :
    (materializationEstimate estimate ratio).toNat =
        min (estimate.toNat * ratio.toNat / 10000) (2 ^ 64 - 1) ↔
      estimate.toNat * ratio.toNat / 10000 ≤ longestTransferMicros := by
  have hlongest : longestTransferMicros = 1844674407370955 := rfl
  rw [toNat_materializationEstimate]
  omega

end Estimate

section Paths

variable (context : ApplyContext) (candidate : PlanningCandidate) (statePath : StatePathCandidate)

/-- The ratio that the calibrator has learned for a state path, if there are samples. -/
def learnedRatio : Option UInt64 :=
  (((recordFor context candidate).bind (·.materializationRatioBps[materializationKey
    statePath.option.store statePath.option.stateKind candidate.target.id]?)).filter
      (fun metric => decide (0 < metric.samples))).map (·.estimate)

/-- What `apply` sets. -/
theorem calibrateStatePath_materialization :
    (calibrateStatePath context candidate statePath).materializationEstimateMicros =
      some (materializationEstimate statePath.option.estimatedTransferMicros
        ((learnedRatio context candidate statePath).getD
          context.policy.conservativeMaterializationRatioBps)) :=
  rfl

/-- The path with another estimate of its store. -/
def withTransferEstimate (estimatedTransferMicros : UInt64) : StatePathCandidate :=
  { statePath with option := { statePath.option with estimatedTransferMicros } }

/-- Without samples a transfer is not predicted to be shorter than its store predicts. With a
learned ratio the prediction is the rounded product or the largest word, and grows with the
store's. -/
structure PredictsTransfer : Prop where
  conservative : learnedRatio context candidate statePath = none →
    ∃ calibrated, (calibrateStatePath context candidate statePath).materializationEstimateMicros =
      some calibrated ∧ statePath.option.estimatedTransferMicros ≤ calibrated
  learned : ∀ ratio, learnedRatio context candidate statePath = some ratio →
    ∃ calibrated, (calibrateStatePath context candidate statePath).materializationEstimateMicros =
      some calibrated ∧ calibrated.toNat =
        min (statePath.option.estimatedTransferMicros.toNat * ratio.toNat / 10000) (2 ^ 64 - 1)
  monotone : ∀ ratio, learnedRatio context candidate statePath = some ratio →
    ∀ shorter, shorter ≤ statePath.option.estimatedTransferMicros →
      ∃ less more, (calibrateStatePath context candidate
          (withTransferEstimate statePath shorter)).materializationEstimateMicros = some less ∧
        (calibrateStatePath context candidate statePath).materializationEstimateMicros =
          some more ∧ less ≤ more

/-- The store's estimate, or its product with the learned ratio, is not too long. -/
def TransferInRange : Prop :=
  match learnedRatio context candidate statePath with
  | none => statePath.option.estimatedTransferMicros.toNat ≤ longestTransferMicros
  | some ratio => statePath.option.estimatedTransferMicros.toNat * ratio.toNat / 10000 ≤
      longestTransferMicros

variable {context candidate statePath}

/-- The conservative ratio of a valid policy is at least one. -/
theorem conservativeRatio_of_validate {policy : CalibrationPolicy}
    (h : policy.validate = .ok ()) : 10000 ≤ policy.conservativeMaterializationRatioBps := by
  unfold CalibrationPolicy.validate at h
  split at h
  next => cases h
  next hchecks =>
    simp only [not_or] at hchecks
    obtain ⟨-, -, -, -, -, -, -, -, -, -, -, hratio, -⟩ := hchecks
    exact UInt64.not_lt.mp hratio

/-- A transfer is predicted safely exactly if its estimate is in range. -/
theorem predictsTransfer_iff {calibrator : PersistentCalibrator}
    (hvalid : calibrator.policy.validate = .ok ()) (input : PlanningInput)
    (nowUnixMillis : UInt64) (candidate : PlanningCandidate) (statePath : StatePathCandidate) :
    PredictsTransfer (calibrator.contextFor input nowUnixMillis) candidate statePath ↔
      TransferInRange (calibrator.contextFor input nowUnixMillis) candidate statePath := by
  have hratio : 10000 ≤
      (calibrator.contextFor input nowUnixMillis).policy.conservativeMaterializationRatioBps :=
    conservativeRatio_of_validate hvalid
  have hset := calibrateStatePath_materialization (calibrator.contextFor input nowUnixMillis)
    candidate statePath
  unfold TransferInRange
  cases hlearned : learnedRatio (calibrator.contextFor input nowUnixMillis) candidate statePath with
  | none =>
    rw [hlearned, Option.getD_none] at hset
    constructor
    · intro h
      obtain ⟨calibrated, hcalibrated, hle⟩ := h.conservative hlearned
      rw [hset, Option.some.injEq] at hcalibrated
      exact (le_materializationEstimate_iff hratio).mp (hcalibrated ▸ hle)
    · intro h
      refine ⟨fun _ => ⟨_, hset, (le_materializationEstimate_iff hratio).mpr h⟩, ?_, ?_⟩
      · intro ratio hsome
        cases hlearned.symm.trans hsome
      · intro ratio hsome
        cases hlearned.symm.trans hsome
  | some ratio =>
    rw [hlearned, Option.getD_some] at hset
    constructor
    · intro h
      obtain ⟨calibrated, hcalibrated, heq⟩ := h.learned ratio hlearned
      rw [hset, Option.some.injEq] at hcalibrated
      exact materializationEstimate_eq_iff.mp (hcalibrated ▸ heq)
    · intro h
      refine ⟨?_, ?_, ?_⟩
      · intro hnone
        cases hlearned.symm.trans hnone
      · intro ratio' hsome
        cases hlearned.symm.trans hsome
        exact ⟨_, hset, materializationEstimate_eq_iff.mpr h⟩
      · intro ratio' hsome shorter hshorter
        refine ⟨materializationEstimate shorter ratio, _, ?_, hset,
          materializationEstimate_mono hshorter⟩
        have hkept : learnedRatio (calibrator.contextFor input nowUnixMillis) candidate
            (withTransferEstimate statePath shorter) = some ratio := hlearned
        rw [calibrateStatePath_materialization, hkept]
        rfl

/-- A calibrator that has seen nothing. -/
def freshCalibrator : PersistentCalibrator where
  policy := {}
  state := {}
  statePath := none

/-- A planning input without candidates. -/
def emptyInput : PlanningInput where
  request := sampleRequest
  candidates := []
  stateObservation := ⟨∅⟩
  policy := {}

/-- The sample target, with a snapshot that says nothing. -/
def sampleCandidate : PlanningCandidate where
  target := sampleTarget
  capabilities := ⟨∅, true, true, false, false, false, ∅⟩
  snapshot := { targetId := "target", ready := true, estimatedQueueMicros := none }
  coldEstimate := ⟨0, 0, 0, 0⟩
  statePaths := []

/-- A way to the sample state for which the store estimates this time. -/
def transferPath (estimatedTransferMicros : UInt64) : StatePathCandidate where
  state := sampleState
  compatibility := .compatible "tokens"
  option := { sampleOption with estimatedTransferMicros }
  materializationEstimateMicros := none
  estimate := ⟨0, 0, 0, 0⟩

theorem learnedRatio_fresh (statePath : StatePathCandidate) :
    learnedRatio (freshCalibrator.contextFor emptyInput 0) sampleCandidate statePath = none := by
  simp [learnedRatio, recordFor, PersistentCalibrator.contextFor, freshCalibrator]

/-- One second is predicted safely by a fresh calibrator. -/
theorem predictsTransfer_iff_fresh :
    PredictsTransfer (freshCalibrator.contextFor emptyInput 0) sampleCandidate
      (transferPath 1000000) := by
  refine (predictsTransfer_iff (by decide : freshCalibrator.policy.validate = .ok ()) emptyInput 0
    sampleCandidate (transferPath 1000000)).mpr ?_
  rw [TransferInRange, learnedRatio_fresh]
  decide

/-- The largest estimate of a store, which rules a path out, becomes one of about 58 years, a
ten-thousandth of it. -/
theorem not_predictsTransfer_fresh :
    (calibrateStatePath (freshCalibrator.contextFor emptyInput 0) sampleCandidate
        (transferPath u64Max)).materializationEstimateMicros = some 1844674407370955 ∧
      ¬ PredictsTransfer (freshCalibrator.contextFor emptyInput 0) sampleCandidate
        (transferPath u64Max) := by
  have hset : (calibrateStatePath (freshCalibrator.contextFor emptyInput 0) sampleCandidate
      (transferPath u64Max)).materializationEstimateMicros = some 1844674407370955 := by
    rw [calibrateStatePath_materialization, learnedRatio_fresh]
    decide
  refine ⟨hset, fun h => ?_⟩
  obtain ⟨calibrated, hcalibrated, hle⟩ := h.conservative (learnedRatio_fresh _)
  cases hset.symm.trans hcalibrated
  exact absurd hle (by decide)

end Paths

end Locus.Calibration
