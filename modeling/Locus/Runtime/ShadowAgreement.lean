import Locus.Calibration.Calls
import Locus.Lib.Separators
import Locus.Runtime.Selection

/-!
# When a shadow decision counts as an agreement

Two plans agree if their fingerprints are the same text. A fingerprint puts the ids of the
target, the state and the option together with separators that ids may contain, so plans that
differ can have the same one. The counter of agreements stops at the largest number.
-/

namespace Locus.Runtime

open Locus.Core Locus.Planner Locus.Calibration Locus.Lib

/-- Both paths are cold, or reuse the same state with the same option. -/
def SamePath : ExecutionPath → ExecutionPath → Prop
  | .cold, .cold => True
  | .reuse reuse, .reuse other =>
    reuse.state.id = other.state.id ∧ reuse.option.id = other.option.id
  | _, _ => False

/-- Both plans choose the same target and the same path. -/
def SameChoice (plan other : PlacementPlan) : Prop :=
  plan.target.id = other.target.id ∧ SamePath plan.path other.path

/-- The part of a fingerprint behind the target. -/
def pathFingerprint : ExecutionPath → String
  | .cold => "cold"
  | .reuse reuse => "reuse:" ++ reuse.state.id ++ ":" ++ reuse.option.id

/-- The beginning of one path's option can be read as the end of the other's state. -/
def ShiftedPath : ExecutionPath → ExecutionPath → Prop
  | .reuse reuse, .reuse other => ∃ middle, other.state.id = reuse.state.id ++ ":" ++ middle ∧
      reuse.option.id = middle ++ ":" ++ other.option.id
  | _, _ => False

/-- The beginning of one plan's path can be read as the end of the other's target, or on the
same target their paths are shifted against each other. -/
inductive Shifted (plan other : PlacementPlan) : Prop
  | target (middle : String) (ids : other.target.id = plan.target.id ++ "|" ++ middle)
      (paths : pathFingerprint plan.path = middle ++ "|" ++ pathFingerprint other.path)
  | path (same : plan.target.id = other.target.id) (paths : ShiftedPath plan.path other.path)

/-- The call that `select_plan` makes adds one to the agreements. -/
def CountsAgreement (format : StateFormat) (answers : WriteAnswers) (host : Host)
    (replayConsistent : Bool) (legacyPlan calibratedPlan : PlacementPlan) : Prop :=
  (host.recordShadowDecision format answers replayConsistent (planDecisionFingerprint legacyPlan)
    (planDecisionFingerprint calibratedPlan)).2.calibrator.state.shadow.agreements.toNat =
      host.calibrator.state.shadow.agreements.toNat + 1

section Fingerprints

variable {plan other : PlacementPlan}

theorem planDecisionFingerprint_eq (plan : PlacementPlan) :
    planDecisionFingerprint plan = plan.target.id ++ "|" ++ pathFingerprint plan.path := by
  unfold planDecisionFingerprint pathFingerprint
  cases plan.path <;> rfl

/-- The fingerprint of a path tells what it is, up to a shift. -/
theorem pathFingerprint_eq_iff {path other : ExecutionPath} :
    pathFingerprint path = pathFingerprint other ↔
      SamePath path other ∨ ShiftedPath path other ∨ ShiftedPath other path := by
  have hcold (text : String) : "cold" ≠ "reuse:" ++ text := by
    intro h
    have hlist := congrArg String.toList h
    simp at hlist
  cases path with
  | cold =>
    cases other with
    | cold => simp [SamePath]
    | reuse other =>
      have hne := hcold (other.state.id ++ (":" ++ other.option.id))
      simpa [pathFingerprint, SamePath, ShiftedPath, String.append_assoc] using hne
  | reuse reuse =>
    cases other with
    | cold =>
      have hne := (hcold (reuse.state.id ++ (":" ++ reuse.option.id))).symm
      simpa [pathFingerprint, SamePath, ShiftedPath, String.append_assoc] using hne
    | reuse other =>
      have hcancel : pathFingerprint (.reuse reuse) = pathFingerprint (.reuse other) ↔
          reuse.state.id ++ ":" ++ reuse.option.id = other.state.id ++ ":" ++ other.option.id := by
        simp only [pathFingerprint, String.append_assoc, String.append_right_inj]
      rw [hcancel]
      exact string_append_separator_eq_iff ':'

/-- A fingerprint tells what was chosen, up to a shift. -/
theorem planDecisionFingerprint_eq_iff :
    planDecisionFingerprint plan = planDecisionFingerprint other ↔
      SameChoice plan other ∨ Shifted plan other ∨ Shifted other plan := by
  rw [planDecisionFingerprint_eq, planDecisionFingerprint_eq]
  refine (string_append_separator_eq_iff '|').trans ?_
  constructor
  · rintro (⟨htarget, hpath⟩ | ⟨middle, htarget, hpath⟩ | ⟨middle, htarget, hpath⟩)
    · rcases pathFingerprint_eq_iff.mp hpath with hsame | hshift | hshift
      · exact .inl ⟨htarget, hsame⟩
      · exact .inr (.inl (.path htarget hshift))
      · exact .inr (.inr (.path htarget.symm hshift))
    · exact .inr (.inl (.target middle htarget hpath))
    · exact .inr (.inr (.target middle htarget hpath))
  · rintro (⟨htarget, hsame⟩ | hshift | hshift)
    · exact .inl ⟨htarget, pathFingerprint_eq_iff.mpr (.inl hsame)⟩
    · cases hshift with
      | target middle ids paths => exact .inr (.inl ⟨middle, ids, paths⟩)
      | path same paths => exact .inl ⟨same, pathFingerprint_eq_iff.mpr (.inr (.inl paths))⟩
    · cases hshift with
      | target middle ids paths => exact .inr (.inr ⟨middle, ids, paths⟩)
      | path same paths =>
        exact .inl ⟨same.symm, pathFingerprint_eq_iff.mpr (.inr (.inr paths))⟩

theorem ne_append_singleton (text middle : String) (separator : Char) :
    text ++ String.singleton separator ++ middle ≠ text := by
  intro h
  have hlength := congrArg (fun text => text.toList.length) h
  simp at hlength

/-- Shifted plans differ. -/
theorem Shifted.not_sameChoice (h : Shifted plan other) : ¬ SameChoice plan other := by
  rintro ⟨htarget, hpath⟩
  cases h with
  | target middle ids paths =>
    rw [← htarget] at ids
    exact ne_append_singleton _ middle '|' ids.symm
  | path same paths =>
    unfold SamePath at hpath
    unfold ShiftedPath at paths
    split at paths
    next reuse otherReuse hplan hother =>
      rw [hplan, hother] at hpath
      obtain ⟨middle, hstate, -⟩ := paths
      rw [← hpath.1] at hstate
      exact ne_append_singleton _ middle ':' hstate.symm
    next => exact paths

theorem SameChoice.symm (h : SameChoice plan other) : SameChoice other plan := by
  obtain ⟨htarget, hpath⟩ := h
  refine ⟨htarget.symm, ?_⟩
  unfold SamePath at hpath ⊢
  split at hpath
  next hplan hother => simp [hplan, hother]
  next hplan hother => simp [hplan, hother, hpath.1, hpath.2]
  next => exact hpath.elim

/-- Separators in ids do no harm if no target has one and no option has one. -/
theorem not_shifted (htarget : '|' ∉ other.target.id.toList)
    (hoption : ∀ reuse, plan.path = .reuse reuse → ':' ∉ reuse.option.id.toList) :
    ¬ Shifted plan other := by
  intro h
  cases h with
  | target middle ids paths => exact htarget (by simp [ids])
  | path same paths =>
    unfold ShiftedPath at paths
    split at paths
    next reuse otherReuse hplan hother =>
      obtain ⟨middle, -, hmiddle⟩ := paths
      exact hoption reuse hplan (by simp [hmiddle])
    next => exact paths

end Fingerprints

section Counting

variable {format : StateFormat} {answers : WriteAnswers} {host : Host} {replayConsistent : Bool}
  {legacyPlan calibratedPlan : PlacementPlan}

/-- The counter goes up if the fingerprints are the same and it is not at its end. -/
theorem countsAgreement_iff_fingerprint :
    CountsAgreement format answers host replayConsistent legacyPlan calibratedPlan ↔
      planDecisionFingerprint legacyPlan = planDecisionFingerprint calibratedPlan ∧
        host.calibrator.state.shadow.agreements ≠ u64Max := by
  unfold CountsAgreement Host.recordShadowDecision
  rw [commitUpdateLocked_state]
  simp only [Host.update, Calibration.recordShadowDecision]
  split
  next hsame =>
    have hmax : u64Max.toNat = 2 ^ 64 - 1 := rfl
    have hone : (1 : UInt64).toNat = 1 := rfl
    have hlt := host.calibrator.state.shadow.agreements.toNat_lt
    rw [toNat_saturatingAdd, ne_eq, ← UInt64.toNat_inj]
    simp only [hsame, true_and]
    omega
  next hdiffers => simp [hdiffers]

end Counting

/-- A shadow decision counts as an agreement exactly if both plans choose the same, provided
that the counter is not at its end when they do, and that they are not shifted against each
other unless it is. -/
theorem countsAgreement_iff (format : StateFormat) (answers : WriteAnswers) (host : Host)
    (replayConsistent : Bool) (legacyPlan calibratedPlan : PlacementPlan) :
    (CountsAgreement format answers host replayConsistent legacyPlan calibratedPlan ↔
      SameChoice legacyPlan calibratedPlan) ↔
    (SameChoice legacyPlan calibratedPlan → host.calibrator.state.shadow.agreements ≠ u64Max) ∧
    (Shifted legacyPlan calibratedPlan ∨ Shifted calibratedPlan legacyPlan →
      host.calibrator.state.shadow.agreements = u64Max) := by
  rw [countsAgreement_iff_fingerprint, planDecisionFingerprint_eq_iff]
  have hshift : Shifted legacyPlan calibratedPlan ∨ Shifted calibratedPlan legacyPlan →
      ¬ SameChoice legacyPlan calibratedPlan := by
    rintro (h | h) hsame
    · exact h.not_sameChoice hsame
    · exact h.not_sameChoice hsame.symm
  tauto

/-- A plan that reuses a state. -/
def reusePlan (stateId optionId : String) : PlacementPlan where
  target := sampleTarget
  path := .reuse ⟨{ sampleState with id := stateId }, .compatible "tokens",
    { sampleOption with id := optionId, sourceState := stateId }⟩
  predictedCost := ⟨0, 0, 0, 0, 0, 0⟩
  fallback := .coldOnSameTarget
  rationale := []

/-- A calibrator that keeps its state in memory. -/
def memoryHost : Host where
  calibrator := { policy := {}, state := {}, statePath := none }
  file := none

/-- Two plans that reuse different states count as an agreement. -/
theorem not_countsAgreement_iff_reusePlan :
    ¬ (CountsAgreement promotableFormat {} memoryHost true (reusePlan "state" "more:option")
        (reusePlan "state:more" "option") ↔
      SameChoice (reusePlan "state" "more:option") (reusePlan "state:more" "option")) := by
  rw [countsAgreement_iff_fingerprint]
  have hdiffers : ¬ SameChoice (reusePlan "state" "more:option")
      (reusePlan "state:more" "option") := by
    rintro ⟨-, hstate, -⟩
    revert hstate
    decide
  have hsame : planDecisionFingerprint (reusePlan "state" "more:option") =
      planDecisionFingerprint (reusePlan "state:more" "option") := by decide +kernel
  exact fun h => hdiffers (h.mp ⟨hsame, by decide⟩)

end Locus.Runtime
