import Locus.Engine.Telemetry

/-!
# The targets of a remote engine

A remote adapter is configured with candidates. It reports those that its engine lists, and
tells the same capabilities of each of them. What `new` checks of the candidates makes them
known by their ids.
-/

namespace Locus.Engine

open Locus.Core

/-- The capabilities that the remote adapters report. -/
def remoteCapabilities : EngineCapabilities where
  supportedInputKinds := {.tokenSequence}
  emitsTokenDeltas := false
  emitsTextDeltas := true
  emitsReasoningDeltas := false
  emitsToolCalls := false
  supportsStructuredOutput := true
  supportedStateKinds := ∅

namespace RemoteEngineConfig

variable (config : RemoteEngineConfig)

/-- `RemoteCompletionAdapter::execution_targets`, with the models that the engine lists or why
that could not be found out. -/
def executionTargets (listed : Except EngineError (List String)) :
    Except EngineError (List ExecutionTarget) :=
  listed.map fun active =>
    ((config.targets.filter fun candidate => candidate.servedModel ∈ active).map
      fun candidate => candidate.target).mergeSort fun left right => decide (left.id ≤ right.id)

/-- `capabilities` -/
def capabilities (target : ExecutionTarget) : Except EngineError EngineCapabilities :=
  (config.targetConfig target).map fun _ => remoteCapabilities

end RemoteEngineConfig

section Spec

variable {config : RemoteEngineConfig} {target : ExecutionTarget}

/-- A target is known to an adapter if it is the target of a candidate. -/
theorem targetConfig_eq_ok {candidate : RemoteExecutionTarget}
    (h : config.targetConfig target = .ok candidate) :
    candidate ∈ config.targets ∧ candidate.target = target := by
  unfold RemoteEngineConfig.targetConfig at h
  split at h
  · rename_i hfound
    cases h
    exact ⟨List.mem_of_find?_eq_some hfound, by simpa using List.find?_some hfound⟩
  · cases h

/-- The candidates that pass the checks are of the engine, and each has an id and a model of
its own. -/
theorem validateTargets_eq_ok {reference : EngineInstanceRef}
    {candidates : List RemoteExecutionTarget} {targetIds servedModels : Finset String}
    (h : validateTargets reference targetIds servedModels candidates = .ok ()) :
    (∀ candidate ∈ candidates, candidate.target.engine = reference ∧
      candidate.target.id ∉ targetIds ∧ candidate.servedModel ∉ servedModels) ∧
    (candidates.map fun candidate => candidate.target.id).Nodup ∧
    (candidates.map fun candidate => candidate.servedModel).Nodup := by
  induction candidates generalizing targetIds servedModels with
  | nil => simp
  | cons candidate rest ih =>
    rw [validateTargets] at h
    split_ifs at h with hengine hblank hid hserved
    obtain ⟨hall, hids, hmodels⟩ := ih h
    refine ⟨?_, List.nodup_cons.mpr ⟨?_, hids⟩, List.nodup_cons.mpr ⟨?_, hmodels⟩⟩
    · intro other hother
      rcases List.mem_cons.mp hother with rfl | hother
      · exact ⟨not_not.mp hengine, hid, hserved⟩
      · obtain ⟨hother, hnot, hnot'⟩ := hall other hother
        exact ⟨hother, fun h => hnot (Finset.mem_insert_of_mem h),
          fun h => hnot' (Finset.mem_insert_of_mem h)⟩
    · intro hmem
      obtain ⟨other, hother, hsame⟩ := List.mem_map.mp hmem
      exact (hall other hother).2.1 (hsame ▸ Finset.mem_insert_self _ _)
    · intro hmem
      obtain ⟨other, hother, hsame⟩ := List.mem_map.mp hmem
      exact (hall other hother).2.2 (hsame ▸ Finset.mem_insert_self _ _)

/-- What the checks of `new` say of the candidates. -/
theorem RemoteCompletionAdapter.targets_spec (adapter : RemoteCompletionAdapter) :
    (∀ candidate ∈ adapter.config.targets,
      candidate.target.engine = adapter.config.engineInstance.reference) ∧
    (adapter.config.targets.map fun candidate => candidate.target.id).Nodup ∧
    (adapter.config.targets.map fun candidate => candidate.servedModel).Nodup := by
  have h := adapter.accepted
  unfold RemoteEngineConfig.validate at h
  dsimp only at h
  split_ifs at h
  obtain ⟨hall, hids, hmodels⟩ := validateTargets_eq_ok h
  exact ⟨fun candidate hmem => (hall candidate hmem).1, hids, hmodels⟩

/-- A candidate of an adapter is known by its target. -/
theorem RemoteCompletionAdapter.targetConfig_eq (adapter : RemoteCompletionAdapter)
    {candidate : RemoteExecutionTarget} (hmem : candidate ∈ adapter.config.targets) :
    adapter.config.targetConfig candidate.target = .ok candidate := by
  cases hfound : adapter.config.targetConfig candidate.target with
  | error error =>
    unfold RemoteEngineConfig.targetConfig at hfound
    split at hfound
    · cases hfound
    · rename_i hnone
      have hnot := List.find?_eq_none.mp hnone candidate hmem
      simp at hnot
  | ok found =>
    obtain ⟨hother, hsame⟩ := targetConfig_eq_ok hfound
    have hid : found.target.id = candidate.target.id := by rw [hsame]
    rw [List.inj_on_of_nodup_map adapter.targets_spec.2.1 hother hmem hid]

/-- An adapter reports no target twice. -/
theorem RemoteCompletionAdapter.nodup_executionTargets (adapter : RemoteCompletionAdapter)
    {listed : Except EngineError (List String)} {targets : List ExecutionTarget}
    (h : adapter.config.executionTargets listed = .ok targets) :
    (targets.map ExecutionTarget.id).Nodup := by
  unfold RemoteEngineConfig.executionTargets at h
  cases listed with
  | error error => cases h
  | ok active =>
    cases h
    rw [((List.mergeSort_perm _ _).map _).nodup_iff, List.map_map]
    exact adapter.targets_spec.2.1.sublist (List.filter_sublist.map _)

/-- The targets that an adapter reports. -/
theorem mem_executionTargets {listed : Except EngineError (List String)}
    {targets : List ExecutionTarget} (h : config.executionTargets listed = .ok targets) :
    ∃ active, listed = .ok active ∧ ∀ target, target ∈ targets ↔
      ∃ candidate ∈ config.targets, candidate.servedModel ∈ active ∧
        candidate.target = target := by
  unfold RemoteEngineConfig.executionTargets at h
  cases listed with
  | error error => cases h
  | ok active =>
    cases h
    refine ⟨active, rfl, fun target => ?_⟩
    simp [List.mem_mergeSort, and_assoc]

end Spec

end Locus.Engine
