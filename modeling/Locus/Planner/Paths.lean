import Locus.Planner.Optimality

/-!
# The paths of an input

An input has a cold path for each candidate and one path for each of its state paths, whether
they are feasible or not. The loops of the planner visit them in order and consider those that
pass the filters.
-/

namespace Locus.Planner

open Locus.Core Locus.Lib

/-- A path of an input, feasible or not. -/
structure InputPath where
  candidate : PlanningCandidate
  statePath : Option StatePathCandidate
  deriving DecidableEq

/-- All paths, in the order in which both the planner and the audit meet them. -/
def inputPaths (input : PlanningInput) : List InputPath :=
  input.candidates.flatMap fun candidate =>
    ⟨candidate, none⟩ :: candidate.statePaths.map fun statePath => ⟨candidate, some statePath⟩

namespace InputPath

/-- The planner gets to the point where it considers the path. -/
def considered (input : PlanningInput) (path : InputPath) : Bool :=
  !skipsCandidate input path.candidate &&
  path.statePath.all fun statePath =>
    !input.stateObservation.unavailableStores.contains statePath.option.store &&
    !skipsStatePath input path.candidate statePath

/-- What the planner considers there. -/
def feasiblePath (input : PlanningInput) (path : InputPath) : FeasiblePath :=
  match path.statePath with
  | none => coldPath path.candidate
  | some statePath => reusePath input path.candidate statePath

end InputPath

section Loops

variable {input : PlanningInput} {candidate : PlanningCandidate} {statePath : StatePathCandidate}

theorem considered_cold :
    (⟨candidate, none⟩ : InputPath).considered input = decide (Eligible input candidate) := by
  rw [Bool.eq_iff_iff, decide_eq_true_iff, ← skipsCandidate_eq_false]
  simp [InputPath.considered]

theorem considered_reuse :
    (⟨candidate, some statePath⟩ : InputPath).considered input =
      (decide (Eligible input candidate) && decide (Reusable input candidate statePath)) := by
  rw [Bool.eq_iff_iff, Bool.and_eq_true, decide_eq_true_iff, decide_eq_true_iff,
    ← skipsCandidate_eq_false, ← skipsStatePath_eq_false]
  simp [InputPath.considered]

/-- The planner considers exactly the paths that it is said to consider. -/
theorem feasiblePaths_eq (input : PlanningInput) :
    feasiblePaths input =
      ((inputPaths input).filter (·.considered input)).map (·.feasiblePath input) := by
  unfold feasiblePaths inputPaths
  induction input.candidates with
  | nil => rfl
  | cons candidate candidates ih =>
    rw [List.flatMap_cons, List.filter_append, List.map_append, ← ih, List.filter_cons]
    by_cases heligible : Eligible input candidate
    · simp [heligible, considered_cold, considered_reuse, candidatePaths, List.filter_map,
        Function.comp_def, InputPath.feasiblePath]
    · simp [heligible, considered_cold, considered_reuse, List.filter_map, Function.comp_def]

/-- The loops of the planner consider the paths that are called considered, in order. -/
theorem best_eq_foldl_consider (input : PlanningInput) :
    (input.candidates.foldl (planCandidate input) {}).best =
      (((inputPaths input).filter (·.considered input)).map (·.feasiblePath input)).foldl
        consider none := by
  rw [(planState_eq input).1, consider_eq, feasiblePaths_eq]

end Loops

end Locus.Planner
