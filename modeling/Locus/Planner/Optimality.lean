import Locus.Lib.Least
import Locus.Planner.Plan
import Mathlib.Data.Prod.Lex

/-!
# The chosen path is the cheapest feasible one

The filters of `plan` are restated in positive form, and with them the list of all
feasible paths in the order in which the two loops meet them. The loops turn out to
be one scan for the first least element of that list.
-/

namespace Locus.Planner

open Locus.Core Locus.Lib

variable {input : PlanningInput} {candidate : PlanningCandidate} {statePath : StatePathCandidate}

/-- The candidate filters. -/
structure Eligible (input : PlanningInput) (candidate : PlanningCandidate) : Prop where
  model : candidate.target.model = input.request.model
  targetId : candidate.snapshot.targetId = candidate.target.id
  ready : candidate.snapshot.ready = true
  satisfies : candidate.capabilities.satisfies input.request.requirements = true

/-- The store of a state path did not answer. -/
def StoreOut (input : PlanningInput) (statePath : StatePathCandidate) : Prop :=
  statePath.option.store ∈ input.stateObservation.unavailableStores

/-- The state filters. -/
structure Reusable (input : PlanningInput) (candidate : PlanningCandidate)
    (statePath : StatePathCandidate) : Prop where
  available : ¬ StoreOut input statePath
  compatible : statePath.compatibility.verdict = .compatible
  store : statePath.state.store = statePath.option.store
  source : statePath.state.id = statePath.option.sourceState
  kind : statePath.state.kind = statePath.option.stateKind
  model : statePath.state.model = input.request.model
  targetId : statePath.option.targetId = candidate.target.id
  engine : statePath.option.targetEngine = candidate.target.engine
  supported : statePath.state.kind ∈ candidate.capabilities.supportedStateKinds
  semantics : ∀ identity, statePath.state.relevantInputSemantics = some identity →
    identity = input.request.inputSemantics

/-- The paths that `plan` may choose. -/
inductive Feasible (input : PlanningInput) : FeasiblePath → Prop
  | cold {candidate : PlanningCandidate} (mem : candidate ∈ input.candidates)
      (eligible : Eligible input candidate) : Feasible input (coldPath candidate)
  | reuse {candidate : PlanningCandidate} {statePath : StatePathCandidate}
      (mem : candidate ∈ input.candidates) (eligible : Eligible input candidate)
      (memPath : statePath ∈ candidate.statePaths) (reusable : Reusable input candidate statePath) :
      Feasible input (reusePath input candidate statePath)

/-- A candidate that is not skipped passes its filters. -/
theorem skipsCandidate_eq_false :
    skipsCandidate input candidate = false ↔ Eligible input candidate := by
  simp only [skipsCandidate, Bool.or_eq_false_iff, bne_eq_false_iff_eq, Bool.not_eq_false']
  constructor
  · rintro ⟨⟨⟨hmodel, htarget⟩, hready⟩, hsat⟩
    exact ⟨hmodel, htarget, hready, hsat⟩
  · rintro ⟨hmodel, htarget, hready, hsat⟩
    exact ⟨⟨⟨hmodel, htarget⟩, hready⟩, hsat⟩

/-- A store that is not listed as unavailable did answer. -/
theorem contains_eq_false :
    input.stateObservation.unavailableStores.contains statePath.option.store = false ↔
      ¬ StoreOut input statePath := by
  rw [StoreOut, Std.TreeMap.mem_iff_contains, Bool.not_eq_true]

/-- A state without input semantics fits every request. -/
theorem semantics_any_eq_false :
    (statePath.state.relevantInputSemantics.any fun identity =>
      identity != input.request.inputSemantics) = false ↔
      ∀ identity, statePath.state.relevantInputSemantics = some identity →
        identity = input.request.inputSemantics := by
  cases statePath.state.relevantInputSemantics with
  | none => simp
  | some identity => simp

/-- A state path that is neither lost nor skipped passes its filters. -/
theorem skipsStatePath_eq_false :
    (input.stateObservation.unavailableStores.contains statePath.option.store = false ∧
      skipsStatePath input candidate statePath = false) ↔
      Reusable input candidate statePath := by
  simp only [contains_eq_false, skipsStatePath, Bool.or_eq_false_iff, bne_eq_false_iff_eq,
    Bool.not_eq_false', CompatibilityResult.isCompatible, beq_iff_eq, decide_eq_true_eq,
    semantics_any_eq_false]
  constructor
  · rintro ⟨hout, ⟨⟨⟨⟨⟨⟨⟨⟨h1, h2⟩, h3⟩, h4⟩, h5⟩, h6⟩, h7⟩, h8⟩, h9⟩⟩
    exact ⟨hout, h1, h2, h3, h4, h5, h6, h7, h8, h9⟩
  · rintro ⟨hout, h1, h2, h3, h4, h5, h6, h7, h8, h9⟩
    exact ⟨hout, ⟨⟨⟨⟨⟨⟨⟨⟨h1, h2⟩, h3⟩, h4⟩, h5⟩, h6⟩, h7⟩, h8⟩, h9⟩⟩

instance : Decidable (Eligible input candidate) :=
  decidable_of_iff _ skipsCandidate_eq_false

instance : Decidable (Reusable input candidate statePath) :=
  decidable_of_iff _ skipsStatePath_eq_false

instance : Decidable (StoreOut input statePath) :=
  decidable_of_iff _ Std.TreeMap.mem_iff_contains.symm

/-- The feasible paths of one eligible candidate. -/
def candidatePaths (input : PlanningInput) (candidate : PlanningCandidate) : List FeasiblePath :=
  coldPath candidate ::
    (candidate.statePaths.filter (fun statePath =>
      decide (Reusable input candidate statePath))).map (reusePath input candidate)

/-- All feasible paths, in iteration order. -/
def feasiblePaths (input : PlanningInput) : List FeasiblePath :=
  (input.candidates.filter (fun candidate => decide (Eligible input candidate))).flatMap
    (candidatePaths input)

/-- Some state path of an eligible candidate refers to a store that did not answer. -/
def PathLost (input : PlanningInput) : Prop :=
  ∃ candidate ∈ input.candidates, Eligible input candidate ∧
    ∃ statePath ∈ candidate.statePaths, StoreOut input statePath

/-- The total cost, with ties broken by the stable key. -/
def FeasiblePath.rank (path : FeasiblePath) : ℕ ×ₗ String :=
  toLex (path.cost.totalMicros.toNat, path.stableKey)

/-- The list has exactly the feasible paths. -/
theorem mem_feasiblePaths {path : FeasiblePath} :
    path ∈ feasiblePaths input ↔ Feasible input path := by
  simp only [feasiblePaths, candidatePaths, List.mem_flatMap, List.mem_filter, List.mem_cons,
    List.mem_map, decide_eq_true_eq]
  constructor
  · rintro ⟨candidate, ⟨hmem, helig⟩, rfl | ⟨statePath, ⟨hpath, hreuse⟩, rfl⟩⟩
    · exact .cold hmem helig
    · exact .reuse hmem helig hpath hreuse
  · rintro (⟨hmem, helig⟩ | ⟨hmem, helig, hpath, hreuse⟩)
    · exact ⟨_, ⟨hmem, helig⟩, .inl rfl⟩
    · exact ⟨_, ⟨hmem, helig⟩, .inr ⟨_, ⟨hpath, hreuse⟩, rfl⟩⟩

/-- Being better is having a smaller rank. -/
theorem FeasiblePath.isBetterThan_iff {path other : FeasiblePath} :
    path.isBetterThan other = true ↔ path.rank < other.rank := by
  simp [isBetterThan, rank, Prod.Lex.toLex_lt_toLex, UInt64.lt_iff_toNat_lt, UInt64.toNat_inj]

/-- `consider` keeps the path of smaller rank. -/
theorem consider_eq : consider = keepLess FeasiblePath.rank := by
  funext best candidate
  cases best with
  | none => rfl
  | some current => simp [consider, keepLess, FeasiblePath.isBetterThan_iff]

/-- The inner loop scans the reusable paths and looks for a lost one. -/
theorem foldl_planStatePath (paths : List StatePathCandidate) (state : PlanState) :
    paths.foldl (planStatePath input candidate) state =
      { best := ((paths.filter (fun statePath =>
          decide (Reusable input candidate statePath))).map (reusePath input candidate)).foldl
            consider state.best
        unavailablePathSeen := state.unavailablePathSeen ||
          paths.any (fun statePath => decide (StoreOut input statePath)) } := by
  induction paths generalizing state with
  | nil => simp
  | cons statePath paths ih =>
    rw [List.foldl_cons, ih, List.any_cons]
    unfold planStatePath
    by_cases hout : StoreOut input statePath
    · have hreuse : ¬ Reusable input candidate statePath := fun h => h.available hout
      rw [if_pos (Std.TreeMap.mem_iff_contains.mp hout)]
      simp [hout, hreuse]
    · have hcontains := contains_eq_false.mpr hout
      rw [if_neg (by simp [hcontains])]
      by_cases hreuse : Reusable input candidate statePath
      · have hskip := (skipsStatePath_eq_false.mpr hreuse).2
        simp [hskip, hout, hreuse]
      · have hskip : skipsStatePath input candidate statePath = true := by
          by_contra hskip
          exact hreuse (skipsStatePath_eq_false.mp
            ⟨hcontains, Bool.eq_false_of_not_eq_true hskip⟩)
        simp [hskip, hout, hreuse]

/-- The outer loop scans the feasible paths and looks for a lost one. -/
theorem foldl_planCandidate (candidates : List PlanningCandidate) (state : PlanState) :
    candidates.foldl (planCandidate input) state =
      { best := ((candidates.filter (fun candidate =>
          decide (Eligible input candidate))).flatMap (candidatePaths input)).foldl
            consider state.best
        unavailablePathSeen := state.unavailablePathSeen ||
          candidates.any (fun candidate => decide (Eligible input candidate) &&
            candidate.statePaths.any (fun statePath => decide (StoreOut input statePath))) } := by
  induction candidates generalizing state with
  | nil => simp
  | cons candidate candidates ih =>
    rw [List.foldl_cons, ih, List.any_cons]
    unfold planCandidate
    by_cases helig : Eligible input candidate
    · rw [if_neg (by simp [skipsCandidate_eq_false.mpr helig]), foldl_planStatePath]
      simp [helig, candidatePaths, List.foldl_append, Bool.or_assoc]
    · have hskip : skipsCandidate input candidate = true := by
        by_contra hskip
        exact helig (skipsCandidate_eq_false.mp (by simpa using hskip))
      simp [hskip, helig]

/-- The result of the loops in terms of the feasible paths. -/
theorem planState_eq (input : PlanningInput) :
    ((input.candidates.foldl (planCandidate input) {}).best =
      (feasiblePaths input).foldl (keepLess FeasiblePath.rank) none) ∧
    ((input.candidates.foldl (planCandidate input) {}).unavailablePathSeen = true ↔
      PathLost input) := by
  rw [foldl_planCandidate, ← consider_eq]
  refine ⟨rfl, ?_⟩
  simp [PathLost]

instance : Decidable (PathLost input) :=
  decidable_of_iff _ (planState_eq input).2

/-- What `plan` returns once the first cheapest path is known. -/
theorem plan_of_isFirstLeast {m : FeasiblePath}
    (h : IsFirstLeast FeasiblePath.rank (feasiblePaths input) m) :
    plan input =
      if m.path = .cold ∧ input.policy.allowColdOnStoreOutage = false ∧ PathLost input then
        .error .storeUnavailable
      else .ok ⟨m.target, m.path, m.cost, m.fallback, m.rationale⟩ := by
  obtain ⟨hempty, -⟩ | ⟨m', hbest, hm'⟩ := foldl_keepLess FeasiblePath.rank (feasiblePaths input)
  · exact absurd h.mem (by simp [hempty])
  · obtain rfl := h.unique hm'
    rw [← (planState_eq input).1] at hbest
    simp only [plan, hbest, Bool.and_eq_true, Bool.not_eq_true', decide_eq_true_eq,
      (planState_eq input).2]
    simp only [and_comm, and_left_comm]

/-- What `plan` returns for a path. -/
def FeasiblePath.placement (path : FeasiblePath) : PlacementPlan where
  target := path.target
  path := path.path
  predictedCost := path.cost
  fallback := path.fallback
  rationale := path.rationale

/-- A cold path is not returned when a path was lost and the policy does not allow it. -/
def ColdDenied (input : PlanningInput) (path : FeasiblePath) : Prop :=
  path.path = .cold ∧ input.policy.allowColdOnStoreOutage = false ∧ PathLost input

instance {path : FeasiblePath} : Decidable (ColdDenied input path) :=
  inferInstanceAs (Decidable (_ ∧ _ ∧ _))

/-- What `plan` returns is the first cheapest path, and it was not denied. -/
theorem exists_isFirstLeast_of_plan {placement : PlacementPlan}
    (h : plan input = .ok placement) :
    ∃ m, IsFirstLeast FeasiblePath.rank (feasiblePaths input) m ∧
      placement = m.placement ∧ ¬ ColdDenied input m := by
  obtain ⟨-, hbest⟩ | ⟨m, -, hm⟩ := foldl_keepLess FeasiblePath.rank (feasiblePaths input)
  · rw [← (planState_eq input).1] at hbest
    simp [plan, hbest] at h
  · rw [plan_of_isFirstLeast hm] at h
    split at h
    next => cases h
    next hallowed =>
      cases h
      exact ⟨m, hm, rfl, hallowed⟩

/-- The first cheapest path is returned unless it is denied. -/
theorem plan_eq_ok {m : FeasiblePath}
    (h : IsFirstLeast FeasiblePath.rank (feasiblePaths input) m) (hallowed : ¬ ColdDenied input m) :
    plan input = .ok m.placement := by
  rw [plan_of_isFirstLeast h]
  exact if_neg hallowed

/-- There is a cheapest path exactly if some candidate is eligible. -/
theorem exists_isFirstLeast_iff :
    (∃ m, IsFirstLeast FeasiblePath.rank (feasiblePaths input) m) ↔
      ∃ candidate ∈ input.candidates, Eligible input candidate := by
  constructor
  · rintro ⟨m, hm⟩
    cases mem_feasiblePaths.mp hm.mem with
    | cold hmem heligible => exact ⟨_, hmem, heligible⟩
    | reuse hmem heligible _ _ => exact ⟨_, hmem, heligible⟩
  · rintro ⟨candidate, hmem, heligible⟩
    have hcold := mem_feasiblePaths.mpr (Feasible.cold hmem heligible)
    obtain ⟨hempty, -⟩ | ⟨m, -, hm⟩ := foldl_keepLess FeasiblePath.rank (feasiblePaths input)
    · rw [hempty] at hcold
      cases hcold
    · exact ⟨m, hm⟩

/-- The plan is cold exactly if the first cheapest path is and nothing forbids it. -/
theorem plan_cold_iff :
    (∃ placement, plan input = .ok placement ∧ placement.path = .cold) ↔
      ∃ m, IsFirstLeast FeasiblePath.rank (feasiblePaths input) m ∧ m.path = .cold ∧
        ¬ (input.policy.allowColdOnStoreOutage = false ∧ PathLost input) := by
  constructor
  · rintro ⟨placement, hplacement, hcold⟩
    obtain ⟨hempty, hbest⟩ | ⟨m, -, hm⟩ := foldl_keepLess FeasiblePath.rank (feasiblePaths input)
    · rw [← (planState_eq input).1] at hbest
      simp [plan, hbest] at hplacement
    · rw [plan_of_isFirstLeast hm] at hplacement
      split at hplacement
      next => cases hplacement
      next hallowed =>
        cases hplacement
        exact ⟨m, hm, hcold, fun hforbidden => hallowed ⟨hcold, hforbidden⟩⟩
  · rintro ⟨m, hm, hcold, hallowed⟩
    have hplan := plan_of_isFirstLeast hm
    rw [if_neg (fun hrefused => hallowed hrefused.2)] at hplan
    exact ⟨_, hplan, hcold⟩

/-- `plan` fails for want of a candidate exactly if no path is feasible. Otherwise
there is a first cheapest path. It is returned unless it is cold, cold degradation is
not allowed and some path was lost to a store that did not answer. -/
theorem plan_optimal (input : PlanningInput) :
    (plan input = .error .noFeasibleCandidate ↔ ¬ ∃ path, Feasible input path) ∧
    ((∃ path, Feasible input path) →
      ∃ m, IsFirstLeast FeasiblePath.rank (feasiblePaths input) m ∧
        (plan input = .error .storeUnavailable ↔
          m.path = .cold ∧ input.policy.allowColdOnStoreOutage = false ∧ PathLost input) ∧
        (plan input ≠ .error .storeUnavailable →
          plan input = .ok ⟨m.target, m.path, m.cost, m.fallback, m.rationale⟩)) := by
  obtain ⟨hempty, hbest⟩ | ⟨m, -, hm⟩ := foldl_keepLess FeasiblePath.rank (feasiblePaths input)
  · have hnone : ¬ ∃ path, Feasible input path := by
      rintro ⟨path, hpath⟩
      simpa [hempty] using mem_feasiblePaths.mpr hpath
    rw [← (planState_eq input).1] at hbest
    exact ⟨by simp [plan, hbest, hnone], fun h => absurd h hnone⟩
  · have hsome : ∃ path, Feasible input path := ⟨m, mem_feasiblePaths.mp hm.mem⟩
    have hplan := plan_of_isFirstLeast hm
    by_cases hout : m.path = .cold ∧ input.policy.allowColdOnStoreOutage = false ∧ PathLost input
    · rw [if_pos hout] at hplan
      refine ⟨by simp [hplan, hsome], fun _ => ⟨m, hm, ?_, by simp [hplan]⟩⟩
      simp [hplan, hout]
    · rw [if_neg hout] at hplan
      refine ⟨by simp [hplan, hsome], fun _ => ⟨m, hm, ?_, by simp [hplan]⟩⟩
      rw [hplan]
      exact ⟨by simp, fun h => absurd h hout⟩

end Locus.Planner
