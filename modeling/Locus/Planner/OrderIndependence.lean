import Locus.Lib.Separators
import Locus.Planner.Optimality

/-!
# The order of candidates

The planner visits candidates and state paths in the order of its input and keeps the first
of several least paths. What it decides depends on that order exactly if two different least
paths have the same stable key. Keys are texts put together from identifiers with colons
between them, so this can happen when identifiers contain colons themselves.
-/

namespace Locus.Planner

open Locus.Core Locus.Lib

/-- Different candidates have different targets, and different state paths of a candidate
have different states or different options. -/
structure Distinct (input : PlanningInput) : Prop where
  targets : input.candidates.Pairwise fun candidate other => candidate.target.id ≠ other.target.id
  paths : ∀ candidate ∈ input.candidates, candidate.statePaths.Pairwise fun path other =>
    ¬ (path.state.id = other.state.id ∧ path.option.id = other.option.id)

instance (input : PlanningInput) : Decidable (Distinct input) :=
  decidable_of_iff
    ((input.candidates.Pairwise fun candidate other => candidate.target.id ≠ other.target.id) ∧
      ∀ candidate ∈ input.candidates, candidate.statePaths.Pairwise fun path other =>
        ¬ (path.state.id = other.state.id ∧ path.option.id = other.option.id))
    ⟨fun h => ⟨h.1, h.2⟩, fun h => ⟨h.targets, h.paths⟩⟩

/-- The same candidate with its state paths in another order. -/
def ReorderedPaths (candidate other : PlanningCandidate) : Prop :=
  ∃ statePaths, statePaths.Perm candidate.statePaths ∧ other = { candidate with statePaths }

/-- The same input with its candidates, and the state paths of each, in another order. -/
def Reordered (input other : PlanningInput) : Prop :=
  ∃ candidates candidates', candidates.Perm input.candidates ∧
    List.Forall₂ ReorderedPaths candidates candidates' ∧
    other = { input with candidates := candidates' }

/-- What the planner decides: the target, the path with its state and option, and the cost. -/
def decision (input : PlanningInput) :
    Except PlanningError (ExecutionTarget × ExecutionPath × CostBreakdown) :=
  (plan input).map fun placement => (placement.target, placement.path, placement.predictedCost)

/-- No reordering changes the decision. -/
def OrderIndependent (input : PlanningInput) : Prop :=
  ∀ other, Reordered input other → decision other = decision input

/-- No feasible path is better. -/
def IsLeastPath (input : PlanningInput) (path : FeasiblePath) : Prop :=
  Feasible input path ∧ ∀ other, Feasible input other → path.rank ≤ other.rank

/-- No two different feasible paths have the same least cost and the same stable key. -/
def Unambiguous (input : PlanningInput) : Prop :=
  ∀ path other, IsLeastPath input path → IsLeastPath input other → path = other

section Reordering

variable {input other : PlanningInput} {candidate candidate' : PlanningCandidate}
  {path : FeasiblePath}

theorem ReorderedPaths.symm (h : ReorderedPaths candidate candidate') :
    ReorderedPaths candidate' candidate := by
  obtain ⟨statePaths, hperm, rfl⟩ := h
  exact ⟨candidate.statePaths, hperm.symm, rfl⟩

theorem ReorderedPaths.refl (candidate : PlanningCandidate) :
    ReorderedPaths candidate candidate :=
  ⟨candidate.statePaths, List.Perm.refl _, rfl⟩

theorem Reordered.symm (h : Reordered input other) : Reordered other input := by
  obtain ⟨candidates, candidates', hperm, hall, rfl⟩ := h
  obtain ⟨found, hfound, hperm'⟩ := List.perm_comp_forall₂ hperm.symm hall
  refine ⟨found, input.candidates, hperm', ?_, rfl⟩
  exact hfound.flip.imp fun _ _ hpaths => ReorderedPaths.symm hpaths

/-- Related lists have related members. -/
theorem exists_mem_of_forall₂ {α β : Type*} {R : α → β → Prop} {l : List α} {l' : List β} {a : α}
    (h : List.Forall₂ R l l') (ha : a ∈ l) : ∃ b ∈ l', R a b := by
  induction h with
  | nil => cases ha
  | @cons first first' l l' hfirst _ ih =>
    rcases List.mem_cons.mp ha with rfl | ha
    · exact ⟨first', List.mem_cons_self, hfirst⟩
    · obtain ⟨b, hb, hab⟩ := ih ha
      exact ⟨b, List.mem_cons_of_mem _ hb, hab⟩

/-- Every candidate is found again. -/
theorem Reordered.exists_candidate (h : Reordered input other)
    (hmem : candidate' ∈ other.candidates) :
    ∃ candidate ∈ input.candidates, ReorderedPaths candidate candidate' := by
  obtain ⟨candidates, candidates', hperm, hall, rfl⟩ := h
  obtain ⟨candidate, hcandidate, hpaths⟩ := exists_mem_of_forall₂ hall.flip hmem
  exact ⟨candidate, hperm.mem_iff.mp hcandidate, hpaths⟩

/-- The filters do not look at the other candidates, nor at the order of state paths. -/
theorem eligible_reordered {candidates statePaths} :
    Eligible { input with candidates } { candidate with statePaths } ↔ Eligible input candidate :=
  ⟨fun h => ⟨h.model, h.targetId, h.ready, h.satisfies⟩,
    fun h => ⟨h.model, h.targetId, h.ready, h.satisfies⟩⟩

theorem reusable_reordered {candidates statePaths statePath} :
    Reusable { input with candidates } { candidate with statePaths } statePath ↔
      Reusable input candidate statePath :=
  ⟨fun h => ⟨h.available, h.compatible, h.store, h.source, h.kind, h.model, h.targetId, h.engine,
      h.supported, h.semantics⟩,
    fun h => ⟨h.available, h.compatible, h.store, h.source, h.kind, h.model, h.targetId, h.engine,
      h.supported, h.semantics⟩⟩

theorem Reordered.feasible (h : Reordered input other) (hpath : Feasible other path) :
    Feasible input path := by
  cases hpath with
  | cold hmem heligible =>
    obtain ⟨candidate, hcandidate, statePaths, hperm, rfl⟩ := h.exists_candidate hmem
    obtain ⟨candidates, candidates', -, -, rfl⟩ := h
    have hcold := Feasible.cold hcandidate (eligible_reordered.mp heligible)
    exact hcold
  | reuse hmem heligible hstatePath hreusable =>
    obtain ⟨candidate, hcandidate, statePaths, hperm, rfl⟩ := h.exists_candidate hmem
    obtain ⟨candidates, candidates', -, -, rfl⟩ := h
    have hreuse := Feasible.reuse hcandidate (eligible_reordered.mp heligible)
      (hperm.mem_iff.mp hstatePath) (reusable_reordered.mp hreusable)
    exact hreuse

theorem Reordered.pathLost (h : Reordered input other) (hlost : PathLost other) :
    PathLost input := by
  obtain ⟨candidate', hmem, heligible, statePath, hpath, hout⟩ := hlost
  obtain ⟨candidate, hcandidate, statePaths, hperm, rfl⟩ := h.exists_candidate hmem
  obtain ⟨candidates, candidates', -, -, rfl⟩ := h
  exact ⟨candidate, hcandidate, eligible_reordered.mp heligible, statePath,
    hperm.mem_iff.mp hpath, hout⟩

/-- A reordered input loses a path to a store exactly if the input does. -/
theorem Reordered.pathLost_iff (h : Reordered input other) : PathLost other ↔ PathLost input :=
  ⟨h.pathLost, h.symm.pathLost⟩

end Reordering

section Least

variable {input other : PlanningInput} {path path' : FeasiblePath}

theorem isLeastPath_of_isFirstLeast
    (h : IsFirstLeast FeasiblePath.rank (feasiblePaths input) path) : IsLeastPath input path :=
  ⟨mem_feasiblePaths.mp h.mem, fun _ hother => h.le (mem_feasiblePaths.mpr hother)⟩

theorem Reordered.isLeastPath (h : Reordered input other) (hleast : IsLeastPath other path) :
    IsLeastPath input path :=
  ⟨h.feasible hleast.1, fun _ hpath => hleast.2 _ (h.symm.feasible hpath)⟩

/-- What is decided once the first least path is known. -/
def decisionOn (input : PlanningInput) (path : FeasiblePath) :
    Except PlanningError (ExecutionTarget × ExecutionPath × CostBreakdown) :=
  if path.path = .cold ∧ input.policy.allowColdOnStoreOutage = false ∧ PathLost input then
    .error .storeUnavailable
  else .ok (path.target, path.path, path.cost)

theorem decision_of_isFirstLeast
    (h : IsFirstLeast FeasiblePath.rank (feasiblePaths input) path) :
    decision input = decisionOn input path := by
  unfold decision decisionOn
  rw [plan_of_isFirstLeast h]
  split
  · rfl
  · rfl

/-- The decision is about the first least path, if there is a feasible one. -/
theorem decision_cases (input : PlanningInput) :
    (decision input = .error .noFeasibleCandidate ∧ ∀ path, ¬ Feasible input path) ∨
      ∃ path, IsFirstLeast FeasiblePath.rank (feasiblePaths input) path ∧
        decision input = decisionOn input path := by
  obtain ⟨hempty, hbest⟩ | ⟨path, -, hpath⟩ :=
    foldl_keepLess FeasiblePath.rank (feasiblePaths input)
  · refine .inl ⟨?_, fun path hpath => ?_⟩
    · rw [← (planState_eq input).1] at hbest
      simp [decision, plan, hbest, Except.map]
    · simpa [hempty] using mem_feasiblePaths.mpr hpath
  · exact .inr ⟨path, hpath, decision_of_isFirstLeast hpath⟩

theorem Reordered.decisionOn_eq (h : Reordered input other) (path : FeasiblePath) :
    decisionOn other path = decisionOn input path := by
  have hpolicy : other.policy = input.policy := by
    obtain ⟨candidates, candidates', -, -, rfl⟩ := h
    rfl
  unfold decisionOn
  simp only [hpolicy, h.pathLost_iff]

/-- Without ambiguity the order does not matter. -/
theorem Unambiguous.orderIndependent (h : Unambiguous input) : OrderIndependent input := by
  intro other hother
  rcases decision_cases input with ⟨hnone, hinfeasible⟩ | ⟨path, hpath, hdecision⟩
  · rcases decision_cases other with ⟨hnone', -⟩ | ⟨path', hpath', -⟩
    · rw [hnone, hnone']
    · have hfeasible := hother.feasible (mem_feasiblePaths.mp hpath'.mem)
      exact absurd hfeasible (hinfeasible path')
  · rcases decision_cases other with ⟨-, hinfeasible⟩ | ⟨path', hpath', hdecision'⟩
    · have hfeasible := hother.symm.feasible (mem_feasiblePaths.mp hpath.mem)
      exact absurd hfeasible (hinfeasible path)
    · have hsame : path = path' := h path path' (isLeastPath_of_isFirstLeast hpath)
        (hother.isLeastPath (isLeastPath_of_isFirstLeast hpath'))
      rw [hdecision', hdecision, hsame, hother.decisionOn_eq]

end Least

section Keys

variable {input : PlanningInput} {candidate candidate' : PlanningCandidate}
  {statePath statePath' : StatePathCandidate} {path path' : FeasiblePath}

theorem toList_coldKey (candidate : PlanningCandidate) :
    (coldPath candidate).stableKey.toList =
      candidate.target.id.toList ++ ':' :: ('0' :: ":cold".toList) := by
  simp [coldPath]

theorem toList_reuseKey (input : PlanningInput) (candidate : PlanningCandidate)
    (statePath : StatePathCandidate) :
    (reusePath input candidate statePath).stableKey.toList =
      candidate.target.id.toList ++ ':' :: ('1' :: ':' ::
        (statePath.state.id.toList ++ ':' :: statePath.option.id.toList)) := by
  simp [reusePath]

/-- On one candidate, cold execution and reuse have different keys. -/
theorem coldKey_ne_reuseKey :
    (coldPath candidate).stableKey ≠ (reusePath input candidate statePath).stableKey := by
  intro h
  have hlist := congrArg String.toList h
  rw [toList_coldKey, toList_reuseKey, List.append_cancel_left_eq] at hlist
  simp at hlist

theorem stableKey_eq_of_rank_eq (h : path.rank = path'.rank) : path.stableKey = path'.stableKey :=
  congrArg (fun rank => (ofLex rank).2) h

/-- Two least paths have the same rank. -/
theorem IsLeastPath.rank_eq (h : IsLeastPath input path) (h' : IsLeastPath input path') :
    path.rank = path'.rank :=
  le_antisymm (h.2 _ h'.1) (h'.2 _ h.1)

theorem Distinct.candidate_eq (h : Distinct input) (hmem : candidate ∈ input.candidates)
    (hmem' : candidate' ∈ input.candidates) (hid : candidate.target.id = candidate'.target.id) :
    candidate = candidate' := by
  have hnodup : (input.candidates.map fun candidate => candidate.target.id).Nodup :=
    List.pairwise_map.mpr h.targets
  exact List.inj_on_of_nodup_map hnodup hmem hmem' hid

theorem Distinct.statePath_eq (h : Distinct input) (hmem : candidate ∈ input.candidates)
    (hpath : statePath ∈ candidate.statePaths) (hpath' : statePath' ∈ candidate.statePaths)
    (hstate : statePath.state.id = statePath'.state.id)
    (hoption : statePath.option.id = statePath'.option.id) : statePath = statePath' := by
  have hnodup : (candidate.statePaths.map fun path => (path.state.id, path.option.id)).Nodup := by
    refine List.pairwise_map.mpr ((h.paths candidate hmem).imp fun hdiffers heq => ?_)
    exact hdiffers (Prod.mk.inj heq)
  exact List.inj_on_of_nodup_map hnodup hpath hpath' (by rw [hstate, hoption])

/-- Paths on one target with the same state and option are the same. -/
theorem Distinct.path_eq (h : Distinct input) (hpath : Feasible input path)
    (hpath' : Feasible input path') (htarget : path.target = path'.target)
    (hsame : path.path = path'.path) : path = path' := by
  cases hpath with
  | cold hmem =>
    cases hpath' with
    | cold hmem' => rw [h.candidate_eq hmem hmem' (congrArg ExecutionTarget.id htarget)]
    | reuse => cases hsame
  | reuse hmem _ hstatePath =>
    cases hpath' with
    | cold => cases hsame
    | reuse hmem' _ hstatePath' =>
      obtain rfl := h.candidate_eq hmem hmem' (congrArg ExecutionTarget.id htarget)
      obtain ⟨hstate, -, hoption⟩ := StateReusePlan.mk.inj (ExecutionPath.reuse.inj hsame)
      rw [h.statePath_eq hmem hstatePath hstatePath' (congrArg StateDescriptor.id hstate)
        (congrArg MaterializationOption.id hoption)]

/-- Least paths that are decided alike are the same. -/
theorem Distinct.eq_of_decisionOn_eq (h : Distinct input) (hleast : IsLeastPath input path)
    (hleast' : IsLeastPath input path') (heq : decisionOn input path = decisionOn input path') :
    path = path' := by
  unfold decisionOn at heq
  split at heq
  next hcold =>
    split at heq
    next hcold' =>
      have hkeys := stableKey_eq_of_rank_eq (hleast.rank_eq hleast')
      obtain ⟨hpath, -⟩ := hleast
      obtain ⟨hpath', -⟩ := hleast'
      -- Cold paths with the same key run on the same target.
      cases hpath with
      | reuse => cases hcold.1
      | cold hmem =>
        cases hpath' with
        | reuse => cases hcold'.1
        | cold hmem' =>
          have hlist := congrArg String.toList hkeys
          rw [toList_coldKey, toList_coldKey, List.append_cancel_right_eq] at hlist
          rw [h.candidate_eq hmem hmem' (String.toList_injective hlist)]
    next => cases heq
  next =>
    split at heq
    next => cases heq
    next =>
      obtain ⟨htarget, hpath⟩ := Prod.mk.inj (Except.ok.inj heq)
      exact h.path_eq hleast.1 hleast'.1 htarget (Prod.mk.inj hpath).1

/-- The ids that a colon ends in a key have no colon themselves, and neither do those at the
end of a key. -/
structure ColonFree (input : PlanningInput) : Prop where
  targets : ∀ candidate ∈ input.candidates, ':' ∉ candidate.target.id.toList
  options : ∀ candidate ∈ input.candidates, ∀ statePath ∈ candidate.statePaths,
    ':' ∉ statePath.option.id.toList

/-- If only state ids contain colons, a key tells paths apart. -/
theorem ColonFree.eq_of_stableKey_eq (h : ColonFree input) (hdistinct : Distinct input)
    (hpath : Feasible input path) (hpath' : Feasible input path')
    (hkeys : path.stableKey = path'.stableKey) : path = path' := by
  have hlist := congrArg String.toList hkeys
  cases hpath with
  | cold hmem =>
    cases hpath' with
    | cold hmem' =>
      rw [toList_coldKey, toList_coldKey, List.append_cancel_right_eq] at hlist
      rw [hdistinct.candidate_eq hmem hmem' (String.toList_injective hlist)]
    | reuse hmem' =>
      rw [toList_coldKey, toList_reuseKey] at hlist
      have hrest := (eq_of_separator_append_eq (h.targets _ hmem) (h.targets _ hmem') hlist).2
      simp at hrest
  | reuse hmem _ hstatePath =>
    cases hpath' with
    | cold hmem' =>
      rw [toList_coldKey, toList_reuseKey] at hlist
      have hrest := (eq_of_separator_append_eq (h.targets _ hmem) (h.targets _ hmem') hlist).2
      simp at hrest
    | reuse hmem' _ hstatePath' =>
      rw [toList_reuseKey, toList_reuseKey] at hlist
      obtain ⟨hid, hrest⟩ :=
        eq_of_separator_append_eq (h.targets _ hmem) (h.targets _ hmem') hlist
      obtain rfl := hdistinct.candidate_eq hmem hmem' (String.toList_injective hid)
      have hrest := (List.cons.inj (List.cons.inj hrest).2).2
      have hoption := eq_of_append_separator_eq (h.options _ hmem _ hstatePath)
        (h.options _ hmem _ hstatePath') hrest
      rw [hoption, List.append_cancel_right_eq] at hrest
      rw [hdistinct.statePath_eq hmem hstatePath hstatePath' (String.toList_injective hrest)
        (String.toList_injective hoption)]

/-- Colons in state ids alone do no harm. -/
theorem ColonFree.unambiguous (h : ColonFree input) (hdistinct : Distinct input) :
    Unambiguous input := fun _ _ hleast hleast' =>
  h.eq_of_stableKey_eq hdistinct hleast.1 hleast'.1
    (stableKey_eq_of_rank_eq (hleast.rank_eq hleast'))

end Keys

section First

variable {input : PlanningInput} {path : FeasiblePath}

theorem reordered_of_perm {candidates : List PlanningCandidate}
    (hperm : candidates.Perm input.candidates) : Reordered input { input with candidates } :=
  ⟨candidates, candidates, hperm, List.forall₂_same.mpr fun _ _ => .refl _, rfl⟩

/-- A least path is the first one if those before it are not least. -/
theorem IsLeastPath.isFirstLeast (h : IsLeastPath input path) (before : List FeasiblePath)
    (hlist : before ++ [path] <+: feasiblePaths input)
    (hbefore : ∀ earlier ∈ before, path.stableKey ≠ earlier.stableKey) :
    IsFirstLeast FeasiblePath.rank (feasiblePaths input) path := by
  obtain ⟨after, hlist⟩ := hlist
  have hle : ∀ other ∈ feasiblePaths input, path.rank ≤ other.rank := fun other hother =>
    h.2 other (mem_feasiblePaths.mp hother)
  rw [← hlist] at hle
  refine ⟨before, after, by rw [← hlist, List.append_assoc]; rfl, fun earlier hearlier => ?_,
    fun later hlater => hle later (by simp [hlater])⟩
  refine lt_of_le_of_ne (hle earlier (by simp [hearlier])) fun heq => ?_
  exact hbefore earlier hearlier (stableKey_eq_of_rank_eq heq)

/-- The paths of the first candidate come first. -/
theorem candidatePaths_isPrefix {candidate : PlanningCandidate} {rest : List PlanningCandidate}
    (hcandidates : input.candidates = candidate :: rest) (heligible : Eligible input candidate) :
    candidatePaths input candidate <+: feasiblePaths input := by
  unfold feasiblePaths
  rw [hcandidates, List.filter_cons_of_pos (by simpa using heligible), List.flatMap_cons]
  exact List.prefix_append _ _

/-- The first state path comes right after cold execution. -/
theorem firstReuse_isPrefix {candidate : PlanningCandidate} {statePath : StatePathCandidate}
    {rest : List StatePathCandidate} (hpaths : candidate.statePaths = statePath :: rest)
    (hreusable : Reusable input candidate statePath) :
    [coldPath candidate, reusePath input candidate statePath] <+:
      candidatePaths input candidate := by
  unfold candidatePaths
  rw [hpaths, List.filter_cons_of_pos (by simpa using hreusable), List.map_cons]
  exact List.prefix_append _ _

/-- Any least path comes first in some order. -/
theorem exists_reordered_isFirstLeast (h : IsLeastPath input path) :
    ∃ other, Reordered input other ∧
      IsFirstLeast FeasiblePath.rank (feasiblePaths other) path := by
  have hfeasible := h.1
  cases hfeasible with
  | @cold candidate hmem heligible =>
    obtain ⟨front, back, hcandidates⟩ := List.append_of_mem hmem
    let other : PlanningInput := { input with candidates := candidate :: (front ++ back) }
    have hother : Reordered input other :=
      reordered_of_perm (hcandidates ▸ List.perm_middle.symm)
    have heligible' : Eligible other candidate := eligible_reordered.mpr heligible
    have hfront : [coldPath candidate] <+: feasiblePaths other :=
      (List.prefix_append _ _).trans (candidatePaths_isPrefix rfl heligible')
    exact ⟨other, hother, (hother.symm.isLeastPath h).isFirstLeast [] hfront (by simp)⟩
  | @reuse candidate statePath hmem heligible hpath hreusable =>
    obtain ⟨front, back, hcandidates⟩ := List.append_of_mem hmem
    obtain ⟨earlier, later, hpaths⟩ := List.append_of_mem hpath
    let moved : PlanningCandidate :=
      { candidate with statePaths := statePath :: (earlier ++ later) }
    let other : PlanningInput := { input with candidates := moved :: (front ++ back) }
    have hmoved : ReorderedPaths candidate moved :=
      ⟨_, hpaths ▸ List.perm_middle.symm, rfl⟩
    have hother : Reordered input other :=
      ⟨candidate :: (front ++ back), moved :: (front ++ back),
        hcandidates ▸ List.perm_middle.symm,
        .cons hmoved (List.forall₂_same.mpr fun _ _ => .refl _), rfl⟩
    have heligible' : Eligible other moved := eligible_reordered.mpr heligible
    have hreusable' : Reusable other moved statePath := reusable_reordered.mpr hreusable
    have hfront : [coldPath moved] ++ [reusePath input candidate statePath] <+:
        feasiblePaths other :=
      (firstReuse_isPrefix rfl hreusable').trans (candidatePaths_isPrefix rfl heligible')
    refine ⟨other, hother, (hother.symm.isLeastPath h).isFirstLeast _ hfront ?_⟩
    intro cold hcold hkeys
    rw [List.mem_singleton.mp hcold] at hkeys
    have hkeys : (reusePath input candidate statePath).stableKey =
        (coldPath candidate).stableKey := hkeys
    exact coldKey_ne_reuseKey hkeys.symm

end First

/-- Whatever the order of candidates and state paths, the planner decides the same, exactly
if no two different feasible paths have the least cost and the same stable key. -/
theorem orderIndependent_iff (input : PlanningInput) (hdistinct : Distinct input) :
    OrderIndependent input ↔ Unambiguous input := by
  refine ⟨fun h path path' hleast hleast' => ?_, Unambiguous.orderIndependent⟩
  obtain ⟨other, hother, hfirst⟩ := exists_reordered_isFirstLeast hleast
  obtain ⟨other', hother', hfirst'⟩ := exists_reordered_isFirstLeast hleast'
  have hdecided : decisionOn input path = decision input := by
    rw [← hother.decisionOn_eq, ← decision_of_isFirstLeast hfirst, h other hother]
  have hdecided' : decisionOn input path' = decision input := by
    rw [← hother'.decisionOn_eq, ← decision_of_isFirstLeast hfirst', h other' hother']
  exact hdistinct.eq_of_decisionOn_eq hleast hleast' (hdecided.trans hdecided'.symm)

/-- One candidate with two ways to reuse a state. The ids of the states and options are told
apart by the colon that a key puts between them, and both cost the same. -/
def colonInput (stateIds optionIds : List String) : PlanningInput where
  request := sampleRequest
  candidates := [{
    target := sampleTarget
    capabilities := ⟨∅, false, false, false, false, false, {"kv"}⟩
    snapshot := { targetId := "target", ready := true, estimatedQueueMicros := some 0 }
    coldEstimate := ⟨5, 0, 0, 0⟩
    statePaths := (stateIds.zip optionIds).map fun (stateId, optionId) => {
      state := { sampleState with id := stateId }
      compatibility := .compatible "tokens"
      option := { sampleOption with id := optionId, sourceState := stateId }
      materializationEstimateMicros := none
      estimate := ⟨1, 0, 0, 0⟩ } }]
  stateObservation := ⟨∅⟩
  policy := {}

/-- A state whose id has a colon beside one whose id has none: the options have none, so the order
does not matter. -/
theorem orderIndependent_iff_colonInput :
    OrderIndependent (colonInput ["state:more", "state"] ["option", "other"]) := by
  have hdistinct : Distinct (colonInput ["state:more", "state"] ["option", "other"]) := by
    decide +kernel
  have hfree : ColonFree (colonInput ["state:more", "state"] ["option", "other"]) :=
    ⟨by decide +kernel, by decide +kernel⟩
  exact (orderIndependent_iff _ hdistinct).mpr (hfree.unambiguous hdistinct)

/-- The state `state:more` with the option `option` has the key of the state `state` with the
option `more:option`. The one that comes first is chosen. -/
theorem not_orderIndependent_colonInput :
    Distinct (colonInput ["state:more", "state"] ["option", "more:option"]) ∧
      ¬ OrderIndependent (colonInput ["state:more", "state"] ["option", "more:option"]) := by
  refine ⟨by decide +kernel, fun h => ?_⟩
  have hother : Reordered (colonInput ["state:more", "state"] ["option", "more:option"])
      (colonInput ["state", "state:more"] ["more:option", "option"]) :=
    ⟨_, _, .refl _, .cons ⟨_, .swap _ _ _, rfl⟩ .nil, rfl⟩
  have hsame := h _ hother
  revert hsame
  decide +kernel

end Locus.Planner
