import Locus.Planner.Optimality

/-!
# Costs at the upper bound

A total is cut off at the largest number, and an unknown queue counts as that number. Then
all paths of a candidate have the same total and the stable key decides, whatever the other
terms of the cost are. Below the bound a difference in the other terms is a difference in
the totals.
-/

namespace Locus.Planner

open Locus.Core Locus.Lib

variable {input : PlanningInput} {path other : FeasiblePath}

/-- The predicted cost apart from the queue, as a sum without a bound. -/
def CostBreakdown.nonQueueMicros (cost : CostBreakdown) : ℕ :=
  cost.unmatchedPrefillMicros.toNat + cost.stateMaterializationMicros.toNat +
    cost.decodeMicros.toNat + cost.topologyMicros.toNat + cost.policyMicros.toNat

/-- Two feasible paths of one candidate. -/
def SameCandidate (input : PlanningInput) (path other : FeasiblePath) : Prop :=
  ∃ candidate ∈ input.candidates, Eligible input candidate ∧
    path ∈ candidatePaths input candidate ∧ other ∈ candidatePaths input candidate

/-- A path is not chosen over a path of the same candidate that costs less apart from the
queue. -/
def KeepsDifferences (input : PlanningInput) : Prop :=
  ∀ path other, SameCandidate input path other →
    path.cost.nonQueueMicros < other.cost.nonQueueMicros → plan input ≠ .ok other.placement

/-- Some feasible path has a total below the bound. -/
def SomeBelowBound (input : PlanningInput) : Prop :=
  ∃ path, Feasible input path ∧ path.cost.totalMicros ≠ u64Max

/-- The first path by stable key alone is, unless it is denied, the cheapest one of its
candidate apart from the queue. -/
def FirstKeyCheapest (input : PlanningInput) : Prop :=
  ∀ path other, SameCandidate input path other →
    IsFirstLeast FeasiblePath.stableKey (feasiblePaths input) other →
      path.cost.nonQueueMicros < other.cost.nonQueueMicros → ColdDenied input other

/-- The total is the queue and the rest, cut off at the bound. -/
theorem toNat_totalMicros (cost : CostBreakdown) :
    cost.totalMicros.toNat = min (cost.queueMicros.toNat + cost.nonQueueMicros) (2 ^ 64 - 1) := by
  simp only [CostBreakdown.totalMicros, CostBreakdown.nonQueueMicros, toNat_saturatingAdd]
  omega

/-- A total differs from the bound exactly if it is below it. -/
theorem totalMicros_ne_iff {cost : CostBreakdown} :
    cost.totalMicros ≠ u64Max ↔ cost.queueMicros.toNat + cost.nonQueueMicros < 2 ^ 64 - 1 := by
  have hmax : u64Max.toNat = 2 ^ 64 - 1 := rfl
  have htotal := toNat_totalMicros cost
  rw [ne_eq, ← UInt64.toNat_inj, htotal, hmax]
  omega

theorem queueMicros_of_mem {candidate : PlanningCandidate}
    (h : path ∈ candidatePaths input candidate) :
    path.cost.queueMicros = candidate.queueMicros := by
  rcases List.mem_cons.mp h with rfl | h
  · rfl
  · obtain ⟨statePath, -, rfl⟩ := List.mem_map.mp h
    rfl

/-- All paths of a candidate wait in the same queue. -/
theorem SameCandidate.queueMicros_eq (h : SameCandidate input path other) :
    path.cost.queueMicros = other.cost.queueMicros := by
  obtain ⟨candidate, -, -, hpath, hother⟩ := h
  rw [queueMicros_of_mem hpath, queueMicros_of_mem hother]

theorem SameCandidate.feasible (h : SameCandidate input path other) : Feasible input path := by
  obtain ⟨candidate, hmem, heligible, hpath, -⟩ := h
  rcases List.mem_cons.mp hpath with rfl | hpath
  · exact .cold hmem heligible
  · obtain ⟨statePath, hstatePath, rfl⟩ := List.mem_map.mp hpath
    obtain ⟨hstatePath, hreusable⟩ := List.mem_filter.mp hstatePath
    exact .reuse hmem heligible hstatePath (by simpa using hreusable)

theorem SameCandidate.symm (h : SameCandidate input path other) :
    SameCandidate input other path := by
  obtain ⟨candidate, hmem, heligible, hpath, hother⟩ := h
  exact ⟨candidate, hmem, heligible, hother, hpath⟩

/-- A feasible path is determined by what the planner returns for it. -/
theorem Feasible.eq_of_placement_eq (hpath : Feasible input path) (hother : Feasible input other)
    (h : path.placement = other.placement) : path = other := by
  obtain ⟨htarget, hsame, hcost, hfallback, hrationale⟩ := PlacementPlan.mk.inj h
  have hkey : path.stableKey = other.stableKey := by
    cases hpath with
    | cold =>
      cases hother with
      | cold => exact congrArg (fun target : ExecutionTarget => target.id ++ ":0:cold") htarget
      | reuse => cases hsame
    | reuse =>
      cases hother with
      | cold => cases hsame
      | reuse =>
        obtain ⟨hstate, -, hoption⟩ := StateReusePlan.mk.inj (ExecutionPath.reuse.inj hsame)
        have htarget := congrArg ExecutionTarget.id htarget
        have hstate := congrArg StateDescriptor.id hstate
        have hoption := congrArg MaterializationOption.id hoption
        simp only [reusePath] at htarget hstate hoption ⊢
        rw [htarget, hstate, hoption]
  cases path
  cases other
  simp_all

/-- If a cheaper sibling of the first least path exists, all totals are at the bound. -/
theorem not_someBelowBound (hleast : IsFirstLeast FeasiblePath.rank (feasiblePaths input) other)
    (hsame : SameCandidate input path other)
    (hlt : path.cost.nonQueueMicros < other.cost.nonQueueMicros) : ¬ SomeBelowBound input := by
  rintro ⟨below, hbelow, hne⟩
  have hqueue := hsame.queueMicros_eq
  have hle (x : FeasiblePath) (hx : Feasible input x) :
      other.cost.totalMicros.toNat ≤ x.cost.totalMicros.toNat := by
    have hrank := hleast.le (mem_feasiblePaths.mpr hx)
    rcases Prod.Lex.le_iff.mp hrank with hlt | ⟨heq, -⟩
    · exact le_of_lt hlt
    · exact le_of_eq heq
  have hpath := hle path hsame.feasible
  have hbelow := hle below hbelow
  rw [totalMicros_ne_iff] at hne
  rw [toNat_totalMicros, toNat_totalMicros] at hpath hbelow
  rw [hqueue] at hpath
  omega

/-- If all totals are at the bound, the keys decide. -/
theorem rank_le_iff_of_not_someBelowBound (h : ¬ SomeBelowBound input) :
    ∀ x ∈ feasiblePaths input, ∀ y ∈ feasiblePaths input,
      x.rank ≤ y.rank ↔ x.stableKey ≤ y.stableKey := by
  have htotal : ∀ x ∈ feasiblePaths input, x.cost.totalMicros = u64Max := by
    intro x hx
    by_contra hne
    exact h ⟨x, mem_feasiblePaths.mp hx, hne⟩
  intro x hx y hy
  simp only [FeasiblePath.rank, htotal x hx, htotal y hy, Prod.Lex.toLex_le_toLex, lt_irrefl,
    true_and, false_or]

/-- The planner never chooses a path over a cheaper one of the same candidate, exactly if
some feasible path has a total below the bound or the first path by stable key happens to
be right. -/
theorem keepsDifferences_iff (input : PlanningInput) :
    KeepsDifferences input ↔ SomeBelowBound input ∨ FirstKeyCheapest input := by
  constructor
  · intro h
    by_cases hbelow : SomeBelowBound input
    · exact .inl hbelow
    · refine .inr fun path other hsame hfirst hlt => ?_
      by_contra hallowed
      have hleast : IsFirstLeast FeasiblePath.rank (feasiblePaths input) other :=
        hfirst.congr fun x hx y hy => (rank_le_iff_of_not_someBelowBound hbelow x hx y hy).symm
      exact h path other hsame hlt (plan_eq_ok hleast hallowed)
  · intro h path other hsame hlt hplan
    obtain ⟨m, hleast, hplacement, hallowed⟩ := exists_isFirstLeast_of_plan hplan
    obtain rfl := hsame.symm.feasible.eq_of_placement_eq (mem_feasiblePaths.mp hleast.mem)
      hplacement
    have hbelow := not_someBelowBound hleast hsame hlt
    rcases h with h | h
    · exact hbelow h
    · have hfirst := hleast.congr (rank_le_iff_of_not_someBelowBound hbelow)
      exact hallowed (h path other hsame hfirst hlt)

/-- A target with an idle, busy or unknown queue. -/
def queueCandidate (estimatedQueueMicros : Option UInt64) : PlanningCandidate where
  target := sampleTarget
  capabilities := ⟨∅, false, false, false, false, false, {"kv"}⟩
  snapshot := { targetId := "target", ready := true, estimatedQueueMicros }
  coldEstimate := ⟨5000, 0, 0, 0⟩
  statePaths := [⟨sampleState, .compatible "tokens", sampleOption, none, ⟨1000, 0, 0, 0⟩⟩]

def queueInput (estimatedQueueMicros : Option UInt64) : PlanningInput where
  request := sampleRequest
  candidates := [queueCandidate estimatedQueueMicros]
  stateObservation := ⟨∅⟩
  policy := {}

/-- With an unknown queue the planner runs a request cold although reuse is cheaper. -/
theorem not_keepsDifferences_queueInput : ¬ KeepsDifferences (queueInput none) := by
  intro h
  have hsame : SameCandidate (queueInput none)
      (reusePath (queueInput none) (queueCandidate none)
        ⟨sampleState, .compatible "tokens", sampleOption, none, ⟨1000, 0, 0, 0⟩⟩)
      (coldPath (queueCandidate none)) :=
    ⟨queueCandidate none, by simp [queueInput], by decide +kernel, by decide +kernel,
      List.mem_cons_self⟩
  exact h _ _ hsame (by decide) (by decide +kernel)

end Locus.Planner
