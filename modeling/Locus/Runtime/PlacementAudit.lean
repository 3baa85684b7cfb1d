import Locus.Planner.Paths

/-!
# The placement audit

Before it executes a plan, the service writes down every path of the input: why it is excluded,
what it costs, and its rank among the feasible ones. The audit repeats the filters of the
planner and sorts the paths instead of scanning them. What it ranks first is what the planner
returns.
-/

namespace Locus.Runtime

open Locus.Core Locus.Planner Locus.Lib

/-- What is written down about a path. -/
structure PathAudit where
  targetId : String
  engineId : String
  pathKind : String
  stateKind : Option String
  store : Option String
  feasible : Bool
  exclusions : List String
  cost : CostBreakdown
  stableKey : String
  rank : Option ℕ
  telemetryStatus : TelemetryStatus
  telemetryConfidence : TelemetryConfidence
  telemetrySource : String
  telemetryRevision : UInt64
  telemetryValidUntilUnixMillis : UInt64
  deriving DecidableEq

/-- A reason, if it applies. -/
def reason (applies : Bool) (text : String) : List String := if applies then [text] else []

/-- `candidate_exclusions` -/
def candidateExclusions (input : PlanningInput) (candidate : PlanningCandidate) : List String :=
  reason (candidate.target.model != input.request.model) "model_identity_mismatch" ++
  reason (candidate.snapshot.targetId != candidate.target.id) "snapshot_target_mismatch" ++
  reason (!candidate.snapshot.ready) "target_not_ready" ++
  reason (!candidate.capabilities.satisfies input.request.requirements) "capability_mismatch"

/-- `state_path_exclusions` -/
def statePathExclusions (input : PlanningInput) (candidate : PlanningCandidate)
    (statePath : StatePathCandidate) : List String :=
  reason (input.stateObservation.unavailableStores.contains statePath.option.store)
    "store_unavailable" ++
  reason (!statePath.compatibility.isCompatible) "state_incompatible" ++
  reason (statePath.state.store != statePath.option.store) "store_mismatch" ++
  reason (statePath.state.id != statePath.option.sourceState) "source_state_mismatch" ++
  reason (statePath.state.kind != statePath.option.stateKind) "state_kind_mismatch" ++
  reason (statePath.state.model != input.request.model) "state_model_mismatch" ++
  reason (statePath.option.targetId != candidate.target.id) "state_target_mismatch" ++
  reason (statePath.option.targetEngine != candidate.target.engine)
    "state_engine_generation_mismatch" ++
  reason (!decide (statePath.state.kind ∈ candidate.capabilities.supportedStateKinds))
    "state_kind_unsupported" ++
  reason (statePath.state.relevantInputSemantics.any fun identity =>
    identity != input.request.inputSemantics) "state_input_semantics_mismatch"

/-- `audit_cost` -/
def auditCost (queueMicros : UInt64) (estimate : ExecutionEstimate)
    (materializationMicros : UInt64) : CostBreakdown where
  queueMicros := queueMicros
  unmatchedPrefillMicros := estimate.unmatchedPrefillMicros
  stateMaterializationMicros := materializationMicros
  decodeMicros := estimate.decodeMicros
  topologyMicros := estimate.topologyMicros
  policyMicros := estimate.policyMicros

/-- The audit of a cold path, before it is ranked. -/
def auditCold (input : PlanningInput) (candidate : PlanningCandidate) : PathAudit where
  targetId := candidate.target.id
  engineId := candidate.target.engine.id
  pathKind := "cold"
  stateKind := none
  store := none
  feasible := (candidateExclusions input candidate).isEmpty
  exclusions := candidateExclusions input candidate
  cost := auditCost (candidate.snapshot.estimatedQueueMicros.getD u64Max) candidate.coldEstimate 0
  stableKey := candidate.target.id ++ ":0:cold"
  rank := none
  telemetryStatus := candidate.snapshot.telemetryStatus
  telemetryConfidence := candidate.snapshot.telemetryConfidence
  telemetrySource := candidate.snapshot.telemetrySource
  telemetryRevision := candidate.snapshot.observationRevision
  telemetryValidUntilUnixMillis := candidate.snapshot.validUntilUnixMillis

/-- The audit of a state path, before it is ranked. -/
def auditReuse (input : PlanningInput) (candidate : PlanningCandidate)
    (statePath : StatePathCandidate) : PathAudit :=
  let exclusions := candidateExclusions input candidate ++
    statePathExclusions input candidate statePath
  { targetId := candidate.target.id
    engineId := candidate.target.engine.id
    pathKind := "reuse"
    stateKind := some statePath.state.kind
    store := some statePath.option.store
    feasible := exclusions.isEmpty
    exclusions
    cost := auditCost (candidate.snapshot.estimatedQueueMicros.getD u64Max) statePath.estimate
      (statePath.materializationEstimateMicros.getD statePath.option.estimatedTransferMicros)
    stableKey :=
      candidate.target.id ++ ":1:" ++ statePath.state.id ++ ":" ++ statePath.option.id
    rank := none
    telemetryStatus := candidate.snapshot.telemetryStatus
    telemetryConfidence := candidate.snapshot.telemetryConfidence
    telemetrySource := candidate.snapshot.telemetrySource
    telemetryRevision := candidate.snapshot.observationRevision
    telemetryValidUntilUnixMillis := candidate.snapshot.validUntilUnixMillis }

/-- The audits of all paths, before they are ranked. -/
def unrankedAudits (input : PlanningInput) : List PathAudit :=
  input.candidates.flatMap fun candidate =>
    auditCold input candidate :: candidate.statePaths.map (auditReuse input candidate)

/-- What the feasible paths are sorted by, with their position. -/
structure RankedPath where
  index : ℕ
  totalMicros : UInt64
  stableKey : String

/-- The order of feasible paths: total cost, then stable key. -/
def RankedPath.le (left right : RankedPath) : Bool :=
  decide (left.totalMicros < right.totalMicros) ||
  (left.totalMicros == right.totalMicros && decide (left.stableKey ≤ right.stableKey))

/-- The feasible paths in the order of their ranks. -/
def rankedPaths (audits : List PathAudit) : List RankedPath :=
  ((audits.zipIdx.filter (·.1.feasible)).map fun (audit, index) =>
    ⟨index, audit.cost.totalMicros, audit.stableKey⟩).mergeSort RankedPath.le

/-- Ranks are counted from one. -/
def PathAudit.setRank (rank : ℕ) (audit : PathAudit) : PathAudit :=
  { audit with rank := some (rank + 1) }

/-- The audits that `trace_planning_paths` computes. -/
def planningAudits (input : PlanningInput) : List PathAudit :=
  (rankedPaths (unrankedAudits input)).zipIdx.foldl (fun audits (path, rank) =>
    audits.modify path.index (PathAudit.setRank rank)) (unrankedAudits input)

/-- What is logged: the first audits and, if some are left out, how many there are. -/
structure AuditLog where
  audits : List PathAudit
  truncatedFrom : Option ℕ

/-- `MAX_PLACEMENT_AUDIT_PATHS` -/
def maxPlacementAuditPaths : ℕ := 256

/-- `trace_planning_paths` -/
def tracePlanningPaths (input : PlanningInput) : AuditLog :=
  let audits := planningAudits input
  { audits := audits.take maxPlacementAuditPaths
    truncatedFrom :=
      if maxPlacementAuditPaths < audits.length then some audits.length else none }

/-- The audit of any path, before it is ranked. -/
def auditPath (input : PlanningInput) (path : InputPath) : PathAudit :=
  match path.statePath with
  | none => auditCold input path.candidate
  | some statePath => auditReuse input path.candidate statePath

section Loops

variable {input : PlanningInput} {candidate : PlanningCandidate} {statePath : StatePathCandidate}

theorem unrankedAudits_eq (input : PlanningInput) :
    unrankedAudits input = (inputPaths input).map (auditPath input) := by
  simp only [unrankedAudits, inputPaths, List.map_flatMap, List.map_cons, List.map_map]
  rfl

@[simp]
theorem isEmpty_reason (applies : Bool) (text : String) :
    (reason applies text).isEmpty = !applies := by
  cases applies <;> rfl

theorem isEmpty_append (reasons reasons' : List String) :
    (reasons ++ reasons').isEmpty = (reasons.isEmpty && reasons'.isEmpty) := by
  cases reasons <;> rfl

/-- A candidate has no exclusions exactly if the planner does not skip it. -/
theorem isEmpty_candidateExclusions :
    (candidateExclusions input candidate).isEmpty = !skipsCandidate input candidate := by
  simp only [candidateExclusions, skipsCandidate, isEmpty_append, isEmpty_reason,
    Bool.not_or]

/-- A state path has no exclusions exactly if the planner does not skip it. -/
theorem isEmpty_statePathExclusions :
    (statePathExclusions input candidate statePath).isEmpty =
      (!input.stateObservation.unavailableStores.contains statePath.option.store &&
        !skipsStatePath input candidate statePath) := by
  simp only [statePathExclusions, skipsStatePath, isEmpty_append, isEmpty_reason,
    Bool.not_or, Bool.and_assoc]

/-- The audit has the cost of what the planner considers. -/
theorem audit_cost (path : InputPath) :
    (auditPath input path).cost = (path.feasiblePath input).cost := by
  rcases path with ⟨candidate, _ | statePath⟩
  · rfl
  · rfl

/-- The audit sorts by the key of what the planner considers. -/
theorem audit_stableKey (path : InputPath) :
    (auditPath input path).stableKey = (path.feasiblePath input).stableKey := by
  rcases path with ⟨candidate, _ | statePath⟩
  · rfl
  · rfl

/-- The audit marks what the planner considers. -/
theorem audit_feasible (path : InputPath) :
    (auditPath input path).feasible = path.considered input := by
  rcases path with ⟨candidate, _ | statePath⟩
  · simp [auditPath, auditCold, InputPath.considered, isEmpty_candidateExclusions]
  · simp [auditPath, auditReuse, InputPath.considered, isEmpty_append,
      isEmpty_candidateExclusions, isEmpty_statePathExclusions]

theorem audit_rank (path : InputPath) : (auditPath input path).rank = none := by
  rcases path with ⟨candidate, _ | statePath⟩
  · rfl
  · rfl

end Loops

section Ranking

variable {input : PlanningInput}

/-- The considered paths with their positions, in the order of their ranks. -/
def sortedPaths (input : PlanningInput) : List (InputPath × ℕ) :=
  ((inputPaths input).zipIdx.filter (·.1.considered input)).mergeSort fun x y =>
    decide ((x.1.feasiblePath input).rank ≤ (y.1.feasiblePath input).rank)

/-- The order of the audit is the planner's. -/
theorem rankedPaths_eq (input : PlanningInput) :
    rankedPaths (unrankedAudits input) = (sortedPaths input).map fun (path, index) =>
      ⟨index, (path.feasiblePath input).cost.totalMicros, (path.feasiblePath input).stableKey⟩ := by
  have hle (x y : InputPath × ℕ) :
      decide ((x.1.feasiblePath input).rank ≤ (y.1.feasiblePath input).rank) =
        RankedPath.le
          ⟨x.2, (x.1.feasiblePath input).cost.totalMicros, (x.1.feasiblePath input).stableKey⟩
          ⟨y.2, (y.1.feasiblePath input).cost.totalMicros, (y.1.feasiblePath input).stableKey⟩ := by
    rw [Bool.eq_iff_iff]
    simp [RankedPath.le, FeasiblePath.rank, Prod.Lex.toLex_le_toLex, UInt64.lt_iff_toNat_lt,
      UInt64.toNat_inj]
  unfold rankedPaths sortedPaths
  rw [unrankedAudits_eq, List.zipIdx_map, List.filter_map, List.map_map,
    List.map_mergeSort fun x _ y _ => hle x y]
  simp only [Function.comp_def, Prod.map, audit_cost, audit_stableKey, audit_feasible, id]

/-- The positions of the considered paths, in the order of their ranks. -/
def rankOrder (input : PlanningInput) : List ℕ := (sortedPaths input).map (·.2)

theorem nodup_rankOrder (input : PlanningInput) : (rankOrder input).Nodup := by
  have hperm := (List.mergeSort_perm ((inputPaths input).zipIdx.filter (·.1.considered input))
    fun x y => decide ((x.1.feasiblePath input).rank ≤ (y.1.feasiblePath input).rank)).map (·.2)
  have hsublist := (List.filter_sublist (l := (inputPaths input).zipIdx)
    (p := (·.1.considered input))).map (·.2)
  rw [List.zipIdx_map_snd] at hsublist
  exact hperm.nodup_iff.mpr (hsublist.nodup List.nodup_range')

/-- The rank that is written down for a position. -/
def rankAt (input : PlanningInput) (j : ℕ) : Option ℕ :=
  if j ∈ rankOrder input then some ((rankOrder input).idxOf j + 1) else none

/-- What is written down about the path at each position. -/
theorem planningAudits_eq (input : PlanningInput) :
    planningAudits input = (inputPaths input).mapIdx fun j path =>
      { auditPath input path with rank := rankAt input j } := by
  refine List.ext_getElem? fun j => ?_
  have hvisits : (rankOrder input).zipIdx 0 =
      (sortedPaths input).zipIdx.map (Prod.map (·.2) id) := List.zipIdx_map
  have hrank := getElem?_foldl_modify PathAudit.setRank (nodup_rankOrder input)
    ((inputPaths input).map (auditPath input)) 0 j
  rw [hvisits, List.foldl_map, List.getElem?_map, Nat.zero_add] at hrank
  unfold planningAudits
  rw [rankedPaths_eq, unrankedAudits_eq, List.zipIdx_map, List.foldl_map, List.getElem?_mapIdx]
  refine hrank.trans ?_
  unfold rankAt
  split
  next => rw [Option.map_map]; rfl
  next =>
    congr 1
    funext path
    rw [← @audit_rank input path]

/-- The best path is ranked first. -/
theorem sortedPaths_of_isFirstLeast {path : FeasiblePath}
    (h : IsFirstLeast FeasiblePath.rank (feasiblePaths input) path) :
    ∃ first i rest, sortedPaths input = (first, i) :: rest ∧
      (inputPaths input)[i]? = some first ∧ first.considered input = true ∧
        first.feasiblePath input = path := by
  have hpaths : feasiblePaths input =
      ((inputPaths input).zipIdx.filter (·.1.considered input)).map (·.1.feasiblePath input) := by
    have hfst : (inputPaths input) = (inputPaths input).zipIdx.map (·.1) :=
      (List.zipIdx_map_fst 0 _).symm
    rw [feasiblePaths_eq]
    conv_lhs => rw [hfst, List.filter_map, List.map_map]
    rfl
  cases hsorted : sortedPaths input with
  | nil =>
    have hperm := List.mergeSort_perm ((inputPaths input).zipIdx.filter (·.1.considered input))
      fun x y => decide ((x.1.feasiblePath input).rank ≤ (y.1.feasiblePath input).rank)
    have hempty := (hperm.symm.trans (.of_eq hsorted)).eq_nil
    have hmem := h.mem
    rw [hpaths, hempty] at hmem
    cases hmem
  | cons first rest =>
    obtain ⟨first, i⟩ := first
    have hfirst : IsFirstLeast (fun x : InputPath × ℕ => (x.1.feasiblePath input).rank) _ _ :=
      isFirstLeast_of_mergeSort hsorted
    have hmem := List.mem_filter.mp hfirst.mem
    have hleast : IsFirstLeast FeasiblePath.rank (feasiblePaths input)
        (first.feasiblePath input) := by
      rw [hpaths]
      exact hfirst.map
    exact ⟨first, i, rest, rfl, List.mem_zipIdx_iff_getElem?.mp hmem.1, by simpa using hmem.2,
      hleast.unique h⟩

end Ranking

/-- An audit says of a path what the planner would. -/
structure Describes (input : PlanningInput) (path : InputPath) (audit : PathAudit) : Prop where
  targetId : audit.targetId = (path.feasiblePath input).target.id
  engineId : audit.engineId = (path.feasiblePath input).target.engine.id
  pathKind : audit.pathKind = if (path.feasiblePath input).path = .cold then "cold" else "reuse"
  cost : audit.cost = (path.feasiblePath input).cost
  stableKey : audit.stableKey = (path.feasiblePath input).stableKey
  feasible : audit.feasible = true ↔ path.considered input = true

theorem describes_audit {input : PlanningInput} (path : InputPath) (rank : Option ℕ) :
    Describes input path { auditPath input path with rank } where
  targetId := by rcases path with ⟨candidate, _ | statePath⟩ <;> rfl
  engineId := by rcases path with ⟨candidate, _ | statePath⟩ <;> rfl
  pathKind := by rcases path with ⟨candidate, _ | statePath⟩ <;> rfl
  cost := audit_cost path
  stableKey := audit_stableKey path
  feasible := by rw [← audit_feasible]

/-- A log begins like the audits. It has them all, or else it says how many there are. -/
structure AuditLog.Reports (log : AuditLog) (audits : List PathAudit) : Prop where
  beginning : log.audits <+: audits
  complete : log.truncatedFrom = none → log.audits = audits
  truncated : ∀ total, log.truncatedFrom = some total →
    total = audits.length ∧ log.audits.length < total

theorem reports_tracePlanningPaths (input : PlanningInput) :
    (tracePlanningPaths input).Reports (planningAudits input) := by
  refine ⟨List.take_prefix _ _, fun h => ?_, fun total h => ?_⟩
  · simp only [tracePlanningPaths, ite_eq_right_iff, reduceCtorEq, imp_false, not_lt] at h ⊢
    exact List.take_of_length_le h
  · simp only [tracePlanningPaths, Option.ite_none_right_eq_some, Option.some.injEq] at h ⊢
    obtain ⟨hmany, rfl⟩ := h
    rw [List.length_take, min_eq_left hmany.le]
    exact ⟨rfl, hmany⟩

/-- The audit has one entry for each path of the input, in order, with what the planner would
say of it, and so much of it is logged as the log says. It marks a path feasible exactly if the
planner considers it. If the planner returns a plan, then just one entry has rank 1, and the
plan is for the path at its position. -/
theorem audit_truthful (input : PlanningInput) :
    (input.candidates.foldl (planCandidate input) {}).best =
      (((inputPaths input).filter (·.considered input)).map (·.feasiblePath input)).foldl
        consider none ∧
    List.Forall₂ (Describes input) (inputPaths input) (planningAudits input) ∧
    (tracePlanningPaths input).Reports (planningAudits input) ∧
    ∀ placement, plan input = .ok placement →
      ∃ (i : ℕ) (path : InputPath), (inputPaths input)[i]? = some path ∧
        path.considered input = true ∧ (path.feasiblePath input).placement = placement ∧
        ∀ (j : ℕ) (audit : PathAudit), (planningAudits input)[j]? = some audit →
          (audit.rank = some 1 ↔ j = i) := by
  refine ⟨best_eq_foldl_consider input, ?_, reports_tracePlanningPaths input,
    fun placement hplan => ?_⟩
  · rw [planningAudits_eq]
    refine List.forall₂_iff_get.mpr ⟨by simp, fun i hpath haudit => ?_⟩
    simpa using describes_audit _ _
  · obtain ⟨best, hbest, rfl, -⟩ := exists_isFirstLeast_of_plan hplan
    obtain ⟨first, i, rest, hsorted, hfound, hconsidered, rfl⟩ :=
      sortedPaths_of_isFirstLeast hbest
    refine ⟨i, first, hfound, hconsidered, rfl, fun j audit haudit => ?_⟩
    rw [planningAudits_eq, List.getElem?_mapIdx] at haudit
    obtain ⟨path, -, rfl⟩ := Option.map_eq_some_iff.mp haudit
    have horder : rankOrder input = i :: rest.map (·.2) := by
      rw [rankOrder, hsorted, List.map_cons]
    by_cases hj : j = i
    · simp [rankAt, horder, hj]
    · simp [rankAt, horder, hj, List.idxOf_cons_ne _ (Ne.symm hj)]

end Locus.Runtime
