import Locus.Calibration.Invariant

/-!
# Which path is forgotten

A record holds only so many materialization paths. When a new one comes and there is no room,
the path whose key is first in the order of strings makes room for it. That is the path whose
last sample is the oldest only if the keys happen to be ordered like the samples.
-/

namespace Locus.Calibration

open Std (ExtTreeMap)
open Locus.Core Locus.Lib

section Histories

/-- `MaterializationObservation::stable_id` -/
def MaterializationObservation.stableId (materialization : MaterializationObservation) : String :=
  materializationKey materialization.store materialization.stateKind materialization.targetId

/-- The path that an observation samples, if it samples one. -/
def CalibrationObservation.sampledPath (observation : CalibrationObservation) : Option String :=
  if observation.completed then
    (observation.materialization.filter fun materialization =>
      decide (0 < materialization.estimatedMicros)).map MaterializationObservation.stableId
  else none

/-- The state of a fresh calibrator after some observations. -/
def observeAll (policy : CalibrationPolicy) (history : List CalibrationObservation) :
    CalibrationState :=
  history.foldl (fun state observation => (recordObservation policy observation state).1) {}

/-- The paths of a key's record after some observations. -/
def pathsAfter (policy : CalibrationPolicy) (key : CalibrationKey)
    (history : List CalibrationObservation) : ExtTreeMap String MetricEstimate :=
  ((observeAll policy history).records[key.stableId]?.getD {}).materializationRatioBps

/-- How many observations came since the last sample of a path. -/
def pathAge (history : List CalibrationObservation) (path : String) : ℕ :=
  history.reverse.findIdx fun observation => observation.sampledPath == some path

/-- A path is oldest if all others have been sampled since its last sample. -/
def IsOldest (policy : CalibrationPolicy) (key : CalibrationKey)
    (history : List CalibrationObservation) (path : String) : Prop :=
  ∀ other ∈ pathsAfter policy key history, other ≠ path →
    pathAge history other < pathAge history path

/-- Throughout a history the path that is evicted is the oldest one, and the one that was sampled
last is kept unless there may be only one. -/
structure EvictsOldest (policy : CalibrationPolicy) (key : CalibrationKey)
    (history : List CalibrationObservation) : Prop where
  oldest : ∀ front observation, front ++ [observation] <+: history →
    ∀ evicted ∈ pathsAfter policy key front,
      evicted ∉ pathsAfter policy key (front ++ [observation]) →
        IsOldest policy key front evicted
  latestKept : policy.maxMaterializationPathsPerRecord ≠ 1 →
    ∀ front observation, front ++ [observation] <+: history →
      ∀ latest ∈ pathsAfter policy key front,
        (∀ other ∈ pathsAfter policy key front, pathAge front latest ≤ pathAge front other) →
          latest ∈ pathsAfter policy key (front ++ [observation])

/-- An observation samples a new path of a full record. -/
def FindsFull (policy : CalibrationPolicy) (key : CalibrationKey)
    (history : List CalibrationObservation) (observation : CalibrationObservation) : Prop :=
  ∃ path, observation.sampledPath = some path ∧ path ∉ pathsAfter policy key history ∧
    policy.maxMaterializationPathsPerRecord ≤ (pathsAfter policy key history).size

/-- The path with the first key of all. -/
def IsFirstKey (paths : ExtTreeMap String MetricEstimate) (path : String) : Prop :=
  path ∈ paths ∧ ∀ other ∈ paths, path ≤ other

end Histories

variable {policy : CalibrationPolicy} {key : CalibrationKey}
  {history front : List CalibrationObservation} {observation : CalibrationObservation}
  {paths : ExtTreeMap String MetricEstimate} {path evicted : String}

section Steps

/-- The victim is the path with the first key. -/
theorem head?_keys_eq_some_iff : paths.keys.head? = some path ↔ IsFirstKey paths path := by
  have hordered := paths.ordered_keys
  simp only [IsFirstKey, ← ExtTreeMap.mem_keys]
  generalize paths.keys = keys at hordered ⊢
  cases keys with
  | nil => simp
  | cons least rest =>
    rw [List.pairwise_cons] at hordered
    have hlt : ∀ other ∈ rest, least < other := fun other hother =>
      compare_lt_iff_lt.mp (hordered.1 other hother)
    constructor
    · intro h
      obtain rfl := Option.some.inj h
      refine ⟨List.mem_cons_self, fun other hother => ?_⟩
      rcases List.mem_cons.mp hother with rfl | hother
      · exact le_rfl
      · exact (hlt other hother).le
    · rintro ⟨hmem, hleast⟩
      rcases List.mem_cons.mp hmem with rfl | hmem
      · rfl
      · exact absurd (hlt path hmem) (not_lt_of_ge (hleast least List.mem_cons_self))

/-- The paths of a record after a sample of one of them. -/
def learnPath (policy : CalibrationPolicy) (paths : ExtTreeMap String MetricEstimate)
    (path : String) (ratioBps : UInt64) : ExtTreeMap String MetricEstimate :=
  let room := ensurePathCapacity paths path policy.maxMaterializationPathsPerRecord
  room.insert path
    ((room[path]?.getD {}).update ratioBps policy policy.maxMaterializationRatioBps)

/-- An observation touches the paths of a record only by sampling one. -/
theorem paths_observeRecord (hcompleted : observation.completed = true)
    (record : CalibrationRecord) :
    (observation.sampledPath = none ∧
        (observeRecord policy observation record).1.materializationRatioBps =
          record.materializationRatioBps) ∨
      ∃ path ratioBps, observation.sampledPath = some path ∧
        (observeRecord policy observation record).1.materializationRatioBps =
          learnPath policy record.materializationRatioBps path ratioBps := by
  have hfirst (record : CalibrationRecord) :
      (observeFirstToken policy observation record).1.materializationRatioBps =
        record.materializationRatioBps := by
    unfold observeFirstToken
    repeat' split
    all_goals rfl
  have hdecode (record : CalibrationRecord) :
      (observeDecode policy observation record).1.materializationRatioBps =
        record.materializationRatioBps := by
    unfold observeDecode
    repeat' split
    all_goals rfl
  have htopology (record : CalibrationRecord) :
      (observeTopology policy observation record).1.materializationRatioBps =
        record.materializationRatioBps := by
    unfold observeTopology
    split <;> rfl
  cases hmaterialization : observation.materialization with
  | none =>
    left
    simp [CalibrationObservation.sampledPath, observeRecord, observeMaterialization,
      hmaterialization, hfirst, hdecode, htopology]
  | some materialization =>
    by_cases hestimated : 0 < materialization.estimatedMicros
    · right
      refine ⟨materialization.stableId,
        saturatingMul materialization.actualMicros 10000 / materialization.estimatedMicros, ?_, ?_⟩
      · simp [CalibrationObservation.sampledPath, hcompleted, hmaterialization, hestimated]
      · simp [observeRecord, observeMaterialization, hmaterialization, hestimated, hfirst, hdecode,
          htopology, learnPath, MaterializationObservation.stableId]
    · left
      have hzero : materialization.estimatedMicros = 0 := by simpa using hestimated
      simp [CalibrationObservation.sampledPath, observeRecord, observeMaterialization,
        hmaterialization, hzero, hfirst, hdecode, htopology]

/-- A record that makes room for itself is not lost. -/
theorem getD_ensureRecordCapacity (state : CalibrationState) (id : String) (maximum : ℕ) :
    (ensureRecordCapacity state.records id maximum)[id]?.getD {} = state.records[id]?.getD {} := by
  by_cases hmem : id ∈ state.records
  · rw [ensureRecordCapacity, makeRoom_of_space (.inl hmem)]
  · have hnone : state.records[id]? = none := by simpa using hmem
    cases hroom : (ensureRecordCapacity state.records id maximum)[id]? with
    | none => rw [hnone]
    | some record =>
      have hsome := getElem?_of_makeRoom hroom
      rw [hnone] at hsome
      cases hsome

theorem observeAll_append (front : List CalibrationObservation) :
    observeAll policy (front ++ [observation]) =
      (recordObservation policy observation (observeAll policy front)).1 := by
  rw [observeAll, List.foldl_append]
  rfl

/-- One more observation samples a path or leaves all paths. -/
theorem pathsAfter_append (hkey : observation.key = key) (front : List CalibrationObservation) :
    (observation.sampledPath = none ∧
        pathsAfter policy key (front ++ [observation]) = pathsAfter policy key front) ∨
      ∃ path ratioBps, observation.sampledPath = some path ∧
        pathsAfter policy key (front ++ [observation]) =
          learnPath policy (pathsAfter policy key front) path ratioBps := by
  subst hkey
  by_cases hcounted : observation.completed ∧ observation.hasSample
  · have hafter : pathsAfter policy observation.key (front ++ [observation]) =
        (observeRecord policy observation ((observeAll policy front).records[
          observation.key.stableId]?.getD {})).1.materializationRatioBps := by
      rw [pathsAfter, observeAll_append, recordObservation_eq, if_pos hcounted]
      simp only [observedRecords, ExtTreeMap.getElem?_insert_self, Option.getD_some,
        getD_ensureRecordCapacity]
    rw [hafter]
    exact paths_observeRecord hcounted.1 _
  · left
    constructor
    · by_contra hsome
      obtain ⟨path, hpath⟩ := Option.ne_none_iff_exists'.mp hsome
      refine hcounted ?_
      unfold CalibrationObservation.sampledPath at hpath
      split at hpath
      next hcompleted =>
        obtain ⟨materialization, hfilter, -⟩ := Option.map_eq_some_iff.mp hpath
        rw [Option.filter_eq_some_iff] at hfilter
        exact ⟨hcompleted, hasSample_iff.mpr
          (.inr (.inr (.inr ⟨materialization, hfilter.1, by simpa using hfilter.2⟩)))⟩
      next => cases hpath
    · rw [pathsAfter, observeAll_append, recordObservation_eq, if_neg hcounted]
      rfl

/-- What a sample of a path evicts: in a full record without the path, the first key. -/
theorem notMem_learnPath_iff {ratioBps : UInt64} (hmem : evicted ∈ paths) :
    evicted ∉ learnPath policy paths path ratioBps ↔
      (path ∉ paths ∧ policy.maxMaterializationPathsPerRecord ≤ paths.size) ∧
        IsFirstKey paths evicted := by
  by_cases hspace : path ∈ paths ∨ paths.size < policy.maxMaterializationPathsPerRecord
  · have hroom : ensurePathCapacity paths path policy.maxMaterializationPathsPerRecord = paths :=
      makeRoom_of_space hspace
    have hkept : evicted ∈ learnPath policy paths path ratioBps := by
      rw [learnPath, hroom]
      exact ExtTreeMap.mem_insert.mpr (.inr hmem)
    refine iff_of_false (fun h => h hkept) fun h => ?_
    rcases hspace with hpath | hsize
    · exact h.1.1 hpath
    · exact absurd hsize (Nat.not_lt.mpr h.1.2)
  · obtain ⟨hnew, hsize⟩ := not_or.mp hspace
    have hfull := Nat.not_lt.mp hsize
    have hne : paths ≠ ∅ := by
      rintro rfl
      simp at hmem
    obtain ⟨first, -, hfirst⟩ := exists_head?_keys paths hne
    have hroom : ensurePathCapacity paths path policy.maxMaterializationPathsPerRecord =
        paths.erase first := makeRoom_of_full hnew hfull hfirst
    have hpath : path ≠ evicted := by
      rintro rfl
      exact hnew hmem
    have hleft : evicted ∈ learnPath policy paths path ratioBps ↔ first ≠ evicted := by
      rw [learnPath, hroom, ExtTreeMap.mem_insert, ExtTreeMap.mem_erase]
      simp [hpath, hmem]
    rw [hleft, not_not]
    constructor
    · rintro rfl
      exact ⟨⟨hnew, hfull⟩, head?_keys_eq_some_iff.mp hfirst⟩
    · intro h
      have hevicted := head?_keys_eq_some_iff.mpr h.2
      exact Option.some.inj (hfirst.symm.trans hevicted)

/-- What an observation evicts: if it finds the record full, the first key. -/
theorem notMem_pathsAfter_iff (hkey : observation.key = key)
    (hmem : evicted ∈ pathsAfter policy key front) :
    evicted ∉ pathsAfter policy key (front ++ [observation]) ↔
      FindsFull policy key front observation ∧
        IsFirstKey (pathsAfter policy key front) evicted := by
  have happend : (observation.sampledPath = none ∧
      pathsAfter policy key (front ++ [observation]) = pathsAfter policy key front) ∨
      ∃ path ratioBps, observation.sampledPath = some path ∧
        pathsAfter policy key (front ++ [observation]) =
          learnPath policy (pathsAfter policy key front) path ratioBps :=
    pathsAfter_append hkey front
  obtain ⟨hnone, hafter⟩ | ⟨path, ratioBps, hpath, hafter⟩ := happend
  · rw [hafter]
    refine iff_of_false (fun h => h hmem) fun h => ?_
    obtain ⟨path, hpath, -⟩ := h.1
    cases hnone.symm.trans hpath
  · rw [hafter, notMem_learnPath_iff hmem]
    simp [FindsFull, hpath]

end Steps

section Order

/-- Whenever an observation finds the record full, the path with the first key is the oldest. -/
def OrderedByAge (policy : CalibrationPolicy) (key : CalibrationKey)
    (history : List CalibrationObservation) : Prop :=
  ∀ front observation, front ++ [observation] <+: history →
    FindsFull policy key front observation →
      ∀ path, IsFirstKey (pathsAfter policy key front) path → IsOldest policy key front path

/-- A full record with more than one path has another one than a given one. -/
theorem exists_other (hsize : 1 < paths.size) (path : String) : ∃ other ∈ paths, other ≠ path := by
  have hnodup := paths.nodup_keys
  rw [← ExtTreeMap.length_keys] at hsize
  simp only [← ExtTreeMap.mem_keys]
  match hkeys : paths.keys with
  | [] => simp [hkeys] at hsize
  | [_] => simp [hkeys] at hsize
  | first :: second :: rest =>
    rw [hkeys, List.nodup_cons] at hnodup
    by_cases hfirst : first = path
    · refine ⟨second, by simp, fun hsecond => hnodup.1 ?_⟩
      simp [hfirst, hsecond]
    · exact ⟨first, by simp, hfirst⟩

/-- The oldest path is evicted in every step of a history exactly if the keys of full records are
ordered by age as far as the first one goes. -/
theorem evictsOldest_iff (hvalid : policy.validate = .ok ())
    (hkey : ∀ observation ∈ history, observation.key = key) :
    EvictsOldest policy key history ↔ OrderedByAge policy key history := by
  have hpolicy := accepted_of_validate hvalid
  have hlast : ∀ front observation, front ++ [observation] <+: history →
      observation.key = key := by
    intro front observation hfront
    exact hkey observation (hfront.subset (by simp))
  constructor
  · intro h front observation hfront hfull path hfirst
    refine h.oldest front observation hfront path hfirst.1 ?_
    exact (notMem_pathsAfter_iff (hlast front observation hfront) hfirst.1).mpr
      ⟨hfull, hfirst⟩
  · intro h
    refine ⟨fun front observation hfront evicted hmem hgone => ?_,
      fun hlimit front observation hfront latest hmem hlatest => ?_⟩
    · obtain ⟨hfull, hfirst⟩ := (notMem_pathsAfter_iff (hlast front observation hfront)
        hmem).mp hgone
      exact h front observation hfront hfull evicted hfirst
    · by_contra hgone
      obtain ⟨hfull, hfirst⟩ := (notMem_pathsAfter_iff (hlast front observation hfront)
        hmem).mp hgone
      have holdest := h front observation hfront hfull latest hfirst
      have hpaths := hpolicy.paths
      obtain ⟨-, -, -, hsize⟩ := hfull
      have hmany : 1 < (pathsAfter policy key front).size := by omega
      obtain ⟨other, hother, hne⟩ := exists_other hmany latest
      have hless := holdest other hother hne
      have hle := hlatest other hother
      omega

/-- A record may hold two paths. -/
def twoPaths : CalibrationPolicy := { maxMaterializationPathsPerRecord := 2 }

/-- The key of one engine and model. -/
def sampleKey : CalibrationKey := ⟨"engine", 1, "model", none, "profile"⟩

/-- A transfer to a target that took as long as its store had estimated. -/
def sampleTransfer (targetId : String) : CalibrationObservation where
  key := sampleKey
  materialization := some ⟨"store", "kv", targetId, 100, 100⟩

/-- Transfers to three targets in the order of their keys: the path to a is the oldest one when
the third transfer finds the record full. -/
theorem evictsOldest_iff_ordered :
    EvictsOldest twoPaths sampleKey (["a", "b", "c"].map sampleTransfer) := by
  refine (evictsOldest_iff (by decide) (by decide)).mpr
    fun front observation hfront hfull path hfirst => ?_
  obtain ⟨-, -, -, hsize⟩ := hfull
  have hkeys : (pathsAfter twoPaths sampleKey (["a", "b"].map sampleTransfer)).keys =
      ["a", "b"].map (materializationKey "store" "kv") := by decide
  have htake : front = (["a", "b", "c"].map sampleTransfer).take front.length :=
    List.prefix_iff_eq_take.mp ((List.prefix_append front [observation]).trans hfront)
  have hlength : front.length + 1 ≤ 3 := by simpa using hfront.length_le
  -- the record of the first two transfers still has room
  match hn : front.length with
  | 0 =>
    rw [hn] at htake
    subst htake
    exact absurd hsize (by decide)
  | 1 =>
    rw [hn] at htake
    subst htake
    exact absurd hsize (by decide)
  | 2 =>
    rw [hn] at htake
    change front = ["a", "b"].map sampleTransfer at htake
    subst htake
    have hpath : path = materializationKey "store" "kv" "a" := by
      have hhead := head?_keys_eq_some_iff.mpr hfirst
      rw [hkeys] at hhead
      exact (Option.some.inj hhead).symm
    subst hpath
    intro other hother hne
    rw [← ExtTreeMap.mem_keys, hkeys] at hother
    rcases List.mem_cons.mp hother with rfl | hother
    · exact absurd rfl hne
    · rw [List.mem_singleton.mp hother]
      decide
  | n + 3 => omega

/-- Transfers to b, to a and to c: the path to a is forgotten, although it was sampled last. -/
theorem not_evictsOldest_reversed :
    ¬ EvictsOldest twoPaths sampleKey (["b", "a", "c"].map sampleTransfer) := by
  have hage : pathAge (["b", "a"].map sampleTransfer) (materializationKey "store" "kv" "a") = 0 := by
    decide
  intro h
  have hkept := h.latestKept (by decide) (["b", "a"].map sampleTransfer) (sampleTransfer "c")
    (List.prefix_refl _) (materializationKey "store" "kv" "a") (by decide)
    (fun other _ => by rw [hage]; exact Nat.zero_le _)
  exact absurd hkept (by decide)

end Order

end Locus.Calibration
