import Locus.Calibration.Calls

/-!
# What the file holds

The number of pending updates is counted by an atomic word that wraps around. As long as no
update is made at its maximum, it is the number of updates since the load or the last
successful write. The file then holds the state in memory whenever nothing is pending after
a write, and whenever a plan is promoted. What was written can be loaded again.
-/

namespace Locus.Calibration

open Std (ExtTreeMap)
open Locus.Core Locus.Lib Locus.Planner

variable {format : StateFormat} {answers : WriteAnswers} {policy : CalibrationPolicy}
  {host middle after : Host} {path : StatePath} {updates : Prop}

/-- The updates since the load or the last successful write. -/
def pendingUpdates (log : List LogEntry) : ℕ :=
  log.foldl (fun pending entry =>
    match entry with
    | .updated => pending + 1
    | .replaced .. => pending
    | .persisted => 0) 0

@[simp] theorem pendingUpdates_updated (log : List LogEntry) :
    pendingUpdates (log ++ [LogEntry.updated]) = pendingUpdates log + 1 := by
  simp [pendingUpdates]

@[simp] theorem pendingUpdates_replaced (log : List LogEntry) (bytes : List UInt8)
    (state : CalibrationState) :
    pendingUpdates (log ++ [.replaced bytes state]) = pendingUpdates log := by
  simp [pendingUpdates]

@[simp] theorem pendingUpdates_persisted (log : List LogEntry) :
    pendingUpdates (log ++ [.persisted]) = 0 := by
  simp [pendingUpdates]

/-- The file decodes to the state in memory. -/
def Host.Decodes (format : StateFormat) (host : Host) : Prop :=
  ∃ bytes, host.file = some bytes ∧ format.fromSlice bytes = .ok host.calibrator.state

/-- What is promised about the file of a calibrator. -/
structure Durable (format : StateFormat) (policy : CalibrationPolicy) (path : StatePath)
    (host : Host) : Prop where
  dirty : host.calibrator.dirtyUpdates.toNat = pendingUpdates host.log
  clean : host.calibrator.dirtyUpdates = 0 → .persisted ∈ host.log → host.Decodes format
  promoted : ∀ (answers : WriteAnswers) (plan : PlacementPlan)
    (evidence : Option CandidateCalibrationEvidence) (status : PromotionStatus) (after : Host),
    host.promotionStatus format answers plan evidence = (.ok status, after) →
      status.qualified = true →
        after.Decodes format ∧ after.calibrator.state = host.calibrator.state ∧
          after.calibrator.persistenceHealthy = true
  written : ∀ (bytes : List UInt8) (state : CalibrationState),
    .replaced bytes state ∈ host.log → loadState format policy path.path {} bytes = .ok state

/-- An update is made only where the counter has room for it. -/
def CountsExactly (host : Host) (call : Call) : Prop :=
  call.updates → host.calibrator.dirtyUpdates ≠ u64Max

/-- What every call keeps, for a counter that has room. The file may be behind the state only
while updates are pending, or before the first update. -/
structure Tracked (format : StateFormat) (policy : CalibrationPolicy) (path : StatePath)
    (host : Host) : Prop where
  policy_eq : host.calibrator.policy = policy
  path_eq : host.calibrator.statePath = some path
  limits : WithinLimits policy host.calibrator.state
  dirty : host.calibrator.dirtyUpdates.toNat = pendingUpdates host.log
  current : pendingUpdates host.log = 0 →
    host.Decodes format ∨ (.persisted ∉ host.log ∧ host.calibrator.state = {})
  written : ∀ (bytes : List UInt8) (state : CalibrationState),
    .replaced bytes state ∈ host.log → loadState format policy path.path {} bytes = .ok state

section Loading

/-- A state within the limits that fits its size limit is loaded from its bytes. -/
theorem loadState_of_serializes {state : CalibrationState} {bytes : List UInt8} (source : String)
    (hlimits : WithinLimits policy state) (hbytes : format.toVecPretty state = .ok bytes)
    (hsize : bytes.length ≤ policy.maxStateBytes) :
    loadState format policy source {} bytes = .ok state := by
  have hpaths : ∀ entry ∈ state.records.toList,
      entry.2.materializationRatioBps.size ≤ policy.maxMaterializationPathsPerRecord := by
    rintro ⟨key, record⟩ hmem
    exact hlimits.paths key record (ExtTreeMap.mem_toList_iff_getElem?_eq_some.mp hmem)
  simp only [loadState, Nat.not_lt.mpr hsize, format.round_trip hbytes, hlimits.schema,
    Nat.not_lt.mpr hlimits.records, if_false, ne_eq, not_true_eq_false]
  rw [if_neg]
  rw [Bool.not_eq_true, List.any_eq_false]
  intro entry hmem
  simpa using hpaths entry hmem

/-- A loaded state passed the checks and is what the file decodes to. -/
theorem of_loadState {source : String} {reads : ReadAnswers} {bytes : List UInt8}
    {state : CalibrationState} (h : loadState format policy source reads bytes = .ok state) :
    format.fromSlice bytes = .ok state ∧ WithinLimits policy state := by
  unfold loadState at h
  split at h
  next => cases h
  next =>
    split at h
    next => cases h
    next =>
      split at h
      next => cases h
      next =>
        split at h
        next => cases h
        next loaded hloaded =>
          split at h
          next => cases h
          next hschema =>
            split at h
            next => cases h
            next hrecords =>
              split at h
              next => cases h
              next hpaths =>
                cases h
                refine ⟨hloaded, not_not.mp hschema, Nat.not_lt.mp hrecords, ?_⟩
                intro key record hrecord
                simp only [List.any_eq_true, decide_eq_true_eq, Prod.exists, not_exists,
                  not_and, not_lt] at hpaths
                exact hpaths key record (ExtTreeMap.mem_toList_iff_getElem?_eq_some.mpr hrecord)

end Loading

section Steps

theorem Tracked.setHealthy (h : Tracked format policy path host) (healthy : Bool) :
    Tracked format policy path (host.setHealthy healthy) :=
  ⟨h.policy_eq, h.path_eq, h.limits, h.dirty, h.current, h.written⟩

/-- The file is replaced by the state in memory. -/
theorem Tracked.replace (h : Tracked format policy path host) {bytes : List UInt8}
    (hfits : host.Serializes format bytes) :
    Tracked format policy path (host.replace bytes) := by
  refine ⟨h.policy_eq, h.path_eq, h.limits, ?_, ?_, ?_⟩
  · exact h.dirty.trans (pendingUpdates_replaced _ _ _).symm
  · intro _
    exact .inl ⟨bytes, rfl, format.round_trip hfits.1⟩
  · intro written state hmem
    rcases List.mem_append.mp hmem with hold | hnew
    · exact h.written written state hold
    · obtain ⟨rfl, rfl⟩ : written = bytes ∧ state = host.calibrator.state := by simpa using hnew
      exact loadState_of_serializes _ h.limits hfits.1 (h.policy_eq ▸ hfits.2)

theorem Tracked.persisted (h : Tracked format policy path host) {bytes : List UInt8}
    (hfits : host.Serializes format bytes) :
    Tracked format policy path ((host.persisted bytes).setDirty 0) := by
  have hreplaced := h.replace hfits
  refine ⟨h.policy_eq, h.path_eq, h.limits, ?_, ?_, ?_⟩
  · exact (pendingUpdates_persisted _).symm
  · intro _
    exact .inl ⟨bytes, rfl, format.round_trip hfits.1⟩
  · intro written state hmem
    refine hreplaced.written written state ?_
    simpa [Host.persisted, Host.setDirty] using hmem

/-- An update that is counted. -/
theorem Tracked.counted (hpolicy : Accepted policy) (h : Tracked format policy path host)
    {state : CalibrationState} (hroom : host.calibrator.dirtyUpdates ≠ u64Max)
    (hupdate : Updated host.calibrator.policy host.calibrator.state state) :
    Tracked format policy path (host.counted state) := by
  rw [h.policy_eq] at hupdate
  refine ⟨h.policy_eq, h.path_eq, hupdate.withinLimits hpolicy h.limits, ?_, ?_, ?_⟩
  · have hbound := host.calibrator.dirtyUpdates.toNat_lt
    have hmax : u64Max.toNat = 2 ^ 64 - 1 := rfl
    have hone : (1 : UInt64).toNat = 1 := rfl
    rw [Ne, ← UInt64.toNat_inj] at hroom
    have hdirty := h.dirty
    simp only [Host.counted, Host.setDirty, Host.update, pendingUpdates_updated, UInt64.toNat_add]
    omega
  · intro hnone
    simp [Host.counted, Host.setDirty, Host.update] at hnone
  · intro bytes written hmem
    refine h.written bytes written ?_
    simpa [Host.counted, Host.setDirty, Host.update] using hmem

/-- What one call keeps. -/
theorem Tracked.performed (hpolicy : Accepted policy) (h : Tracked format policy path host)
    (hroom : updates → host.calibrator.dirtyUpdates ≠ u64Max)
    (hperformed : Performed format updates host after) : Tracked format policy path after := by
  have hbegan {middle : Host} (hbegan : Began updates host middle) :
      Tracked format policy path middle := by
    cases hbegan with
    | same => exact h
    | updated update asked => exact h.counted hpolicy (hroom asked) update
  cases hperformed with
  | kept began => exact hbegan began
  | wrote began _ writes =>
    have hmiddle := hbegan began
    cases writes with
    | failed => exact hmiddle.setHealthy false
    | failedLate _ fits => exact (hmiddle.replace fits).setHealthy false
    | written fits => exact hmiddle.persisted fits

/-- A calibrator that was loaded starts with what its file holds. -/
theorem tracked_of_load {reads : ReadAnswers} {file : Option (List UInt8)}
    {calibrator : PersistentCalibrator}
    (hload : PersistentCalibrator.load format policy (some path) reads file = .ok calibrator) :
    Tracked format policy path ⟨calibrator, file, []⟩ := by
  obtain ⟨-, state, rfl, hstate⟩ := load_eq_ok hload
  rcases hstate with ⟨rfl, -⟩ | ⟨_, bytes, -, rfl, hbytes⟩
  · exact ⟨rfl, rfl, withinLimits_default, rfl, fun _ => .inr ⟨by simp, rfl⟩, by simp⟩
  · obtain ⟨hdecodes, hlimits⟩ := of_loadState hbytes
    exact ⟨rfl, rfl, hlimits, rfl, fun _ => .inl ⟨bytes, rfl, hdecodes⟩, by simp⟩

end Steps

section Promotion

variable {plan : PlacementPlan} {evidence : Option CandidateCalibrationEvidence}
  {status : PromotionStatus}

/-- What a qualified status says about the calibrator. -/
theorem qualified_cases
    (h : host.promotionStatus format answers plan evidence = (.ok status, after))
    (hqualified : status.qualified = true) :
    sharedReasons host.calibrator = [] ∧
      ((host.calibrator.dirtyUpdates = 0 ∧ after = host) ∨
        host.persistPending format answers = (.ok (), after)) := by
  unfold Host.promotionStatus at h
  cases evidence with
  | none =>
    cases h
    cases hqualified
  | some evidence =>
    simp only at h
    have hreasons (hempty : (sharedReasons host.calibrator ++
        targetReasons host.calibrator plan evidence).isEmpty = true) :
        sharedReasons host.calibrator = [] :=
      (List.append_eq_nil_iff.mp (List.isEmpty_iff.mp hempty)).1
    split at h
    next hwrite =>
      refine ⟨hreasons hwrite.1, .inr ?_⟩
      split at h
      next => cases h
      next after' hok =>
        cases h
        exact hok
    next hkept =>
      cases h
      refine ⟨hreasons hqualified, .inl ⟨?_, rfl⟩⟩
      have hzero : ¬ 0 < host.calibrator.dirtyUpdates := fun hdirty => hkept ⟨hqualified, hdirty⟩
      rw [UInt64.lt_iff_toNat_lt] at hzero
      rw [← UInt64.toNat_inj]
      have hzero' : (0 : UInt64).toNat = 0 := rfl
      omega

/-- No shared reason: the calibrator is healthy and has made a decision. -/
theorem healthy_of_sharedReasons {calibrator : PersistentCalibrator}
    (hpolicy : Accepted calibrator.policy) (h : sharedReasons calibrator = []) :
    calibrator.isPersistent = true ∧ calibrator.persistenceHealthy = true ∧
      calibrator.state ≠ {} := by
  simp only [sharedReasons, List.append_eq_nil_iff, ite_eq_left_iff, ite_eq_right_iff,
    List.cons_ne_nil, imp_false, not_not] at h
  obtain ⟨⟨⟨⟨hpath, hhealthy⟩, hdecisions⟩, -⟩, -⟩ := h
  refine ⟨hpath, hhealthy, ?_⟩
  intro hstate
  rw [hstate, UInt64.lt_iff_toNat_lt] at hdecisions
  have hpositive := UInt64.le_iff_toNat_le.mp hpolicy.decisions
  have hone : (1 : UInt64).toNat = 1 := rfl
  exact hdecisions (Nat.lt_of_lt_of_le (by decide) hpositive)

/-- A plan is promoted only on evidence that the file holds. -/
theorem Tracked.promoted (hpolicy : Accepted policy) (htracked : Tracked format policy path host)
    (h : host.promotionStatus format answers plan evidence = (.ok status, after))
    (hqualified : status.qualified = true) :
    after.Decodes format ∧ after.calibrator.state = host.calibrator.state ∧
      after.calibrator.persistenceHealthy = true := by
  obtain ⟨hreasons, hcases⟩ := qualified_cases h hqualified
  rw [← htracked.policy_eq] at hpolicy
  obtain ⟨hpath, hhealthy, hused⟩ := healthy_of_sharedReasons hpolicy hreasons
  rcases hcases with ⟨hclean, rfl⟩ | hwrote
  · have hnone : pendingUpdates after.log = 0 := by
      rw [← htracked.dirty, hclean]
      rfl
    rcases htracked.current hnone with hdecodes | ⟨-, hfresh⟩
    · exact ⟨hdecodes, rfl, hhealthy⟩
    · exact absurd hfresh hused
  · have hwrites := wrotePending_persistPending format answers hpath
    rw [hwrote] at hwrites
    simp only at hwrites
    cases hwrites with
    | written fits => exact ⟨⟨_, rfl, format.round_trip fits.1⟩, rfl, rfl⟩

end Promotion

/-- What every call keeps implies what is promised. -/
theorem Tracked.durable (hpolicy : Accepted policy) (h : Tracked format policy path host) :
    Durable format policy path host where
  dirty := h.dirty
  clean hclean hpersisted := by
    have hnone : pendingUpdates host.log = 0 := by
      rw [← h.dirty, hclean]
      rfl
    rcases h.current hnone with hdecodes | ⟨hnever, -⟩
    · exact hdecodes
    · exact absurd hpersisted hnever
  promoted _ _ _ _ _ := h.promoted hpolicy
  written := h.written

/-- Throughout every run from a load in which no update is made at the maximum of the counter,
whatever the file system answers, the promises about the file hold. -/
theorem durable_of_run {reads : ReadAnswers} {file : Option (List UInt8)}
    {calibrator : PersistentCalibrator} {calls : List Call}
    (hload : PersistentCalibrator.load format policy (some path) reads file = .ok calibrator)
    (hrun : Run (permitted CountsExactly (callStep format)) ⟨calibrator, file, []⟩ calls host) :
    Durable format policy path host := by
  have hpolicy := accepted_of_validate (load_eq_ok hload).1
  refine Tracked.durable hpolicy (hrun.invariant (Tracked format policy path) ?_
    (tracked_of_load hload))
  rintro host call after htracked ⟨hroom, hstep⟩
  rw [hstep]
  exact htracked.performed hpolicy hroom (performed_perform format host call)

section Promotable

/-- A policy that asks for one sample and one decision, and writes every second update. -/
def promotablePolicy : CalibrationPolicy :=
  { minSamplesPerMetric := 1, minShadowDecisions := 1, persistenceFlushEveryUpdates := 2 }

/-- A request to an idle engine. -/
def idleObservation : CalibrationObservation where
  key := CalibrationKey.fromTarget sampleTarget
  waitingRequests := some 0
  inputTokens := 10
  outputTokens := 10
  timeToFirstTokenMicros := some 1000
  generationMicros := some 5000

/-- The state after this request. -/
def observedState : CalibrationState := (recordObservation promotablePolicy idleObservation {}).1

/-- The state after one more decision. -/
def promotableState : CalibrationState := recordShadowDecision observedState true "a" "a"

/-- The lines of a file that holds the request and as many decisions as agreements. -/
def stateLines (revision decisions : String) : List String :=
  ["\x7b",
   "  \"schema_version\": \"locus.calibration-state.v1\",",
   "  \"revision\": " ++ revision ++ ",",
   "  \"records\": \x7b",
   "    \"[\\\"engine\\\",1,\\\"model\\\",null,\\\"profile\\\"]\": \x7b",
   "      \"last_updated_revision\": 1,",
   "      \"queue_micros_per_waiting_request\": \x7b",
   "        \"estimate\": 0,",
   "        \"samples\": 0,",
   "        \"mape_bps\": 0",
   "      \x7d,",
   "      \"prefill_micros_per_token\": \x7b",
   "        \"estimate\": 100,",
   "        \"samples\": 1,",
   "        \"mape_bps\": 0",
   "      \x7d,",
   "      \"decode_micros_per_token\": \x7b",
   "        \"estimate\": 500,",
   "        \"samples\": 1,",
   "        \"mape_bps\": 0",
   "      \x7d,",
   "      \"topology_micros\": \x7b",
   "        \"estimate\": 0,",
   "        \"samples\": 0,",
   "        \"mape_bps\": 0",
   "      \x7d,",
   "      \"materialization_ratio_bps\": \x7b\x7d",
   "    \x7d",
   "  \x7d,",
   "  \"shadow\": \x7b",
   "    \"decisions\": " ++ decisions ++ ",",
   "    \"agreements\": " ++ decisions ++ ",",
   "    \"replay_mismatches\": 0",
   "  \x7d",
   "\x7d"]

/-- The bytes of a text. -/
def textBytes (lines : List String) : List UInt8 :=
  ((lines.map fun line => line.toUTF8.data.toList).intersperse [10]).flatten

def observedBytes : List UInt8 := textBytes (stateLines "1" "0")

def promotableBytes : List UInt8 := textBytes (stateLines "2" "1")

/-- The two states and their files. -/
def promotableFormat : StateFormat :=
  .ofTable [(observedState, observedBytes), (promotableState, promotableBytes)]
    (by decide +kernel)

def samplePath : StatePath where
  path := "/var/lib/locus/calibration.json"
  parent := some "/var/lib/locus"
  temporary := "/var/lib/locus/calibration.locus-calibration.tmp"

/-- A host that was started without a file. -/
def freshHost (policy : CalibrationPolicy) (path : StatePath) : Host :=
  ⟨{ policy, state := {}, statePath := some path }, none, []⟩

/-- The evidence for the sample target. -/
def idleEvidence : CandidateCalibrationEvidence where
  key := CalibrationKey.fromTarget sampleTarget
  snapshotFresh := true
  queueCalibrationRequired := false
  usedConservativeQueue := false
  usedConservativePrefill := false
  usedConservativeDecode := false
  revision := 2

/-- The cold path on the sample target. -/
def coldPlan : PlacementPlan where
  target := sampleTarget
  path := .cold
  predictedCost := ⟨0, 1000, 0, 5000, 0, 0⟩
  fallback := .fail
  rationale := []

/-- The first update is pending. -/
def observedHost : Host :=
  (freshHost promotablePolicy samplePath).perform promotableFormat
    (.recordObservation {} idleObservation)

/-- The second update writes both. -/
def promotableHost : Host :=
  observedHost.perform promotableFormat (.recordShadowDecision {} true "a" "a")

theorem observedState_ne : observedState ≠ promotableState := by decide

theorem toVecPretty_observed :
    promotableFormat.toVecPretty observedState = .ok observedBytes := by
  simp [promotableFormat, StateFormat.ofTable]

theorem toVecPretty_promotable :
    promotableFormat.toVecPretty promotableState = .ok promotableBytes := by
  simp [promotableFormat, StateFormat.ofTable, observedState_ne]

theorem observedBytes_length : observedBytes.length ≤ promotablePolicy.maxStateBytes := by
  decide +kernel

theorem promotableBytes_length : promotableBytes.length ≤ promotablePolicy.maxStateBytes := by
  decide +kernel

/-- After the second update nothing is pending. -/
theorem promotableHost_eq :
    promotableHost =
      ((observedHost.counted promotableState).persisted promotableBytes).setDirty 0 := by
  have hfits : (observedHost.counted promotableState).Serializes promotableFormat
      promotableBytes := ⟨toVecPretty_promotable, promotableBytes_length⟩
  have hstate : recordShadowDecision observedHost.calibrator.state true "a" "a" =
      promotableState := rfl
  have hflush : (observedHost.counted promotableState).calibrator.isPersistent ∧
      (observedHost.counted promotableState).calibrator.policy.persistenceFlushEveryUpdates ≤
        observedHost.calibrator.dirtyUpdates + 1 := by decide
  have hcommit : promotableHost =
      ((observedHost.counted promotableState).persistPending promotableFormat {}).2 := by
    unfold promotableHost
    simp only [Host.perform, Host.recordShadowDecision, hstate]
    simp only [Host.commitUpdateLocked]
    exact congrArg Prod.snd (if_pos hflush)
  rw [hcommit, persistPending_of_serializes (rfl : _ = some samplePath) hfits rfl]

/-- Then the file holds both, and a plan is promoted. -/
theorem durable_of_run_promotes :
    Durable promotableFormat promotablePolicy samplePath promotableHost ∧
      promotableHost.file = some promotableBytes ∧
      (promotableHost.promotionStatus promotableFormat {} coldPlan (some idleEvidence)).1.toOption =
        some ⟨true, 2, []⟩ := by
  have hload : PersistentCalibrator.load promotableFormat promotablePolicy (some samplePath) {}
      none = .ok { policy := promotablePolicy, state := {}, statePath := some samplePath } := rfl
  have hfirst : permitted CountsExactly (callStep promotableFormat)
      (freshHost promotablePolicy samplePath) (.recordObservation {} idleObservation)
      observedHost := ⟨fun _ => by decide, rfl⟩
  have hsecond : permitted CountsExactly (callStep promotableFormat) observedHost
      (.recordShadowDecision {} true "a" "a") promotableHost := ⟨fun _ => by decide, rfl⟩
  refine ⟨durable_of_run hload (.snoc (.snoc (.nil _) hfirst) hsecond), ?_, ?_⟩
  · rw [promotableHost_eq]
    rfl
  · rw [promotableHost_eq]
    decide

end Promotable

section Wrap

/-- Nothing can be written any more. -/
def diskFull : WriteAnswers := { writeTemporary := some "No space left on device (os error 28)" }

/-- A shadow decision while nothing can be written. -/
def lostDecision : Call := .recordShadowDecision diskFull true "a" "a"

/-- A write on a full disk fails before the file is replaced. -/
theorem persistPending_diskFull (hpath : host.calibrator.isPersistent = true) :
    (host.persistPending format diskFull).2 = host.setHealthy false := by
  obtain ⟨path, hpath⟩ := Option.isSome_iff_exists.mp hpath
  have hfailed : (persistState path diskFull).1 = false := by
    cases hparent : path.parent with
    | none => simp [persistState, hparent, diskFull]
    | some parent => simp [persistState, hparent, diskFull]
  rcases hresult : persistState path diskFull with ⟨replaced, result⟩
  rw [hresult] at hfailed
  obtain rfl : replaced = false := hfailed
  obtain ⟨error, rfl⟩ := persistState_kept hresult
  simp only [Host.persistPending, Host.persistLocked, hpath, hresult]
  cases format.toVecPretty host.calibrator.state with
  | error source => rfl
  | ok bytes =>
    by_cases hlimit : host.calibrator.policy.maxStateBytes < bytes.length
    · simp [hlimit]
    · simp [hlimit]

/-- A lost decision is counted, by the word and by the log. -/
theorem perform_lostDecision (format : StateFormat)
    (hpath : host.calibrator.isPersistent = true) :
    let after := host.perform format lostDecision
    after.calibrator.isPersistent = true ∧
      after.calibrator.dirtyUpdates = host.calibrator.dirtyUpdates + 1 ∧
      after.log = host.log ++ [LogEntry.updated] := by
  intro after
  have hafter : after = ((host.update (recordShadowDecision host.calibrator.state true "a"
      "a")).commitUpdateLocked format diskFull).2 := rfl
  simp only [Host.commitUpdateLocked] at hafter
  split_ifs at hafter with hflush
  · rw [persistPending_diskFull hflush.1] at hafter
    rw [hafter]
    exact ⟨hpath, rfl, rfl⟩
  · rw [hafter]
    exact ⟨hpath, rfl, rfl⟩

/-- After any number of lost decisions the word holds their number up to a multiple of 2^64. -/
theorem run_lostDecision (format : StateFormat) (host : Host)
    (hpath : host.calibrator.isPersistent = true) (count : ℕ) :
    ∃ after, Run (callStep format) host (List.replicate count lostDecision) after ∧
      after.calibrator.isPersistent = true ∧
      after.calibrator.dirtyUpdates.toNat =
        (host.calibrator.dirtyUpdates.toNat + count) % 2 ^ 64 ∧
      pendingUpdates after.log = pendingUpdates host.log + count := by
  induction count with
  | zero =>
    refine ⟨host, .nil host, hpath, ?_, rfl⟩
    have hbound := host.calibrator.dirtyUpdates.toNat_lt
    omega
  | succ count ih =>
    obtain ⟨middle, hrun, hmiddle, hdirty, hpending⟩ := ih
    obtain ⟨hpersistent, hnext, hlog⟩ := perform_lostDecision format hmiddle
    refine ⟨_, ?_, hpersistent, ?_, ?_⟩
    · rw [List.replicate_succ']
      exact .snoc hrun rfl
    · have hone : (1 : UInt64).toNat = 1 := rfl
      rw [hnext, UInt64.toNat_add, hdirty]
      omega
    · rw [hlog, pendingUpdates_updated, hpending]
      omega

/-- Whatever the format: after 2^64 decisions on a full disk nothing seems to be pending. -/
theorem not_durable_of_wrap :
    ¬ ∃ format : StateFormat, ∀ (calibrator : PersistentCalibrator) (calls : List Call)
      (host : Host),
      PersistentCalibrator.load format {} (some samplePath) {} none = .ok calibrator →
        Run (callStep format) ⟨calibrator, none, []⟩ calls host →
          Durable format {} samplePath host := by
  rintro ⟨format, hdurable⟩
  obtain ⟨host, hrun, -, hdirty, hpending⟩ :=
    run_lostDecision format (freshHost {} samplePath) rfl (2 ^ 64)
  have hcounted := (hdurable _ _ host rfl hrun).dirty
  rw [hdirty, hpending] at hcounted
  exact absurd hcounted (by decide)

end Wrap

end Locus.Calibration
