import Locus.Calibration.Durability

/-!
# What a crash does to promotion

After a crash the calibrator is loaded again from its file, without the updates that were
pending. Promotion asks for a number of gates: the shadow evidence, and the samples and errors
of the metrics that the plan rests on. If no update makes a gate fail that was met, and every
write succeeds, then whatever the file still qualifies, the memory would have qualified. In
general it would not: the lost update may be the one that disqualifies.
-/

namespace Locus.Calibration

open Locus.Core Locus.Lib Locus.Planner

variable {format : StateFormat} {policy : CalibrationPolicy} {host : Host} {path : StatePath}
  {plan : PlacementPlan} {call : Call}

section Gates

/-- What promotion may ask of a state. Metrics are those of a record, known by its key. -/
inductive Gate
  | shadow
  | prefill (key : String)
  | decode (key : String)
  | queue (key : String)
  | topology (key : String)
  | materialization (key path : String)

/-- A metric has enough samples and a small error. -/
def MetricMet (policy : CalibrationPolicy) (metric : Option MetricEstimate) : Prop :=
  ∃ estimate, metric = some estimate ∧ policy.minSamplesPerMetric ≤ estimate.samples ∧
    estimate.mapeBps ≤ policy.maxMapeBps

/-- There were enough shadow decisions, most of them agreed and all of them could be replayed. -/
def ShadowMet (policy : CalibrationPolicy) (shadow : ShadowEvidence) : Prop :=
  policy.minShadowDecisions ≤ shadow.decisions ∧
    (shadow.decisions ≠ 0 → policy.minShadowAgreementBps ≤
      saturatingMul shadow.agreements 10000 / shadow.decisions) ∧
    shadow.replayMismatches = 0

/-- The state meets a gate. -/
def Gate.Met (policy : CalibrationPolicy) (state : CalibrationState) : Gate → Prop
  | .shadow => ShadowMet policy state.shadow
  | .prefill key => MetricMet policy (state.records[key]?.map (·.prefillMicrosPerToken))
  | .decode key => MetricMet policy (state.records[key]?.map (·.decodeMicrosPerToken))
  | .queue key => MetricMet policy (state.records[key]?.map (·.queueMicrosPerWaitingRequest))
  | .topology key => MetricMet policy (state.records[key]?.map (·.topologyMicros))
  | .materialization key path =>
    MetricMet policy (state.records[key]?.bind (·.materializationRatioBps[path]?))

/-- The gates that a plan has to pass. -/
def requiredGates (plan : PlacementPlan) (evidence : CandidateCalibrationEvidence) : List Gate :=
  let key := evidence.key.stableId
  [.shadow, .prefill key, .decode key] ++
  (if evidence.queueCalibrationRequired then [.queue key] else []) ++
  match plan.path with
  | .cold => []
  | .reuse reuse => [.topology key, .materialization key
      (materializationKey reuse.option.store reuse.option.stateKind plan.target.id)]

theorem qualifyMetric_eq_nil {metric : Option MetricEstimate} {name : String} :
    qualifyMetric metric name policy = [] ↔ MetricMet policy metric := by
  cases metric with
  | none => simp [qualifyMetric, MetricMet]
  | some estimate => simp [qualifyMetric, MetricMet]

theorem sharedReasons_eq_nil {calibrator : PersistentCalibrator} :
    sharedReasons calibrator = [] ↔
      calibrator.isPersistent = true ∧ calibrator.persistenceHealthy = true ∧
        ShadowMet calibrator.policy calibrator.state.shadow := by
  have hzero {a : UInt64} : ¬ 0 < a ↔ a = 0 := by
    rw [UInt64.lt_iff_toNat_lt, ← UInt64.toNat_inj, UInt64.toNat_zero]
    omega
  simp only [sharedReasons, ShadowMet, List.append_eq_nil_iff, ite_eq_left_iff, ite_eq_right_iff,
    List.cons_ne_nil, imp_false, not_not, not_and, UInt64.not_lt, hzero, and_assoc]

theorem targetReasons_eq_nil {calibrator : PersistentCalibrator}
    {evidence : CandidateCalibrationEvidence} (hshadow : ShadowMet calibrator.policy
      calibrator.state.shadow) :
    targetReasons calibrator plan evidence = [] ↔
      evidence.snapshotFresh = true ∧
        ∀ gate ∈ requiredGates plan evidence, gate.Met calibrator.policy calibrator.state := by
  rcases hpath : plan.path with _ | reuse
  all_goals
    cases hqueue : evidence.queueCalibrationRequired
    all_goals
      simp [targetReasons, requiredGates, hpath, hqueue, qualifyMetric_eq_nil, Gate.Met, hshadow]

end Gates

section Qualifying

/-- Promotion would be granted at this moment, if the file can be written. -/
def WouldQualify (format : StateFormat) (host : Host) (plan : PlacementPlan)
    (evidence : Option CandidateCalibrationEvidence) : Prop :=
  ∃ status after, host.promotionStatus format {} plan evidence = (.ok status, after) ∧
    status.qualified = true

/-- The reasons against a plan. -/
theorem reasons_eq_nil {calibrator : PersistentCalibrator}
    {given : CandidateCalibrationEvidence} :
    sharedReasons calibrator ++ targetReasons calibrator plan given = [] ↔
      given.snapshotFresh = true ∧ calibrator.isPersistent = true ∧
        calibrator.persistenceHealthy = true ∧
        ∀ gate ∈ requiredGates plan given, gate.Met calibrator.policy calibrator.state := by
  rw [List.append_eq_nil_iff, sharedReasons_eq_nil]
  constructor
  · rintro ⟨⟨hpath, hhealthy, hshadow⟩, htarget⟩
    obtain ⟨hfresh, hgates⟩ := (targetReasons_eq_nil hshadow).mp htarget
    exact ⟨hfresh, hpath, hhealthy, hgates⟩
  · rintro ⟨hfresh, hpath, hhealthy, hgates⟩
    have hshadow : ShadowMet calibrator.policy calibrator.state.shadow :=
      hgates .shadow (by simp [requiredGates])
    exact ⟨⟨hpath, hhealthy, hshadow⟩, (targetReasons_eq_nil hshadow).mpr ⟨hfresh, hgates⟩⟩

/-- Promotion asks for health and for the gates of the plan, and pending updates must fit. -/
theorem wouldQualify_iff {evidence : Option CandidateCalibrationEvidence} :
    WouldQualify format host plan evidence ↔
      ∃ given, evidence = some given ∧
        sharedReasons host.calibrator ++ targetReasons host.calibrator plan given = [] ∧
        (0 < host.calibrator.dirtyUpdates → ∃ bytes, host.Serializes format bytes) := by
  constructor
  · rintro ⟨status, after, hstatus, hqualified⟩
    unfold Host.promotionStatus at hstatus
    cases evidence with
    | none =>
      cases hstatus
      cases hqualified
    | some given =>
      refine ⟨given, rfl, ?_⟩
      simp only at hstatus
      split at hstatus
      next hwrite =>
        have hreasons := List.isEmpty_iff.mp hwrite.1
        have hwrites := wrotePending_persistPending format {} (reasons_eq_nil.mp hreasons).2.1
        refine ⟨hreasons, fun _ => ?_⟩
        rcases hpending : host.persistPending format {} with ⟨result, next⟩
        rw [hpending] at hstatus hwrites
        simp only at hstatus hwrites
        cases hwrites with
        | failed => cases hstatus
        | failedLate => cases hstatus
        | written fits => exact ⟨_, fits⟩
      next hkept =>
        cases hstatus
        exact ⟨List.isEmpty_iff.mp hqualified, fun hdirty => absurd ⟨hqualified, hdirty⟩ hkept⟩
  · rintro ⟨given, rfl, hreasons, hfits⟩
    simp only [WouldQualify, Host.promotionStatus, hreasons, List.isEmpty_nil, true_and]
    by_cases hdirty : 0 < host.calibrator.dirtyUpdates
    · obtain ⟨bytes, hbytes⟩ := hfits hdirty
      obtain ⟨path, hpath⟩ := Option.isSome_iff_exists.mp (reasons_eq_nil.mp hreasons).2.1
      have hanswers : persistState path {} = (true, .ok ()) := by
        cases hparent : path.parent with
        | none => simp [persistState, hparent]
        | some parent => simp [persistState, hparent]
      rw [if_pos hdirty, persistPending_of_serializes hpath hbytes hanswers]
      exact ⟨_, _, rfl, rfl⟩
    · rw [if_neg hdirty]
      exact ⟨_, _, rfl, rfl⟩

end Qualifying

section Crashes

/-- What a call does to the state, and whether that is an update. -/
def Call.update (policy : CalibrationPolicy) (state : CalibrationState) :
    Call → CalibrationState × Bool
  | .recordObservation _ observation => Calibration.recordObservation policy observation state
  | .recordShadowDecision _ replayConsistent legacyFingerprint calibratedFingerprint =>
    (Calibration.recordShadowDecision state replayConsistent legacyFingerprint
      calibratedFingerprint, true)
  | .promotionStatus .. | .flush _ => (state, false)

/-- The answers of the file system during a call. -/
def Call.answers : Call → WriteAnswers
  | .recordObservation answers _ | .recordShadowDecision answers .. | .promotionStatus answers ..
  | .flush answers => answers

/-- The host when a call has updated the state and has not written it yet. -/
def Host.begin (host : Host) (call : Call) : Host :=
  let (state, changed) := call.update host.calibrator.policy host.calibrator.state
  if changed then host.counted state else host

/-- The moments of a call at which the process may stop: before it, after its update, after
the rename of a write, and at its end. -/
inductive StopsAt (format : StateFormat) (host : Host) (call : Call) : Host → Prop
  | before : StopsAt format host call host
  | updated : StopsAt format host call (host.begin call)
  | renamed {bytes : List UInt8} (fits : (host.begin call).Serializes format bytes) :
      StopsAt format host call ((host.begin call).replace bytes)
  | done : StopsAt format host call (host.perform format call)

/-- Whatever a calibrator that is loaded from the file qualifies, the one in memory would
have qualified. -/
def OnlyDemotes (format : StateFormat) (host : Host) : Prop :=
  ∀ (reads : ReadAnswers) (calibrator : PersistentCalibrator) (plan : PlacementPlan)
    (evidence : Option CandidateCalibrationEvidence),
    PersistentCalibrator.load format host.calibrator.policy host.calibrator.statePath reads
      host.file = .ok calibrator →
    WouldQualify format ⟨calibrator, host.file, []⟩ plan evidence →
      WouldQualify format host plan evidence

/-- The update of a call keeps every gate met and fits the size limit, and the file system
reports no error. -/
structure KeepsEvidence (format : StateFormat) (host : Host) (call : Call) : Prop where
  gates : ∀ gate : Gate, gate.Met host.calibrator.policy host.calibrator.state →
    gate.Met host.calibrator.policy
      (call.update host.calibrator.policy host.calibrator.state).1
  fits : call.updates → ∃ bytes, (host.begin call).Serializes format bytes
  answers : ∀ path, host.calibrator.statePath = some path →
    persistState path call.answers = (true, .ok ())

/-- What holds at every moment: the memory meets the gates that the file meets. -/
structure Ahead (format : StateFormat) (policy : CalibrationPolicy) (path : StatePath)
    (host : Host) : Prop where
  policy_eq : host.calibrator.policy = policy
  path_eq : host.calibrator.statePath = some path
  healthy : host.calibrator.persistenceHealthy = true
  gates : ∀ (bytes : List UInt8) (state : CalibrationState), host.file = some bytes →
    format.fromSlice bytes = .ok state →
      ∀ gate : Gate, gate.Met policy state → gate.Met policy host.calibrator.state
  fits : 0 < host.calibrator.dirtyUpdates → ∃ bytes, host.Serializes format bytes

/-- A calibrator that is ahead of its file can only be demoted. -/
theorem Ahead.onlyDemotes (hpolicy : Accepted policy) (h : Ahead format policy path host) :
    OnlyDemotes format host := by
  intro reads calibrator plan evidence hload hqualified
  rw [h.policy_eq, h.path_eq] at hload
  obtain ⟨-, state, rfl, hstate⟩ := load_eq_ok hload
  obtain ⟨given, rfl, hreasons, -⟩ := wouldQualify_iff.mp hqualified
  obtain ⟨hfresh, -, -, hgates⟩ := reasons_eq_nil.mp hreasons
  refine wouldQualify_iff.mpr ⟨given, rfl, reasons_eq_nil.mpr ?_, h.fits⟩
  refine ⟨hfresh, by simp [PersistentCalibrator.isPersistent, h.path_eq], h.healthy, ?_⟩
  rw [h.policy_eq]
  rcases hstate with ⟨rfl, -⟩ | ⟨_, bytes, -, hfile, hbytes⟩
  · -- a fresh state has seen no decision
    have hshared := (List.append_eq_nil_iff.mp hreasons).1
    exact absurd rfl (healthy_of_sharedReasons hpolicy hshared).2.2
  · intro gate hgate
    exact h.gates bytes state hfile (of_loadState hbytes).1 gate (hgates gate hgate)

/-- A write of a state that was ahead. -/
theorem Ahead.replace (h : Ahead format policy path host) {bytes : List UInt8}
    (hfits : host.Serializes format bytes) : Ahead format policy path (host.replace bytes) := by
  refine ⟨h.policy_eq, h.path_eq, h.healthy, ?_, h.fits⟩
  intro written state hfile hdecodes gate hgate
  cases hfile
  rw [format.round_trip hfits.1] at hdecodes
  cases hdecodes
  exact hgate

/-- A call that makes no update leaves the state. -/
theorem begin_cases (host : Host) (call : Call) :
    (¬ call.updates ∧ host.begin call = host) ∨
      (call.updates ∧ host.begin call =
        host.counted (call.update host.calibrator.policy host.calibrator.state).1) := by
  cases call with
  | recordObservation answers observation =>
    by_cases hcounted : observation.completed ∧ observation.hasSample
    · simp [Call.updates, Host.begin, Call.update, recordObservation_eq, hcounted]
    · simp [Call.updates, Host.begin, Call.update, recordObservation_eq, hcounted]
  | recordShadowDecision => exact .inr ⟨trivial, rfl⟩
  | promotionStatus => exact .inl ⟨id, rfl⟩
  | flush => exact .inl ⟨id, rfl⟩

/-- After the update of a call the memory is still ahead. -/
theorem Ahead.begin (h : Ahead format policy path host)
    (hcall : KeepsEvidence format host call) : Ahead format policy path (host.begin call) := by
  rcases begin_cases host call with ⟨-, hsame⟩ | ⟨hupdates, hcounted⟩
  · rw [hsame]
    exact h
  · have hfits := hcall.fits hupdates
    have hgates := hcall.gates
    rw [hcounted] at hfits ⊢
    rw [h.policy_eq] at hgates
    refine ⟨h.policy_eq, h.path_eq, h.healthy, ?_, fun _ => hfits⟩
    intro bytes state hfile hdecodes gate hgate
    have hkept := hgates gate (h.gates bytes state hfile hdecodes gate hgate)
    rw [← h.policy_eq] at hkept ⊢
    exact hkept

/-- A call is its update, then perhaps a write of what is pending. -/
theorem perform_eq_begin (format : StateFormat) (host : Host) (call : Call) :
    host.perform format call = host.begin call ∨
      ((call.updates ∨ 0 < (host.begin call).calibrator.dirtyUpdates) ∧
        host.perform format call =
          ((host.begin call).persistPending format call.answers).2) := by
  have hcommit (state : CalibrationState) (answers : WriteAnswers) :
      ((host.update state).commitUpdateLocked format answers).2 = host.counted state ∨
        ((host.update state).commitUpdateLocked format answers).2 =
          ((host.counted state).persistPending format answers).2 := by
    simp only [Host.commitUpdateLocked]
    split_ifs
    · exact .inr rfl
    · exact .inl rfl
  cases call with
  | recordObservation answers observation =>
    simp only [Host.perform, Host.recordObservation, Host.begin, Call.update, Call.answers,
      Call.updates]
    by_cases hcounted : observation.completed ∧ observation.hasSample
    · simp only [recordObservation_eq, if_pos hcounted, if_true]
      exact (hcommit _ answers).imp_right fun hwrote => ⟨.inl hcounted, hwrote⟩
    · simp only [recordObservation_eq, if_neg hcounted, Bool.false_eq_true, if_false, true_or]
  | recordShadowDecision answers consistent legacy calibrated =>
    exact (hcommit _ answers).imp_right fun hwrote => ⟨.inl trivial, hwrote⟩
  | promotionStatus answers plan evidence =>
    simp only [Host.perform, Host.promotionStatus, Host.begin, Call.update, Call.answers,
      Bool.false_eq_true, if_false]
    cases evidence with
    | none => exact .inl rfl
    | some given =>
      simp only
      split_ifs with hwrite
      · refine .inr ⟨.inr hwrite.2, ?_⟩
        rcases host.persistPending format answers with ⟨result, after⟩
        cases result with
        | error error => rfl
        | ok => rfl
      · exact .inl rfl
  | flush answers =>
    simp only [Host.perform, Host.flush, Host.begin, Call.update, Call.answers, Bool.false_eq_true,
      if_false]
    split_ifs with hskip
    · exact .inl rfl
    · have hdirty : host.calibrator.dirtyUpdates ≠ 0 := fun hzero => hskip (.inr hzero)
      exact .inr ⟨.inr (UInt64.pos_iff_ne_zero.mpr hdirty), rfl⟩

/-- A call leaves the state that its update makes. -/
theorem perform_state (format : StateFormat) (host : Host) (call : Call) :
    (host.perform format call).calibrator.state =
        (call.update host.calibrator.policy host.calibrator.state).1 ∧
      (host.perform format call).calibrator.policy = host.calibrator.policy := by
  have hbegin : (host.begin call).calibrator.state =
        (call.update host.calibrator.policy host.calibrator.state).1 ∧
      (host.begin call).calibrator.policy = host.calibrator.policy := by
    cases call with
    | recordObservation answers observation =>
      simp only [Host.begin, Call.update, recordObservation_eq]
      split
      next => exact ⟨rfl, rfl⟩
      next => exact ⟨rfl, rfl⟩
    | recordShadowDecision => exact ⟨rfl, rfl⟩
    | promotionStatus => exact ⟨rfl, rfl⟩
    | flush => exact ⟨rfl, rfl⟩
  rcases perform_eq_begin format host call with hsame | ⟨-, hwritten⟩
  · rw [hsame]
    exact hbegin
  · rw [hwritten]
    have hframe := persistPending_frame format call.answers (host.begin call)
    exact ⟨hframe.1.trans hbegin.1, hframe.2.trans hbegin.2⟩

/-- A call that keeps the evidence keeps the memory ahead. -/
theorem Ahead.perform (h : Ahead format policy path host)
    (hcall : KeepsEvidence format host call) :
    Ahead format policy path (host.perform format call) := by
  have hbegin := h.begin hcall
  rcases perform_eq_begin format host call with hkept | ⟨hpending, hwrote⟩
  · rw [hkept]
    exact hbegin
  · obtain ⟨bytes, hbytes⟩ : ∃ bytes, (host.begin call).Serializes format bytes :=
      hpending.elim hcall.fits hbegin.fits
    have hreplaced := hbegin.replace hbytes
    rw [hwrote, persistPending_of_serializes hbegin.path_eq hbytes (hcall.answers path h.path_eq)]
    refine ⟨hbegin.policy_eq, hbegin.path_eq, rfl, hreplaced.gates, ?_⟩
    intro hdirty
    exact absurd hdirty (by simp [Host.setDirty])

/-- At every moment of such a call a crash can only demote. -/
theorem Ahead.stopsAt (h : Ahead format policy path host)
    (hcall : KeepsEvidence format host call) {moment : Host}
    (hmoment : StopsAt format host call moment) : Ahead format policy path moment := by
  cases hmoment with
  | before => exact h
  | updated => exact h.begin hcall
  | renamed fits => exact (h.begin hcall).replace fits
  | done => exact h.perform hcall

/-- In every run from a load in which no update makes a gate fail that was met, every update
fits and every write succeeds, a crash can only demote: at the end of the run and at every
moment of one more such call. -/
theorem onlyDemotes_of_run {reads : ReadAnswers} {file : Option (List UInt8)}
    {calibrator : PersistentCalibrator} {calls : List Call}
    (hload : PersistentCalibrator.load format policy (some path) reads file = .ok calibrator)
    (hrun : Run (permitted (KeepsEvidence format) (callStep format)) ⟨calibrator, file, []⟩ calls
      host) :
    OnlyDemotes format host ∧
      ∀ call, KeepsEvidence format host call → ∀ moment, StopsAt format host call moment →
        OnlyDemotes format moment := by
  have hpolicy := accepted_of_validate (load_eq_ok hload).1
  have hstart : Ahead format policy path ⟨calibrator, file, []⟩ := by
    obtain ⟨-, state, rfl, hstate⟩ := load_eq_ok hload
    refine ⟨rfl, rfl, rfl, ?_, fun hdirty => absurd hdirty (by simp)⟩
    intro bytes loaded hfile hdecodes gate hgate
    rcases hstate with ⟨-, hnone | rfl⟩ | ⟨_, held, -, rfl, hheld⟩
    · cases hnone
    · cases hfile
    · cases hfile
      rw [(of_loadState hheld).1] at hdecodes
      cases hdecodes
      exact hgate
  have hahead : Ahead format policy path host := by
    refine hrun.invariant (Ahead format policy path) ?_ hstart
    rintro host call after hahead ⟨hcall, hstep⟩
    rw [hstep]
    exact hahead.perform hcall
  refine ⟨hahead.onlyDemotes hpolicy, ?_⟩
  intro call hcall moment hmoment
  exact (hahead.stopsAt hcall hmoment).onlyDemotes hpolicy

/-- Without shadow decisions and records no gate is met. -/
theorem not_met_default (hpolicy : Accepted policy) (gate : Gate) :
    ¬ gate.Met policy {} := by
  cases gate with
  | shadow =>
    rintro ⟨hdecisions, -⟩
    exact absurd (UInt64.le_trans hpolicy.decisions hdecisions) (by decide)
  | _ => simp [Gate.Met, MetricMet]

/-- One request and one decision, both kept: the file qualifies what the memory qualifies. -/
theorem onlyDemotes_of_run_promotes : OnlyDemotes promotableFormat promotableHost := by
  have hload : PersistentCalibrator.load promotableFormat promotablePolicy (some samplePath) {}
      none = .ok { policy := promotablePolicy, state := {}, statePath := some samplePath } := rfl
  have hpolicy := accepted_of_validate (load_eq_ok hload).1
  have hfirst : permitted (KeepsEvidence promotableFormat) (callStep promotableFormat)
      (freshHost promotablePolicy samplePath) (.recordObservation {} idleObservation)
      observedHost := by
    refine ⟨⟨?_, ?_, ?_⟩, rfl⟩
    · intro gate hgate
      exact absurd hgate (not_met_default hpolicy gate)
    · intro _
      exact ⟨observedBytes, toVecPretty_observed, observedBytes_length⟩
    · rintro path ⟨⟩
      rfl
  have hsecond : permitted (KeepsEvidence promotableFormat) (callStep promotableFormat)
      observedHost (.recordShadowDecision {} true "a" "a") promotableHost := by
    refine ⟨⟨?_, ?_, ?_⟩, rfl⟩
    · intro gate hgate
      cases gate with
      | shadow => exact absurd hgate (not_met_default hpolicy .shadow)
      | _ => exact hgate
    · intro _
      exact ⟨promotableBytes, toVecPretty_promotable, promotableBytes_length⟩
    · rintro path ⟨⟩
      rfl
  exact (onlyDemotes_of_run hload (.snoc (.snoc (.nil _) hfirst) hsecond)).1

/-- A decision that cannot be replayed, pending. -/
def mismatchedHost : Host :=
  promotableHost.perform promotableFormat (.recordShadowDecision {} false "a" "a")

/-- The file still holds the state before that decision. -/
theorem mismatchedHost_eq : mismatchedHost =
    promotableHost.counted (recordShadowDecision promotableState false "a" "a") := by
  unfold mismatchedHost
  rw [promotableHost_eq]
  rfl

/-- The calibrator that is loaded from this file. -/
def restartedCalibrator : PersistentCalibrator where
  policy := promotablePolicy
  state := promotableState
  statePath := some samplePath

/-- A crash loses the one decision that disqualifies: the loaded calibrator promotes a plan
that the one in memory refused. -/
theorem not_onlyDemotes_of_mismatch :
    ¬ ∀ (format : StateFormat) (policy : CalibrationPolicy) (path : StatePath)
      (reads : ReadAnswers) (file : Option (List UInt8)) (calibrator : PersistentCalibrator)
      (calls : List Call) (host : Host),
      PersistentCalibrator.load format policy (some path) reads file = .ok calibrator →
        Run (callStep format) ⟨calibrator, file, []⟩ calls host → OnlyDemotes format host := by
  intro hdemotes
  have hrun : Run (callStep promotableFormat) (freshHost promotablePolicy samplePath)
      [.recordObservation {} idleObservation, .recordShadowDecision {} true "a" "a",
        .recordShadowDecision {} false "a" "a"] mismatchedHost :=
    .snoc (.snoc (.snoc (.nil _) (rfl : callStep _ _ _ observedHost))
      (rfl : callStep _ _ _ promotableHost)) rfl
  have hmoment := hdemotes promotableFormat promotablePolicy samplePath {} none _ _ mismatchedHost
    rfl hrun
  have hlimits : WithinLimits promotablePolicy promotableState :=
    (withinLimits_default.recordObservation (accepted_of_validate rfl)
      idleObservation).recordShadowDecision true "a" "a"
  have hload : PersistentCalibrator.load promotableFormat promotablePolicy (some samplePath) {}
      (some promotableBytes) = .ok restartedCalibrator := by
    have hstate := loadState_of_serializes samplePath.path hlimits toVecPretty_promotable
      promotableBytes_length
    simp only [PersistentCalibrator.load, hstate]
    rfl
  rw [mismatchedHost_eq, promotableHost_eq] at hmoment
  have hloaded : WouldQualify promotableFormat ⟨restartedCalibrator, some promotableBytes, []⟩
      coldPlan (some idleEvidence) :=
    wouldQualify_iff.mpr ⟨idleEvidence, rfl, by decide, fun hdirty => absurd hdirty (by decide)⟩
  obtain ⟨given, hgiven, hreasons, -⟩ := wouldQualify_iff.mp (hmoment {} _ _ _ hload hloaded)
  cases hgiven
  revert hreasons
  decide

end Crashes

end Locus.Calibration
