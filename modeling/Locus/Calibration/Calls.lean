import Locus.Calibration.Calibrator
import Locus.Calibration.Invariant
import Locus.Lib.Runs

/-!
# What a call of the calibrator does

A call first updates the state, or leaves it, and counts the update. Then it may write the
state to the file. Writing touches neither the state nor the policy, so the invariant of the
state holds throughout every run of calls, whatever the file system answers.
-/

namespace Locus.Calibration

open Locus.Core Locus.Lib

variable {format : StateFormat} {answers : WriteAnswers} {policy : CalibrationPolicy}
  {state next : CalibrationState} {host : Host}

/-- One update of the state. -/
inductive Updated (policy : CalibrationPolicy) (state : CalibrationState) :
    CalibrationState → Prop
  | observation (observation : CalibrationObservation)
      (counted : observation.completed ∧ observation.hasSample) :
      Updated policy state (recordObservation policy observation state).1
  | shadow (replayConsistent : Bool) (legacyFingerprint calibratedFingerprint : String) :
      Updated policy state
        (recordShadowDecision state replayConsistent legacyFingerprint calibratedFingerprint)

/-- Every update has a number of its own. -/
theorem Updated.revision (h : Updated policy state next) :
    next.revision = saturatingAdd state.revision 1 := by
  cases h with
  | observation observation counted => rw [recordObservation_eq, if_pos counted]
  | shadow => rfl

theorem Updated.withinLimits (hpolicy : Accepted policy) (h : Updated policy state next)
    (hlimits : WithinLimits policy state) : WithinLimits policy next := by
  cases h with
  | observation observation _ => exact hlimits.recordObservation hpolicy observation
  | shadow consistent legacy calibrated =>
    exact hlimits.recordShadowDecision consistent legacy calibrated

theorem Updated.sound (hpolicy : Accepted policy) (h : Updated policy state next)
    (hrevision : state.revision.toNat + 1 < 2 ^ 64) (hsound : Sound policy state) :
    Sound policy next := by
  cases h with
  | observation observation _ => exact hsound.recordObservation hpolicy hrevision
  | shadow consistent legacy calibrated =>
    exact hsound.recordShadowDecision consistent legacy calibrated

/-- The host after an update, before anything is written. -/
def Host.counted (host : Host) (state : CalibrationState) : Host :=
  (host.update state).setDirty (host.calibrator.dirtyUpdates + 1)

/-- The host after the state was written. -/
def Host.persisted (host : Host) (bytes : List UInt8) : Host :=
  { (host.replace bytes).setHealthy true with
    log := (host.replace bytes).log ++ [.persisted] }

/-- The bytes that the state is written as, if they fit. -/
def Host.Serializes (format : StateFormat) (host : Host) (bytes : List UInt8) : Prop :=
  format.toVecPretty host.calibrator.state = .ok bytes ∧
    bytes.length ≤ host.calibrator.policy.maxStateBytes

/-- How `persist_locked` ends. -/
inductive Wrote (format : StateFormat) (host : Host) : Except CalibrationError Unit → Host → Prop
  | memoryOnly (volatile : host.calibrator.statePath = none) : Wrote format host (.ok ()) host
  | failed (error : CalibrationError) : Wrote format host (.error error) (host.setHealthy false)
  | failedLate (error : CalibrationError) {bytes : List UInt8}
      (fits : host.Serializes format bytes) :
      Wrote format host (.error error) ((host.replace bytes).setHealthy false)
  | written {bytes : List UInt8} (fits : host.Serializes format bytes) :
      Wrote format host (.ok ()) (host.persisted bytes)

/-- A write that did not replace the file has failed. -/
theorem persistState_kept {path : StatePath} {result : Except CalibrationError Unit}
    (h : persistState path answers = (false, result)) : ∃ error, result = .error error := by
  unfold persistState at h
  repeat' split at h
  all_goals cases h
  all_goals exact ⟨_, rfl⟩

theorem wrote_persistLocked (format : StateFormat) (answers : WriteAnswers) (host : Host) :
    Wrote format host (host.persistLocked format answers).1
      (host.persistLocked format answers).2 := by
  unfold Host.persistLocked
  split
  next hpath => exact .memoryOnly hpath
  next path hpath =>
    split
    next source hsource => exact .failed _
    next bytes hbytes =>
      split_ifs with hlimit
      · exact .failed _
      · have hfits : host.Serializes format bytes := ⟨hbytes, Nat.not_lt.mp hlimit⟩
        rcases hanswer : persistState path answers with ⟨replaced, result⟩
        cases replaced with
        | false =>
          obtain ⟨error, rfl⟩ := persistState_kept hanswer
          exact .failed error
        | true =>
          cases result with
          | error error => exact .failedLate error hfits
          | ok => exact .written hfits

/-- How writing the pending updates ends. -/
inductive WrotePending (format : StateFormat) (host : Host) :
    Except CalibrationError Unit → Host → Prop
  | failed (error : CalibrationError) :
      WrotePending format host (.error error) (host.setHealthy false)
  | failedLate (error : CalibrationError) {bytes : List UInt8}
      (fits : host.Serializes format bytes) :
      WrotePending format host (.error error) ((host.replace bytes).setHealthy false)
  | written {bytes : List UInt8} (fits : host.Serializes format bytes) :
      WrotePending format host (.ok ()) ((host.persisted bytes).setDirty 0)

theorem wrotePending_persistPending (format : StateFormat) (answers : WriteAnswers)
    (hpath : host.calibrator.isPersistent = true) :
    WrotePending format host (host.persistPending format answers).1
      (host.persistPending format answers).2 := by
  have hwrote := wrote_persistLocked format answers host
  unfold Host.persistPending
  rcases hresult : host.persistLocked format answers with ⟨result, after⟩
  rw [hresult] at hwrote
  simp only at hwrote
  cases hwrote with
  | memoryOnly volatile => simp [PersistentCalibrator.isPersistent, volatile] at hpath
  | failed error => exact .failed error
  | failedLate error fits => exact .failedLate error fits
  | written fits => exact .written fits

/-- A write without errors succeeds if the state fits. -/
theorem persistPending_of_serializes {path : StatePath} {bytes : List UInt8}
    (hpath : host.calibrator.statePath = some path) (hfits : host.Serializes format bytes)
    (hanswers : persistState path answers = (true, .ok ())) :
    host.persistPending format answers = (.ok (), (host.persisted bytes).setDirty 0) := by
  simp [Host.persistPending, Host.persistLocked, hpath, hfits.1, Nat.not_lt.mpr hfits.2, hanswers,
    Host.persisted]

/-- Writing what is pending touches neither the state nor the policy. -/
theorem persistPending_frame (format : StateFormat) (answers : WriteAnswers) (host : Host) :
    (host.persistPending format answers).2.calibrator.state = host.calibrator.state ∧
      (host.persistPending format answers).2.calibrator.policy = host.calibrator.policy := by
  have hwrote := wrote_persistLocked format answers host
  unfold Host.persistPending
  generalize host.persistLocked format answers = outcome at hwrote ⊢
  cases outcome
  cases hwrote with
  | memoryOnly => exact ⟨rfl, rfl⟩
  | failed => exact ⟨rfl, rfl⟩
  | failedLate => exact ⟨rfl, rfl⟩
  | written => exact ⟨rfl, rfl⟩

/-- Committing an update writes the state and does not change it. -/
theorem commitUpdateLocked_state (host : Host) :
    (host.commitUpdateLocked format answers).2.calibrator.state = host.calibrator.state := by
  simp only [Host.commitUpdateLocked]
  split_ifs with hflush
  · exact (persistPending_frame format answers _).1
  · rfl

variable {updates : Prop}

/-- A host where an update may just have been made, if the call makes one. -/
inductive Began (updates : Prop) (host : Host) : Host → Prop
  | same : Began updates host host
  | updated {state : CalibrationState}
      (update : Updated host.calibrator.policy host.calibrator.state state) (asked : updates) :
      Began updates host (host.counted state)

/-- What a call may do: update or not, then write or not. -/
inductive Performed (format : StateFormat) (updates : Prop) (host : Host) : Host → Prop
  | kept {middle : Host} (began : Began updates host middle) : Performed format updates host middle
  | wrote {middle after : Host} {result : Except CalibrationError Unit}
      (began : Began updates host middle) (persistent : middle.calibrator.isPersistent = true)
      (writes : WrotePending format middle result after) : Performed format updates host after

theorem performed_commitUpdateLocked {state : CalibrationState}
    (h : Updated host.calibrator.policy host.calibrator.state state) (hasked : updates) :
    Performed format updates host ((host.update state).commitUpdateLocked format answers).2 := by
  simp only [Host.commitUpdateLocked]
  split_ifs with hflush
  · exact .wrote (.updated h hasked) hflush.1 (wrotePending_persistPending format answers hflush.1)
  · exact .kept (.updated h hasked)

theorem performed_promotionStatus (host : Host) (plan : Planner.PlacementPlan)
    (evidence : Option CandidateCalibrationEvidence) :
    Performed format updates host (host.promotionStatus format answers plan evidence).2 := by
  unfold Host.promotionStatus
  cases evidence with
  | none => exact .kept .same
  | some evidence =>
    simp only
    split_ifs with hwrite
    · have hshared : sharedReasons host.calibrator = [] := by
        have hempty := List.isEmpty_iff.mp hwrite.1
        exact (List.append_eq_nil_iff.mp hempty).1
      have hpath : host.calibrator.isPersistent = true := by
        by_contra hvolatile
        simp [sharedReasons, hvolatile] at hshared
      have hwrote := wrotePending_persistPending format answers hpath
      rcases hresult : host.persistPending format answers with ⟨result, after⟩
      rw [hresult] at hwrote
      cases result with
      | error error => exact .wrote .same hpath hwrote
      | ok => exact .wrote .same hpath hwrote
    · exact .kept .same

/-- What a call does is one of these. -/
theorem performed_perform (format : StateFormat) (host : Host) (call : Call) :
    Performed format call.updates host (host.perform format call) := by
  cases call with
  | recordObservation answers observation =>
    simp only [Host.perform, Host.recordObservation, recordObservation_eq]
    by_cases hcounted : observation.completed ∧ observation.hasSample
    · have hupdated : Updated host.calibrator.policy host.calibrator.state _ :=
        .observation observation hcounted
      rw [recordObservation_eq, if_pos hcounted] at hupdated
      rw [if_pos hcounted, if_pos rfl]
      exact performed_commitUpdateLocked hupdated hcounted
    · rw [if_neg hcounted, if_neg Bool.false_ne_true]
      exact .kept .same
  | recordShadowDecision answers consistent legacy calibrated =>
    exact performed_commitUpdateLocked (.shadow consistent legacy calibrated) trivial
  | promotionStatus answers plan evidence => exact performed_promotionStatus host plan evidence
  | flush answers =>
    simp only [Host.perform, Host.flush]
    split_ifs with hskip
    · exact .kept .same
    · have hpath : host.calibrator.isPersistent = true := by
        by_contra hvolatile
        exact hskip (.inl hvolatile)
      exact .wrote .same hpath (wrotePending_persistPending format answers hpath)

/-- The policy and the path never change, and the state changes by at most one update. -/
theorem Performed.frame {after : Host} (h : Performed format updates host after) :
    after.calibrator.policy = host.calibrator.policy ∧
      after.calibrator.statePath = host.calibrator.statePath ∧
      (after.calibrator.state = host.calibrator.state ∨
        Updated host.calibrator.policy host.calibrator.state after.calibrator.state) := by
  have hbegan {middle : Host} (h : Began updates host middle) :
      middle.calibrator.policy = host.calibrator.policy ∧
        middle.calibrator.statePath = host.calibrator.statePath ∧
        (middle.calibrator.state = host.calibrator.state ∨
          Updated host.calibrator.policy host.calibrator.state middle.calibrator.state) := by
    cases h with
    | same => exact ⟨rfl, rfl, .inl rfl⟩
    | updated update _ => exact ⟨rfl, rfl, .inr update⟩
  cases h with
  | kept began => exact hbegan began
  | wrote began _ writes =>
    have hframe := hbegan began
    cases writes with
    | failed => exact hframe
    | failedLate => exact hframe
    | written => exact hframe

section Runs

variable {path : Option StatePath} {reads : ReadAnswers} {file : Option (List UInt8)}
  {calibrator : PersistentCalibrator} {calls : List Call}

/-- What a loaded calibrator starts with. -/
theorem load_eq_ok (h : PersistentCalibrator.load format policy path reads file = .ok calibrator) :
    policy.validate = .ok () ∧ ∃ state, calibrator = { policy, state, statePath := path } ∧
      ((state = {} ∧ (path = none ∨ file = none)) ∨
        ∃ file' bytes, path = some file' ∧ file = some bytes ∧
          loadState format policy file'.path reads bytes = .ok state) := by
  unfold PersistentCalibrator.load at h
  cases hvalid : policy.validate with
  | error error =>
    rw [hvalid] at h
    cases h
  | ok =>
    rw [hvalid] at h
    refine ⟨rfl, ?_⟩
    cases path with
    | none =>
      cases h
      exact ⟨{}, rfl, .inl ⟨rfl, .inl rfl⟩⟩
    | some file' =>
      cases file with
      | none =>
        cases h
        exact ⟨{}, rfl, .inl ⟨rfl, .inr rfl⟩⟩
      | some bytes =>
        cases hstate : loadState format policy file'.path reads bytes with
        | error error =>
          simp only [hstate] at h
          cases h
        | ok state =>
          simp only [hstate] at h
          cases h
          exact ⟨state, rfl, .inr ⟨file', bytes, rfl, rfl, hstate⟩⟩

/-- After fewer than 2^64 calls the state is sound and every call is counted at most once. -/
theorem sound_of_run
    (hload : PersistentCalibrator.load format policy path reads none = .ok calibrator)
    (hrun : Run (callStep format) ⟨calibrator, none, []⟩ calls host)
    (hcalls : calls.length < 2 ^ 64) :
    host.calibrator.policy = policy ∧ Sound policy host.calibrator.state ∧
      host.calibrator.state.revision.toNat ≤ calls.length := by
  obtain ⟨hvalid, state, rfl, hstate⟩ := load_eq_ok hload
  obtain rfl : state = {} := by
    rcases hstate with ⟨rfl, -⟩ | ⟨-, bytes, -, hnone, -⟩
    · rfl
    · cases hnone
  have hpolicy := accepted_of_validate hvalid
  induction hrun with
  | nil => exact ⟨rfl, sound_default, Nat.zero_le _⟩
  | @snoc before after calls call _ hstep ih =>
    rw [List.length_append, List.length_singleton] at hcalls ⊢
    obtain ⟨hsame, hsound, hcount⟩ := ih (by omega)
    rw [callStep] at hstep
    obtain ⟨hframe, -, hkept | hupdated⟩ := (performed_perform format before call).frame
    · rw [hstep, hkept, hframe]
      exact ⟨hsame, hsound, by omega⟩
    · rw [hsame] at hupdated
      have hnext : (saturatingAdd before.calibrator.state.revision 1).toNat =
          before.calibrator.state.revision.toNat + 1 := by
        rw [toNat_saturatingAdd_one]
        omega
      rw [hstep, hframe]
      refine ⟨hsame, hupdated.sound hpolicy (by omega) hsound, ?_⟩
      rw [hupdated.revision, hnext]
      omega

/-- Throughout fewer than 2^64 calls from a fresh calibrator the state is sound. One more
observation leaves everything as it is unless it is completed and has a usable sample; then
it is counted once, and it replaces the record of its key. -/
theorem calibration_sound
    (hload : PersistentCalibrator.load format policy path reads none = .ok calibrator)
    (hrun : Run (callStep format) ⟨calibrator, none, []⟩ calls host)
    (hcalls : calls.length < 2 ^ 64) :
    Sound policy host.calibrator.state ∧
    ∀ (answers : WriteAnswers) (observation : CalibrationObservation), calls.length + 1 < 2 ^ 64 →
      (¬ (observation.completed = true ∧ UsableSample observation) →
        host.recordObservation format answers observation = (.ok (), host)) ∧
      (observation.completed = true → UsableSample observation →
        let next := (host.recordObservation format answers observation).2.calibrator.state
        next.revision.toNat = host.calibrator.state.revision.toNat + 1 ∧
          Replaces policy observation.key.stableId host.calibrator.state next) := by
  obtain ⟨hsame, hsound, hcount⟩ := sound_of_run hload hrun hcalls
  have hpolicy := accepted_of_validate (load_eq_ok hload).1
  refine ⟨hsound, ?_⟩
  intro answers observation hmore
  constructor
  · intro hignored
    rw [← hasSample_iff] at hignored
    simp [Host.recordObservation, recordObservation_eq, hignored]
  · intro hcompleted husable next
    have hcounted : observation.completed ∧ observation.hasSample :=
      ⟨hcompleted, hasSample_iff.mpr husable⟩
    have hnext : next = (recordObservation policy observation host.calibrator.state).1 := by
      simp only [next, Host.recordObservation, hsame, recordObservation_eq, if_pos hcounted,
        if_true, commitUpdateLocked_state]
      rfl
    have hupdated : Updated policy host.calibrator.state _ := .observation observation hcounted
    rw [hnext]
    refine ⟨?_, replaces_recordObservation hpolicy hsound hcounted⟩
    rw [hupdated.revision, toNat_saturatingAdd_one]
    omega

/-- A policy that keeps one record. -/
def oneRecordPolicy : CalibrationPolicy := { maxRecords := 1 }

/-- A topology sample of an engine. -/
def topologySample (engine : String) : CalibrationObservation where
  key := ⟨engine, 1, "model", none, "profile"⟩
  topologyMicros := some 250

/-- A calibrator without a file observes one engine, then another one. -/
theorem calibration_sound_evicts :
    Sound oneRecordPolicy (recordObservation oneRecordPolicy (topologySample "a") {}).1 ∧
      Replaces oneRecordPolicy (topologySample "b").key.stableId
        (recordObservation oneRecordPolicy (topologySample "a") {}).1
        (recordObservation oneRecordPolicy (topologySample "b")
          (recordObservation oneRecordPolicy (topologySample "a") {}).1).1 := by
  have hload : PersistentCalibrator.load (.ofTable [] (by decide)) oneRecordPolicy none {} none =
      .ok { policy := oneRecordPolicy, state := {}, statePath := none } := rfl
  obtain ⟨hsound, hnext⟩ := calibration_sound hload
    (.snoc (.nil _) (rfl : callStep _ _ (.recordObservation {} (topologySample "a")) _)) (by decide)
  exact ⟨hsound, ((hnext {} (topologySample "b") (by decide)).2 rfl (.inr (.inr (.inl rfl)))).2⟩

end Runs

end Locus.Calibration
