import Locus.Calibration.State

/-!
# What every calibration state satisfies

An accepted policy bounds the number of records, the number of paths of a record and every
estimate. An observation changes the state exactly if one of its four parts is usable; then
it is counted once, and a full map loses the record that was updated longest ago. Updates
that are counted have numbers of their own, so that there is one such record.
-/

namespace Locus.Calibration

open Std (ExtTreeMap)
open Locus.Core Locus.Lib

variable {policy : CalibrationPolicy} {observation : CalibrationObservation}
  {state : CalibrationState} {record : CalibrationRecord} {metric : MetricEstimate}

section Arithmetic

/-- What an update relies on in an accepted policy. -/
structure Accepted (policy : CalibrationPolicy) : Prop where
  alpha : policy.ewmaAlphaBps.toNat ≤ 10000
  unit : 1 ≤ policy.maxUnitMicros
  ratio : 1 ≤ policy.maxMaterializationRatioBps
  decisions : 1 ≤ policy.minShadowDecisions
  records : 0 < policy.maxRecords
  paths : 0 < policy.maxMaterializationPathsPerRecord

/-- The checks of `validate` in positive form. -/
theorem accepted_of_validate (h : policy.validate = .ok ()) : Accepted policy := by
  unfold CalibrationPolicy.validate at h
  split at h
  next => cases h
  next hchecks =>
    simp only [not_or] at hchecks
    obtain ⟨-, halpha, -, -, hdecisions, -, -, -, -, -, -, hratio, hunit, hmaxRatio, -, hrecords,
      hpaths, -⟩ := hchecks
    rw [UInt64.lt_iff_toNat_lt] at hratio hmaxRatio
    rw [gt_iff_lt, UInt32.lt_iff_toNat_lt] at halpha
    rw [← UInt64.toNat_inj] at hunit hdecisions
    have hten : (10000 : UInt64).toNat = 10000 := rfl
    have hten' : (10000 : UInt32).toNat = 10000 := rfl
    have hzero : (0 : UInt64).toNat = 0 := rfl
    have hone : (1 : UInt64).toNat = 1 := rfl
    refine ⟨by omega, ?_, ?_, ?_, by omega, by omega⟩
    all_goals
      rw [UInt64.le_iff_toNat_le]
      omega

/-- A valid policy gives some weight to a new sample. -/
theorem alpha_pos_of_validate (h : policy.validate = .ok ()) :
    0 < policy.ewmaAlphaBps.toNat := by
  unfold CalibrationPolicy.validate at h
  split at h
  next => cases h
  next hchecks =>
    have halpha := (not_or.mp hchecks).1
    rw [← UInt32.toNat_inj] at halpha
    exact Nat.pos_of_ne_zero halpha

/-- One more, up to the maximum. -/
theorem toNat_saturatingAdd_one (a : UInt64) :
    (saturatingAdd a 1).toNat = min (a.toNat + 1) (2 ^ 64 - 1) :=
  toNat_saturatingAdd a 1

/-- Saturation keeps the order. -/
theorem saturatingAdd_one_mono {a b : UInt64} (h : a ≤ b) :
    saturatingAdd a 1 ≤ saturatingAdd b 1 := by
  rw [UInt64.le_iff_toNat_le] at h ⊢
  rw [toNat_saturatingAdd_one, toNat_saturatingAdd_one]
  omega

/-- Adding one never makes a number smaller. -/
theorem le_saturatingAdd_one (a : UInt64) : a ≤ saturatingAdd a 1 := by
  have ha := a.toNat_lt
  rw [UInt64.le_iff_toNat_le, toNat_saturatingAdd_one]
  omega

/-- An average of two words is a word, so nothing is cut off. -/
theorem toNat_weightedAverage (previous sample : UInt64) {alpha : UInt32}
    (halpha : alpha.toNat ≤ 10000) :
    (weightedAverage previous sample alpha.toUInt64).toNat =
      (previous.toNat * (10000 - alpha.toNat) + sample.toNat * alpha.toNat) / 10000 := by
  have hretained : (saturatingSub 10000 alpha.toUInt64).toNat = 10000 - alpha.toNat := by
    have hten : (10000 : UInt64).toNat = 10000 := rfl
    have hle : alpha.toUInt64 ≤ 10000 := by
      rw [UInt64.le_iff_toNat_le, UInt32.toNat_toUInt64]
      omega
    rw [saturatingSub, if_pos hle, UInt64.toNat_sub_of_le _ _ hle, UInt32.toNat_toUInt64, hten]
  have hprevious := Nat.mul_le_mul_right (10000 - alpha.toNat) (Nat.le_of_lt_succ previous.toNat_lt)
  have hsample := Nat.mul_le_mul_right alpha.toNat (Nat.le_of_lt_succ sample.toNat_lt)
  have hword :
      (previous.toNat * (10000 - alpha.toNat) + sample.toNat * alpha.toNat) / 10000 < 2 ^ 64 := by
    omega
  simp only [weightedAverage, hretained, UInt32.toNat_toUInt64]
  rw [if_pos hword, UInt64.toNat_ofNat_of_lt' hword]

/-- An average of two numbers lies between the bounds of both. -/
theorem weightedAverage_mem {previous sample low high : UInt64} {alpha : UInt32}
    (halpha : alpha.toNat ≤ 10000) (hprevious : low ≤ previous ∧ previous ≤ high)
    (hsample : low ≤ sample ∧ sample ≤ high) :
    low ≤ weightedAverage previous sample alpha.toUInt64 ∧
      weightedAverage previous sample alpha.toUInt64 ≤ high := by
  simp only [UInt64.le_iff_toNat_le, toNat_weightedAverage previous sample halpha] at *
  obtain ⟨kept, hkept⟩ : ∃ kept, 10000 = kept + alpha.toNat := ⟨10000 - alpha.toNat, by omega⟩
  have hkept' : 10000 - alpha.toNat = kept := by omega
  rw [hkept']
  have hlow : low.toNat * 10000 ≤ previous.toNat * kept + sample.toNat * alpha.toNat := by
    have h₁ := Nat.mul_le_mul_right kept hprevious.1
    have h₂ := Nat.mul_le_mul_right alpha.toNat hsample.1
    calc low.toNat * 10000 = low.toNat * kept + low.toNat * alpha.toNat := by
          rw [hkept, Nat.mul_add]
      _ ≤ _ := Nat.add_le_add h₁ h₂
  have hhigh : previous.toNat * kept + sample.toNat * alpha.toNat ≤ high.toNat * 10000 := by
    have h₁ := Nat.mul_le_mul_right kept hprevious.2
    have h₂ := Nat.mul_le_mul_right alpha.toNat hsample.2
    calc _ ≤ high.toNat * kept + high.toNat * alpha.toNat := Nat.add_le_add h₁ h₂
      _ = high.toNat * 10000 := by rw [← Nat.mul_add, ← hkept]
  omega

/-- An average with something smaller is smaller. -/
theorem weightedAverage_lt {previous sample : UInt64} {alpha : UInt32}
    (halpha : alpha.toNat ≤ 10000) (hpositive : 0 < alpha.toNat) (h : sample < previous) :
    weightedAverage previous sample alpha.toUInt64 < previous := by
  rw [UInt64.lt_iff_toNat_lt] at h ⊢
  rw [toNat_weightedAverage previous sample halpha]
  have hsum : previous.toNat * (10000 - alpha.toNat) + previous.toNat * alpha.toNat =
      previous.toNat * 10000 := by
    rw [← Nat.mul_add]
    congr 1
    omega
  have hsample := Nat.mul_lt_mul_of_pos_right h hpositive
  omega

/-- A clamped number lies between the bounds. -/
theorem clamp_mem (value : UInt64) {low high : UInt64} (h : low ≤ high) :
    low ≤ clamp value low high ∧ clamp value low high ≤ high := by
  unfold clamp
  simp only [UInt64.le_iff_toNat_le, UInt64.lt_iff_toNat_lt] at h ⊢
  split_ifs
  all_goals
    constructor
    all_goals omega

end Arithmetic

section Metrics

/-- A metric with samples has an estimate from 1 to the maximum. -/
def MetricEstimate.Within (metric : MetricEstimate) (maximum : UInt64) : Prop :=
  0 < metric.samples → 1 ≤ metric.estimate ∧ metric.estimate ≤ maximum

theorem MetricEstimate.within_default (maximum : UInt64) : Within {} maximum := by
  intro hsamples
  exact absurd hsamples (by decide)

/-- An update keeps the estimate within its bounds. -/
theorem MetricEstimate.Within.update {maximum : UInt64} (hpolicy : Accepted policy)
    (hmaximum : 1 ≤ maximum) (h : metric.Within maximum) (sample : UInt64) :
    (metric.update sample policy maximum).Within maximum := by
  have hclamp := clamp_mem sample hmaximum
  intro _
  unfold MetricEstimate.update
  split_ifs with hsamples
  · exact hclamp
  · have hpositive : 0 < metric.samples := by
      rw [UInt64.lt_iff_toNat_lt]
      rw [← UInt64.toNat_inj] at hsamples
      have hzero : (0 : UInt64).toNat = 0 := rfl
      omega
    exact weightedAverage_mem hpolicy.alpha (h hpositive) hclamp

/-- After an update there are samples. -/
theorem samples_update_pos (sample maximum : UInt64) :
    0 < (metric.update sample policy maximum).samples := by
  unfold MetricEstimate.update
  simp only
  split
  next => exact (by decide : (0 : UInt64) < 1)
  next =>
    rw [UInt64.lt_iff_toNat_lt, toNat_saturatingAdd_one]
    have hzero : (0 : UInt64).toNat = 0 := rfl
    omega

/-- The estimates of a record are within their bounds. -/
structure RecordSound (policy : CalibrationPolicy) (record : CalibrationRecord) : Prop where
  queue : record.queueMicrosPerWaitingRequest.Within policy.maxUnitMicros
  prefill : record.prefillMicrosPerToken.Within policy.maxUnitMicros
  decode : record.decodeMicrosPerToken.Within policy.maxUnitMicros
  topology : record.topologyMicros.Within policy.maxUnitMicros
  materialization : ∀ (path : String) (metric : MetricEstimate),
    record.materializationRatioBps[path]? = some metric →
      metric.Within policy.maxMaterializationRatioBps

theorem recordSound_default : RecordSound policy {} where
  queue := MetricEstimate.within_default _
  prefill := MetricEstimate.within_default _
  decode := MetricEstimate.within_default _
  topology := MetricEstimate.within_default _
  materialization := by simp

end Metrics

section Records

/-- A first key is a key of the map. -/
theorem exists_head?_keys (paths : ExtTreeMap String MetricEstimate) (hne : paths ≠ ∅) :
    ∃ key ∈ paths, paths.keys.head? = some key := by
  have hkeys : paths.keys ≠ [] := by
    intro hnil
    have hsize := ExtTreeMap.length_keys (t := paths)
    rw [hnil] at hsize
    exact hne (ExtTreeMap.eq_empty_iff_size_eq_zero.mpr hsize.symm)
  obtain ⟨key, rest, hcons⟩ := List.exists_cons_of_ne_nil hkeys
  refine ⟨key, ?_, by rw [hcons, List.head?_cons]⟩
  rw [← ExtTreeMap.mem_keys, hcons]
  exact List.mem_cons_self

/-- The oldest record is one of the map, and no record has an older last update. -/
theorem oldestRecord_spec (records : ExtTreeMap String CalibrationRecord) (hne : records ≠ ∅) :
    ∃ (key : String) (record : CalibrationRecord),
      oldestRecord records = some key ∧ records[key]? = some record ∧
        ∀ (other : String) (otherRecord : CalibrationRecord), records[other]? = some otherRecord →
          record.lastUpdatedRevision ≤ otherRecord.lastUpdatedRevision := by
  obtain ⟨hempty, -⟩ | ⟨⟨key, record⟩, hfold, hleast⟩ := foldl_keepLess recordAge records.toList
  · have hsize := ExtTreeMap.length_toList (t := records)
    rw [hempty] at hsize
    exact absurd (ExtTreeMap.eq_empty_iff_size_eq_zero.mpr hsize.symm) hne
  · refine ⟨key, record, by rw [oldestRecord, hfold, Option.map_some],
      ExtTreeMap.mem_toList_iff_getElem?_eq_some.mp hleast.mem, ?_⟩
    intro other otherRecord hother
    have hle := hleast.le (ExtTreeMap.mem_toList_iff_getElem?_eq_some.mpr hother)
    simp only [recordAge, Prod.Lex.toLex_le_toLex] at hle
    rw [UInt64.le_iff_toNat_le]
    omega

/-- The oldest record is found. -/
theorem exists_oldestRecord (records : ExtTreeMap String CalibrationRecord) (hne : records ≠ ∅) :
    ∃ key ∈ records, oldestRecord records = some key := by
  obtain ⟨key, record, hkey, hrecord, -⟩ := oldestRecord_spec records hne
  exact ⟨key, ExtTreeMap.mem_iff_isSome_getElem?.mpr (by simp [hrecord]), hkey⟩

/-- Whether a branch changed the record does not depend on the record: each tests its own
part of the observation. -/
theorem observeRecord_changed :
    (observeRecord policy observation record).2 = observation.hasSample := by
  simp only [observeRecord, CalibrationObservation.hasSample]
  congr 1
  · congr 1
    · congr 1
      · cases hfirst : observation.timeToFirstTokenMicros with
        | none => simp [observeFirstToken, hfirst]
        | some ttft =>
          cases hwaiting : observation.waitingRequests with
          | none => simp [observeFirstToken, hfirst, hwaiting]
          | some waiting =>
            by_cases htokens : 0 < observation.inputTokens
            · by_cases hidle : waiting = 0
              · simp [observeFirstToken, hfirst, hwaiting, htokens, hidle]
              · simp [observeFirstToken, hfirst, hwaiting, htokens, hidle]
            · simp [observeFirstToken, hfirst, htokens]
      · cases hgeneration : observation.generationMicros with
        | none => simp [observeDecode, hgeneration]
        | some generation =>
          by_cases htokens : 0 < observation.outputTokens
          · simp [observeDecode, hgeneration, htokens]
          · simp [observeDecode, hgeneration, htokens]
    · cases htopology : observation.topologyMicros with
      | none => simp [observeTopology, htopology]
      | some topology => simp [observeTopology, htopology]
  · cases hmaterialization : observation.materialization with
    | none => simp [observeMaterialization, hmaterialization]
    | some materialization =>
      by_cases hestimated : 0 < materialization.estimatedMicros
      · simp [observeMaterialization, hmaterialization, hestimated]
      · simp [observeMaterialization, hmaterialization, hestimated]

/-- What one branch of an observation may do to a record: nothing, or one metric takes a
sample. -/
inductive Sampled (policy : CalibrationPolicy) (record : CalibrationRecord) :
    CalibrationRecord → Prop
  | same : Sampled policy record record
  | queue (sample : UInt64) : Sampled policy record
      { record with
        queueMicrosPerWaitingRequest :=
          record.queueMicrosPerWaitingRequest.update sample policy policy.maxUnitMicros }
  | prefill (sample : UInt64) : Sampled policy record
      { record with
        prefillMicrosPerToken :=
          record.prefillMicrosPerToken.update sample policy policy.maxUnitMicros }
  | decode (sample : UInt64) : Sampled policy record
      { record with
        decodeMicrosPerToken :=
          record.decodeMicrosPerToken.update sample policy policy.maxUnitMicros }
  | topology (sample : UInt64) : Sampled policy record
      { record with
        topologyMicros := record.topologyMicros.update sample policy policy.maxUnitMicros }
  | materialization {paths : ExtTreeMap String MetricEstimate} (path : String) (ratio : UInt64)
      (hpaths : paths = ensurePathCapacity record.materializationRatioBps path
        policy.maxMaterializationPathsPerRecord) : Sampled policy record
      { record with
        materializationRatioBps := paths.insert path
          (MetricEstimate.update (paths[path]?.getD {}) ratio policy
            policy.maxMaterializationRatioBps) }

theorem sampled_observeFirstToken (observation : CalibrationObservation) :
    Sampled policy record (observeFirstToken policy observation record).1 := by
  unfold observeFirstToken
  split
  next => exact .same
  next =>
    split
    next =>
      split
      next => exact .same
      next =>
        split
        next => exact .prefill _
        next => exact .queue _
    next => exact .same

theorem sampled_observeDecode (observation : CalibrationObservation) :
    Sampled policy record (observeDecode policy observation record).1 := by
  unfold observeDecode
  split
  next => exact .same
  next =>
    split
    next => exact .decode _
    next => exact .same

theorem sampled_observeTopology (observation : CalibrationObservation) :
    Sampled policy record (observeTopology policy observation record).1 := by
  unfold observeTopology
  split
  next => exact .same
  next => exact .topology _

theorem sampled_observeMaterialization (observation : CalibrationObservation) :
    Sampled policy record (observeMaterialization policy observation record).1 := by
  unfold observeMaterialization
  split
  next => exact .same
  next =>
    split
    next => exact .materialization _ _ rfl
    next => exact .same

/-- What every branch keeps, an observation keeps. -/
theorem observeRecord_invariant {P : CalibrationRecord → Prop}
    (hstep : ∀ record next, P record → Sampled policy record next → P next) (h : P record) :
    P (observeRecord policy observation record).1 := by
  have hfirst := hstep _ _ h (sampled_observeFirstToken observation)
  have hsecond := hstep _ _ hfirst (sampled_observeDecode observation)
  have hthird := hstep _ _ hsecond (sampled_observeTopology observation)
  exact hstep _ _ hthird (sampled_observeMaterialization observation)

/-- The paths of a record stay within their limit. -/
def PathsLimited (policy : CalibrationPolicy) (record : CalibrationRecord) : Prop :=
  record.materializationRatioBps.size ≤ policy.maxMaterializationPathsPerRecord

theorem PathsLimited.observeRecord (hpolicy : Accepted policy) (h : PathsLimited policy record) :
    PathsLimited policy (observeRecord policy observation record).1 := by
  refine observeRecord_invariant ?_ h
  intro record next h hsampled
  cases hsampled with
  | materialization path ratio hpaths =>
    subst hpaths
    exact size_insert_makeRoom_le hpolicy.paths h exists_head?_keys _
  | _ => exact h

theorem RecordSound.observeRecord (hpolicy : Accepted policy) (h : RecordSound policy record) :
    RecordSound policy (observeRecord policy observation record).1 := by
  refine observeRecord_invariant ?_ h
  intro record next h hsampled
  cases hsampled with
  | same => exact h
  | queue sample => exact { h with queue := h.queue.update hpolicy hpolicy.unit sample }
  | prefill sample => exact { h with prefill := h.prefill.update hpolicy hpolicy.unit sample }
  | decode sample => exact { h with decode := h.decode.update hpolicy hpolicy.unit sample }
  | topology sample => exact { h with topology := h.topology.update hpolicy hpolicy.unit sample }
  | @materialization paths path ratio hpaths =>
    -- what is left after making room was bounded before
    have hkept (key : String) (metric : MetricEstimate) (hmetric : paths[key]? = some metric) :
        metric.Within policy.maxMaterializationRatioBps := by
      rw [hpaths] at hmetric
      exact h.materialization key metric (getElem?_of_makeRoom hmetric)
    have hold : MetricEstimate.Within (paths[path]?.getD {}) policy.maxMaterializationRatioBps := by
      cases hpath : paths[path]? with
      | none => exact MetricEstimate.within_default _
      | some metric => exact hkept path metric hpath
    refine { h with materialization := ?_ }
    intro key metric hmetric
    rw [ExtTreeMap.getElem?_insert] at hmetric
    split at hmetric
    next =>
      cases hmetric
      exact hold.update hpolicy hpolicy.ratio ratio
    next => exact hkept key metric hmetric

end Records

section States

/-- The limits that a loaded state is checked against. -/
structure WithinLimits (policy : CalibrationPolicy) (state : CalibrationState) : Prop where
  schema : state.schemaVersion = schemaVersion
  records : state.records.size ≤ policy.maxRecords
  paths : ∀ (key : String) (record : CalibrationRecord), state.records[key]? = some record →
    PathsLimited policy record

/-- What the updates of a fresh calibrator keep besides. -/
structure Sound (policy : CalibrationPolicy) (state : CalibrationState) : Prop where
  limits : WithinLimits policy state
  estimates : ∀ (key : String) (record : CalibrationRecord), state.records[key]? = some record →
    RecordSound policy record
  agreements : state.shadow.agreements ≤ state.shadow.decisions
  mismatches : state.shadow.replayMismatches ≤ state.shadow.decisions
  updated : ∀ (key : String) (record : CalibrationRecord), state.records[key]? = some record →
    record.lastUpdatedRevision ≤ state.revision
  distinct : ∀ (key other : String) (record otherRecord : CalibrationRecord),
    state.records[key]? = some record → state.records[other]? = some otherRecord →
      record.lastUpdatedRevision = otherRecord.lastUpdatedRevision → key = other

theorem withinLimits_default : WithinLimits policy {} where
  schema := rfl
  records := by simp
  paths := by simp

theorem sound_default : Sound policy {} where
  limits := withinLimits_default
  estimates := by simp
  agreements := by decide
  mismatches := by decide
  updated := by simp
  distinct := by simp

/-- The records after an observation that is counted: room is made, then the record of the
observation is replaced. -/
def observedRecords (policy : CalibrationPolicy) (observation : CalibrationObservation)
    (state : CalibrationState) : ExtTreeMap String CalibrationRecord :=
  let stableId := observation.key.stableId
  let records := ensureRecordCapacity state.records stableId policy.maxRecords
  records.insert stableId
    { (observeRecord policy observation (records[stableId]?.getD {})).1 with
      lastUpdatedRevision := saturatingAdd state.revision 1 }

/-- An observation without a usable sample changes nothing, any other is counted. -/
theorem recordObservation_eq (policy : CalibrationPolicy) (observation : CalibrationObservation)
    (state : CalibrationState) :
    recordObservation policy observation state =
      if observation.completed ∧ observation.hasSample then
        ({ state with
          revision := saturatingAdd state.revision 1
          records := observedRecords policy observation state }, true)
      else (state, false) := by
  unfold recordObservation
  cases hcompleted : observation.completed with
  | false => simp
  | true =>
    cases hsample : observation.hasSample with
    | false => simp
    | true => simp [observeRecord_changed, hsample, observedRecords]

/-- The records that are left after making room have their last updates from before. -/
theorem getElem?_of_ensureRecordCapacity {incoming key : String}
    (h : (ensureRecordCapacity state.records incoming policy.maxRecords)[key]? = some record) :
    state.records[key]? = some record :=
  getElem?_of_makeRoom h

/-- A record after a counted observation is the one observed or an old one. -/
theorem observedRecords_cases {key : String}
    (h : (observedRecords policy observation state)[key]? = some record) :
    (key = observation.key.stableId ∧ ∃ old : CalibrationRecord,
      (old = {} ∨ state.records[key]? = some old) ∧
        record = { (observeRecord policy observation old).1 with
          lastUpdatedRevision := saturatingAdd state.revision 1 }) ∨
      (key ≠ observation.key.stableId ∧ state.records[key]? = some record) := by
  simp only [observedRecords, ExtTreeMap.getElem?_insert, compare_eq_iff_eq] at h
  split at h
  next heq =>
    left
    refine ⟨heq.symm, _, ?_, (Option.some.inj h).symm⟩
    rw [← heq]
    cases hold : (ensureRecordCapacity state.records observation.key.stableId
        policy.maxRecords)[observation.key.stableId]? with
    | none => exact .inl rfl
    | some old => exact .inr (getElem?_of_ensureRecordCapacity hold)
  next hne => exact .inr ⟨Ne.symm hne, getElem?_of_ensureRecordCapacity h⟩

/-- What holds of fresh records and is kept by observations holds of all records after a
counted observation. -/
theorem observedRecords_forall {P : CalibrationRecord → Prop} (hfresh : P {})
    (hobserve : ∀ record, P record → P (observeRecord policy observation record).1)
    (hstamp : ∀ record revision, P record → P { record with lastUpdatedRevision := revision })
    (h : ∀ (key : String) (record : CalibrationRecord), state.records[key]? = some record →
      P record) {key : String}
    (hkey : (observedRecords policy observation state)[key]? = some record) : P record := by
  obtain ⟨-, old, hold, rfl⟩ | ⟨-, hrecord⟩ := observedRecords_cases hkey
  · refine hstamp _ _ (hobserve old ?_)
    rcases hold with rfl | hold
    · exact hfresh
    · exact h _ old hold
  · exact h key record hrecord

theorem WithinLimits.recordObservation (hpolicy : Accepted policy)
    (h : WithinLimits policy state) (observation : CalibrationObservation) :
    WithinLimits policy (recordObservation policy observation state).1 := by
  rw [recordObservation_eq]
  split
  next =>
    refine ⟨h.schema, ?_, ?_⟩
    · exact size_insert_makeRoom_le hpolicy.records h.records exists_oldestRecord _
    · intro key record hkey
      have hfresh : PathsLimited policy {} := by simp [PathsLimited]
      exact observedRecords_forall hfresh (fun _ => PathsLimited.observeRecord hpolicy)
        (fun _ _ h => h) h.paths hkey
  next => exact h

theorem WithinLimits.recordShadowDecision (h : WithinLimits policy state) (consistent : Bool)
    (legacy calibrated : String) :
    WithinLimits policy (recordShadowDecision state consistent legacy calibrated) :=
  ⟨h.schema, h.records, h.paths⟩

theorem Sound.recordObservation (hpolicy : Accepted policy)
    (hrevision : state.revision.toNat + 1 < 2 ^ 64) (h : Sound policy state) :
    Sound policy (recordObservation policy observation state).1 := by
  have hlimits := h.limits.recordObservation hpolicy observation
  rw [recordObservation_eq] at hlimits ⊢
  split at hlimits
  next hcounted =>
    rw [if_pos hcounted]
    have hnext : (saturatingAdd state.revision 1).toNat = state.revision.toNat + 1 := by
      rw [toNat_saturatingAdd_one]
      omega
    -- an old record was updated before this observation
    have hold (key : String) (record : CalibrationRecord)
        (hrecord : state.records[key]? = some record) :
        record.lastUpdatedRevision ≠ saturatingAdd state.revision 1 := by
      have hle := UInt64.le_iff_toNat_le.mp (h.updated key record hrecord)
      rw [Ne, ← UInt64.toNat_inj]
      omega
    refine ⟨hlimits, ?_, h.agreements, h.mismatches, ?_, ?_⟩
    · intro key record hkey
      exact observedRecords_forall recordSound_default (fun _ => RecordSound.observeRecord hpolicy)
        (fun _ _ h => ⟨h.queue, h.prefill, h.decode, h.topology, h.materialization⟩)
        h.estimates hkey
    · intro key record hkey
      obtain ⟨-, old, -, rfl⟩ | ⟨-, hrecord⟩ := observedRecords_cases hkey
      · exact UInt64.le_refl _
      · exact UInt64.le_trans (h.updated key record hrecord) (le_saturatingAdd_one _)
    · intro key other record otherRecord hkey hother hsame
      obtain ⟨hself, old, -, rfl⟩ | ⟨-, hrecord⟩ := observedRecords_cases hkey
      · obtain ⟨hself', -⟩ | ⟨-, hrecord'⟩ := observedRecords_cases hother
        · rw [hself, hself']
        · exact absurd hsame.symm (hold other otherRecord hrecord')
      · obtain ⟨-, old', -, rfl⟩ | ⟨-, hrecord'⟩ := observedRecords_cases hother
        · exact absurd hsame (hold key record hrecord)
        · exact h.distinct key other record otherRecord hrecord hrecord' hsame
  next hignored =>
    rw [if_neg hignored]
    exact h

theorem Sound.recordShadowDecision (h : Sound policy state) (consistent : Bool)
    (legacy calibrated : String) :
    Sound policy (recordShadowDecision state consistent legacy calibrated) := by
  have hbound {part : UInt64} (hpart : part ≤ state.shadow.decisions) (counted : Prop)
      [Decidable counted] : (if counted then saturatingAdd part 1 else part) ≤
        saturatingAdd state.shadow.decisions 1 := by
    split
    next => exact saturatingAdd_one_mono hpart
    next => exact UInt64.le_trans hpart (le_saturatingAdd_one _)
  refine ⟨h.limits.recordShadowDecision consistent legacy calibrated, h.estimates,
    hbound h.agreements _, ?_, ?_, h.distinct⟩
  · cases consistent with
    | true => exact UInt64.le_trans h.mismatches (le_saturatingAdd_one _)
    | false => exact saturatingAdd_one_mono h.mismatches
  · intro key record hrecord
    exact UInt64.le_trans (h.updated key record hrecord) (le_saturatingAdd_one _)

/-- Some part of the observation measures a metric. -/
def UsableSample (observation : CalibrationObservation) : Prop :=
  (observation.timeToFirstTokenMicros.isSome ∧ 0 < observation.inputTokens ∧
    observation.waitingRequests.isSome) ∨
  (observation.generationMicros.isSome ∧ 0 < observation.outputTokens) ∨
  observation.topologyMicros.isSome ∨
  ∃ materialization, observation.materialization = some materialization ∧
    0 < materialization.estimatedMicros

theorem hasSample_iff : observation.hasSample = true ↔ UsableSample observation := by
  simp only [CalibrationObservation.hasSample, UsableSample, Bool.or_eq_true, Option.any_eq_true,
    Bool.and_eq_true, decide_eq_true_eq, Option.isSome_iff_exists, or_assoc]
  simp only [exists_and_right]

/-- How the records change when the one of a key is updated: it carries the new revision, and
if there was no room for it, the record that was updated longest ago is gone. -/
structure Replaces (policy : CalibrationPolicy) (key : String) (before after : CalibrationState) :
    Prop where
  stamped : ∃ record : CalibrationRecord, after.records[key]? = some record ∧
    record.lastUpdatedRevision = after.revision
  kept : (key ∈ before.records ∨ before.records.size < policy.maxRecords) →
    ∀ other : String, other ≠ key → after.records[other]? = before.records[other]?
  evicted : key ∉ before.records → before.records.size = policy.maxRecords →
    ∃ (oldest : String) (record : CalibrationRecord), before.records[oldest]? = some record ∧
      (∀ (other : String) (otherRecord : CalibrationRecord), other ≠ oldest →
        before.records[other]? = some otherRecord →
          record.lastUpdatedRevision < otherRecord.lastUpdatedRevision) ∧
      after.records[oldest]? = none ∧
      ∀ other : String, other ≠ oldest → other ≠ key →
        after.records[other]? = before.records[other]?

/-- A counted observation replaces the record of its key. -/
theorem replaces_recordObservation (hpolicy : Accepted policy) (h : Sound policy state)
    (hcounted : observation.completed ∧ observation.hasSample) :
    Replaces policy observation.key.stableId state
      (recordObservation policy observation state).1 := by
  rw [recordObservation_eq, if_pos hcounted]
  refine ⟨⟨_, ExtTreeMap.getElem?_insert_self, rfl⟩, ?_, ?_⟩
  · intro hspace other hother
    simp only [observedRecords, ensureRecordCapacity, makeRoom_of_space hspace]
    rw [ExtTreeMap.getElem?_insert, if_neg (by simpa using Ne.symm hother)]
  · intro hnew hfull
    have hne : state.records ≠ ∅ := by
      intro hempty
      have hpositive := hpolicy.records
      rw [hempty] at hfull
      simp only [ExtTreeMap.size_empty] at hfull
      omega
    obtain ⟨oldest, record, holdest, hrecord, hleast⟩ := oldestRecord_spec state.records hne
    have hroom : ensureRecordCapacity state.records observation.key.stableId policy.maxRecords =
        state.records.erase oldest :=
      makeRoom_of_full hnew (Nat.le_of_eq hfull.symm) holdest
    have hself : observation.key.stableId ≠ oldest := by
      rintro heq
      exact hnew (ExtTreeMap.mem_iff_isSome_getElem?.mpr (by simp [heq, hrecord]))
    refine ⟨oldest, record, hrecord, ?_, ?_, ?_⟩
    · intro other otherRecord hother hotherRecord
      have hle := UInt64.le_iff_toNat_le.mp (hleast other otherRecord hotherRecord)
      have hdiffer : record.lastUpdatedRevision ≠ otherRecord.lastUpdatedRevision := fun hsame =>
        hother (h.distinct oldest other record otherRecord hrecord hotherRecord hsame).symm
      rw [Ne, ← UInt64.toNat_inj] at hdiffer
      rw [UInt64.lt_iff_toNat_lt]
      omega
    · simp only [observedRecords, hroom]
      rw [ExtTreeMap.getElem?_insert, if_neg (by simpa using hself)]
      exact ExtTreeMap.getElem?_erase_self
    · intro other hother hkey
      simp only [observedRecords, hroom]
      rw [ExtTreeMap.getElem?_insert, if_neg (by simpa using Ne.symm hkey),
        ExtTreeMap.getElem?_erase, if_neg (by simpa using Ne.symm hother)]

end States

end Locus.Calibration
