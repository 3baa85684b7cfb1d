import Locus.Engine.Telemetry
import Locus.Lib.Concurrent

/-!
# Which observations are reported as fresh

Any number of snapshots of an adapter run side by side, the engine answers anything, and the clock
may step back. What is read anew is fresh, and after a failure the age of what was read earlier is
checked. Only what a snapshot takes instead of reading anew is reported as fresh at any age: after
the clock has stepped back, or when the interval between scrapes is longer than the time that an
observation is valid.
-/

namespace Locus.Engine

open Locus.Core Locus.Lib

variable {F : Type} (platform : Platform F) (adapter : RemoteCompletionAdapter)

section System

/-- A call of `snapshot`. -/
structure SnapshotCall where
  target : ExecutionTarget
  context : OperationContext

/-- The error of a poisoned lock. -/
def cacheLockPoisoned : EngineError := .execution "telemetry cache lock poisoned"

/-- The shared state answers for itself, unless its lock is poisoned. The engine and the clock may
answer anything. -/
def TelemetryState.respond (state : TelemetryState F) :
    Exchange (TelemetryCall.Answer (F := F)) → Option (TelemetryState F)
  | ⟨.cachedTelemetry _ servedModel now, answer⟩ =>
    let answer : Except EngineError (Option CacheEntry) := answer
    if answer = .ok (cachedTelemetry adapter servedModel now state.cache) ∨
        answer = .error cacheLockPoisoned then some state
    else none
  | ⟨.record servedModel samples observedAt, answer⟩ =>
    let answer : Except EngineError (TargetTelemetry × UInt64) := answer
    let recorded := recordTelemetry platform adapter servedModel samples observedAt state
    if answer = recorded.1 then some recorded.2
    else if answer = .error cacheLockPoisoned then some state
    else none
  | _ => some state

/-- All snapshots of an adapter so far. -/
abbrev Snapshots (F : Type) :=
  Threads (TelemetryState F) SnapshotCall (TelemetryCall.Answer (F := F)) (Except EngineError Served)

/-- A step of an adapter. -/
abbrev SnapshotLabel (F : Type) := ThreadLabel SnapshotCall (TelemetryCall.Answer (F := F))

/-- All snapshots of an adapter side by side. -/
def telemetrySystem :
    ThreadSystem (TelemetryState F) SnapshotCall (TelemetryCall.Answer (F := F))
      (Except EngineError Served) where
  program call := snapshot platform adapter call.target call.context
  mayStart _ _ := True
  respond state _ exchange := state.respond platform adapter exchange

/-- An adapter before its first snapshot. -/
def freshAdapter : Snapshots F := ⟨{}, []⟩

end System

section Property

/-- A clock reading at which an observation is valid. -/
def InWindow (config : RemoteTelemetryConfig) (observedAt reading : UInt64) : Prop :=
  observedAt ≤ reading ∧ reading.toNat ≤ observedAt.toNat + config.validForMillis.toNat

/-- What is reported as fresh, and ready where only what is fresh is ready, is valid at the reading
that it was served by. -/
def Served.Gated (served : Served) : Prop :=
  served.snapshot.telemetryStatus = .fresh ∨
      (adapter.config.telemetry.requireFreshMetrics = true ∧ served.snapshot.ready = true) →
    InWindow adapter.config.telemetry served.snapshot.observedAtUnixMillis served.servedAt

/-- Every snapshot that was returned is gated. -/
def FreshnessGate (s : Snapshots F) : Prop :=
  ∀ thread ∈ s.threads, ∀ served, thread.remaining = .done (.ok served) → served.Gated adapter

/-- If a snapshot takes what was read earlier instead of reading anew, it is still valid. -/
def TakesValid (s : Snapshots F) : SnapshotLabel F → Prop
  | .answer _ ⟨.cachedTelemetry .beforeScrape servedModel now, answer⟩ =>
    (answer : Except EngineError (Option CacheEntry)) ≠ .error cacheLockPoisoned →
      ∀ cache, s.shared.cache = some cache → cache.targets.contains servedModel →
        saturatingSub now cache.observedAtUnixMillis <
            adapter.config.telemetry.minScrapeIntervalMillis →
          InWindow adapter.config.telemetry cache.observedAtUnixMillis now
  | _ => True

end Property

section Phases

variable {platform adapter}

/-- After the status has been checked. -/
theorem cachedTelemetry_inWindow {servedModel : String} {now : UInt64}
    {cache : Option CachedTelemetry} {entry : CacheEntry}
    (h : cachedTelemetry adapter servedModel now cache = some entry) (hfresh : entry.status = .fresh) :
    InWindow adapter.config.telemetry entry.observedAt now := by
  obtain ⟨cache, rfl, h⟩ := Option.bind_eq_some_iff.mp h
  obtain ⟨telemetry, -, rfl⟩ := Option.map_eq_some_iff.mp h
  dsimp only at hfresh
  split_ifs at hfresh with hvalid
  refine ⟨hvalid.1, ?_⟩
  have hle := UInt64.le_iff_toNat_le.mp hvalid.2
  rw [toNat_saturatingAdd] at hle
  dsimp only
  omega

/-- A snapshot is gated if what it reports as fresh is valid. -/
theorem gated_engineSnapshot_iff {target : ExecutionTarget} {healthReady : Bool}
    {telemetry : TargetTelemetry} {observedAt revision servedAt : UInt64} {status : TelemetryStatus}
    {reason : Option String} :
    Served.Gated adapter ⟨engineSnapshot adapter target healthReady telemetry observedAt revision
        status reason, servedAt⟩ ↔
      (status = .fresh → InWindow adapter.config.telemetry observedAt servedAt) := by
  unfold Served.Gated engineSnapshot
  constructor
  · intro h hfresh
    exact h (.inl hfresh)
  · rintro h (hfresh | ⟨hrequired, hready⟩)
    · exact h hfresh
    · simp only [hrequired, Bool.not_true, Bool.false_or, Bool.and_eq_true, beq_iff_eq] at hready
      exact h hready.2

theorem inWindow_self (config : RemoteTelemetryConfig) (observedAt : UInt64) :
    InWindow config observedAt observedAt :=
  ⟨UInt64.le_refl _, Nat.le_add_right _ _⟩

/-- The question that an observation waits with, and what can end it. -/
inductive ObservationWaits (adapter : RemoteCompletionAdapter) :
    (question : TelemetryCall F) →
      (question.Answer → TelemetryM F (Except EngineError Observation)) → Prop
  | goesOn {question : TelemetryCall F}
      {next : question.Answer → TelemetryM F (Except EngineError Observation)}
      (other : ∀ use servedModel now, question ≠ .cachedTelemetry use servedModel now)
      (goes : ∀ answer observation, next answer = .done (.ok observation) →
        observation.observedAt = observation.servedAt) :
      ObservationWaits adapter question next
  | beforeScrape {servedModel : String} {now : UInt64}
      {next : Except EngineError (Option CacheEntry) →
        TelemetryM F (Except EngineError Observation)}
      (takes : ∀ entry : CacheEntry, entry.isRecent adapter.config.telemetry now = true →
        next (.ok (some entry)) =
          .done (.ok ⟨entry.telemetry, entry.observedAt, entry.revision, now⟩))
      (returns : ∀ answer observation, next answer = .done (.ok observation) →
        ∃ entry : CacheEntry, answer = .ok (some entry) ∧
          entry.isRecent adapter.config.telemetry now = true) :
      ObservationWaits adapter (.cachedTelemetry .beforeScrape servedModel now) next

variable {servedModel : String}

theorem recordSamples_waits (samples : Except EngineError (List (PrometheusSample F))) :
    (recordSamples servedModel samples).Waits (ObservationWaits adapter) := by
  cases samples with
  | error error => exact Dialogue.waits_pure _
  | ok samples =>
    refine Dialogue.waits_call_bind ?_ fun reading => ?_
    · refine .goesOn (fun _ _ _ hquestion => by cases hquestion) fun reading observation hdone => ?_
      split at hdone <;> cases hdone
    · split
      · exact Dialogue.waits_pure _
      · refine Dialogue.waits_call_bind ?_ fun recorded => ?_
        · refine .goesOn (fun _ _ _ hquestion => by cases hquestion) ?_
          intro recorded observation hdone
          split at hdone <;> cases hdone
          rfl
        · split <;> exact Dialogue.waits_pure _

theorem observeTelemetry_waits :
    (observeTelemetry platform adapter servedModel).Waits (ObservationWaits adapter) := by
  have hscrape : (scrapeTelemetry platform adapter servedModel).Waits
      (ObservationWaits adapter) := by
    refine Dialogue.waits_call_bind ?_ fun answer => recordSamples_waits _
    refine .goesOn (fun _ _ _ hquestion => by cases hquestion) fun answer observation hdone => ?_
    cases hsamples : ScrapeAnswer.samples platform adapter.config.telemetry answer <;>
      · rw [hsamples] at hdone
        cases hdone
  refine Dialogue.waits_call_bind ?_ fun reading => ?_
  · refine .goesOn (fun _ _ _ hquestion => by cases hquestion) fun reading observation hdone => ?_
    split at hdone <;> cases hdone
  · split
    · exact Dialogue.waits_pure _
    next now hnow =>
      refine Dialogue.waits_call_bind (.beforeScrape ?_ ?_) fun cached => ?_
      · intro entry hrecent
        simp only [hrecent, if_true]
        rfl
      · intro cached observation hdone
        rcases cached with error | _ | entry
        · cases hdone
        · cases hdone
        · refine ⟨entry, rfl, ?_⟩
          by_contra hold
          simp only [hold] at hdone
          cases hdone
      · rcases cached with error | _ | entry
        · exact Dialogue.waits_pure _
        · exact hscrape
        · dsimp only
          split_ifs
          · exact Dialogue.waits_pure _
          · exact hscrape

/-- The question that a snapshot waits with, and what it returns after the answer. -/
inductive SnapshotWaits (adapter : RemoteCompletionAdapter) :
    (question : TelemetryCall F) →
      (question.Answer → TelemetryM F (Except EngineError Served)) → Prop
  | goesOn {question : TelemetryCall F}
      {next : question.Answer → TelemetryM F (Except EngineError Served)}
      (other : ∀ use servedModel now, question ≠ .cachedTelemetry use servedModel now)
      (gated : ∀ answer served, next answer = .done (.ok served) → served.Gated adapter) :
      SnapshotWaits adapter question next
  | beforeScrape {servedModel : String} {now : UInt64}
      {next : Except EngineError (Option CacheEntry) → TelemetryM F (Except EngineError Served)}
      (takes : ∀ entry : CacheEntry, entry.isRecent adapter.config.telemetry now = true →
        ∃ served, next (.ok (some entry)) = .done (.ok served) ∧
          (served.Gated adapter ↔ InWindow adapter.config.telemetry entry.observedAt now))
      (returns : ∀ answer served, next answer = .done (.ok served) →
        ∃ entry : CacheEntry, answer = .ok (some entry) ∧
          entry.isRecent adapter.config.telemetry now = true) :
      SnapshotWaits adapter (.cachedTelemetry .beforeScrape servedModel now) next
  | afterFailure {servedModel : String} {now : UInt64}
      {next : Except EngineError (Option CacheEntry) → TelemetryM F (Except EngineError Served)}
      (gated : ∀ answer served, next answer = .done (.ok served) →
        (∀ entry : CacheEntry, answer = .ok (some entry) → entry.status = .fresh →
          InWindow adapter.config.telemetry entry.observedAt now) → served.Gated adapter) :
      SnapshotWaits adapter (.cachedTelemetry .afterFailure servedModel now) next

variable {target : ExecutionTarget} {healthReady : Bool} {now : UInt64}

theorem snapshotAt_waits :
    (snapshotAt platform adapter target servedModel healthReady now).Waits
      (SnapshotWaits adapter) := by
  refine Dialogue.Waits.bind observeTelemetry_waits ?_ ?_
  · intro question rest hwaits
    cases hwaits with
    | goesOn other goes =>
      refine .goesOn other fun answer served hdone => ?_
      obtain ⟨observed, hrest, hserved⟩ := Dialogue.bind_eq_done.mp hdone
      rcases observed with error | observation
      · cases hserved
      · cases hserved
        refine gated_engineSnapshot_iff.mpr fun _ => ?_
        rw [goes answer observation hrest]
        exact inWindow_self _ _
    | beforeScrape takes returns =>
      refine .beforeScrape (fun entry hrecent => ?_) fun answer served hdone => ?_
      · rw [takes entry hrecent]
        refine ⟨_, rfl, gated_engineSnapshot_iff.trans ?_⟩
        simp only [forall_const]
      · obtain ⟨observed, hrest, hserved⟩ := Dialogue.bind_eq_done.mp hdone
        rcases observed with error | observation
        · cases hserved
        · exact returns answer observation hrest
  · intro observed
    rcases observed with error | observation
    · refine Dialogue.waits_call_bind (.afterFailure ?_) fun cached => ?_
      · intro cached served hdone hvalid
        rcases cached with error | _ | entry
        · cases hdone
        · cases hdone
          exact gated_engineSnapshot_iff.mpr fun hfresh => by cases hfresh
        · cases hdone
          exact gated_engineSnapshot_iff.mpr (hvalid entry rfl)
      · rcases cached with error | _ | entry <;> exact Dialogue.waits_pure _
    · exact Dialogue.waits_pure _

theorem snapshot_waits {context : OperationContext} :
    (snapshot platform adapter target context).Waits (SnapshotWaits adapter) := by
  refine Dialogue.waits_call_bind ?_ fun active => ?_
  · refine .goesOn (fun _ _ _ hquestion => by cases hquestion) fun active served hdone => ?_
    rcases active with error | ⟨⟩
    · cases hdone
    · cases htarget : adapter.config.targetConfig target <;>
        · rw [htarget] at hdone
          cases hdone
  rcases active with error | ⟨⟩
  · exact Dialogue.waits_pure _
  cases htarget : adapter.config.targetConfig target with
  | error error => exact Dialogue.waits_pure _
  | ok candidate =>
    refine Dialogue.waits_call_bind ?_ fun health => ?_
    · refine .goesOn (fun _ _ _ hquestion => by cases hquestion) fun health served hdone => ?_
      rcases health with error | healthReady <;> cases hdone
    rcases health with error | healthReady
    · exact Dialogue.waits_pure _
    · refine Dialogue.waits_call_bind ?_ fun reading => ?_
      · refine .goesOn (fun _ _ _ hquestion => by cases hquestion) fun reading served hdone => ?_
        split at hdone <;> cases hdone
      · split
        · exact Dialogue.waits_pure _
        · exact snapshotAt_waits

end Phases

section Gate

variable {platform adapter} {s t : Snapshots F} {labels : List (SnapshotLabel F)}
  {label : SnapshotLabel F}

/-- What is left of every snapshot waits as a snapshot does. -/
def AllWait (adapter : RemoteCompletionAdapter) (s : Snapshots F) : Prop :=
  ∀ (k : ℕ) (thread : Thread SnapshotCall (TelemetryCall.Answer (F := F)) (Except EngineError Served)),
    s.threads[k]? = some thread → thread.remaining.Waits (SnapshotWaits adapter)

theorem allWait_of_run
    (hrun : Run (telemetrySystem platform adapter).Step freshAdapter labels s) :
    AllWait adapter s := by
  have hconsistent : (telemetrySystem platform adapter).Consistent s := by
    refine hrun.invariant _ (fun _ _ _ h hstep => ThreadSystem.consistent_step h hstep) ?_
    intro k thread hthread
    cases hthread
  intro k thread hthread
  exact snapshot_waits.of_reaches (hconsistent k thread hthread)

/-- What is kept of a model is found. -/
theorem cachedTelemetry_of_contains {servedModel : String} (now : UInt64) {cache : CachedTelemetry}
    (h : cache.targets.contains servedModel) :
    ∃ entry, cachedTelemetry adapter servedModel now (some cache) = some entry ∧
      entry.observedAt = cache.observedAtUnixMillis := by
  obtain ⟨telemetry, htelemetry⟩ := Option.isSome_iff_exists.mp
    (Std.ExtTreeMap.isSome_getElem?_eq_contains.trans h)
  exact ⟨_, by rw [cachedTelemetry, Option.bind_some, htelemetry, Option.map_some], rfl⟩

/-- What is found of a model is kept. -/
theorem contains_of_cachedTelemetry {servedModel : String} {now : UInt64}
    {cache : Option CachedTelemetry} {entry : CacheEntry}
    (h : cachedTelemetry adapter servedModel now cache = some entry) :
    ∃ kept, cache = some kept ∧ kept.targets.contains servedModel ∧
      entry.observedAt = kept.observedAtUnixMillis := by
  obtain ⟨kept, rfl, h⟩ := Option.bind_eq_some_iff.mp h
  obtain ⟨telemetry, htelemetry, rfl⟩ := Option.map_eq_some_iff.mp h
  refine ⟨kept, rfl, ?_, rfl⟩
  rw [← Std.ExtTreeMap.isSome_getElem?_eq_contains, htelemetry, Option.isSome_some]

/-- The cache answers for itself. -/
theorem answer_of_respond {state shared : TelemetryState F} {use : CacheUse} {servedModel : String}
    {now : UInt64} {answer : Except EngineError (Option CacheEntry)}
    (h : state.respond platform adapter ⟨.cachedTelemetry use servedModel now, answer⟩ =
      some shared) :
    answer = .ok (cachedTelemetry adapter servedModel now state.cache) ∨
      answer = .error cacheLockPoisoned := by
  by_contra hother
  simp only [TelemetryState.respond, if_neg hother] at h
  cases h

/-- What an answer ends is gated exactly if it takes only what is valid. -/
theorem gated_answer_iff {index : ℕ} {question : TelemetryCall F} {answer : question.Answer}
    {next : question.Answer → TelemetryM F (Except EngineError Served)} {shared : TelemetryState F}
    (hwaits : SnapshotWaits adapter question next)
    (hshared : s.shared.respond platform adapter ⟨question, answer⟩ = some shared) :
    (∀ served, next answer = .done (.ok served) → served.Gated adapter) ↔
      TakesValid adapter s (.answer index ⟨question, answer⟩) := by
  cases hwaits with
  | goesOn other gated =>
    refine iff_of_true (gated answer) ?_
    cases question with
    | cachedTelemetry use servedModel now => exact absurd rfl (other use servedModel now)
    | _ => exact trivial
  | @beforeScrape servedModel now _ takes returns =>
    have hanswer : answer = .ok (cachedTelemetry adapter servedModel now s.shared.cache) ∨
        answer = .error cacheLockPoisoned := answer_of_respond hshared
    constructor
    · intro hgated hhealthy cache hcache hcontains hrecent
      obtain ⟨entry, hentry, hobserved⟩ : ∃ entry,
          cachedTelemetry adapter servedModel now (some cache) = some entry ∧
            entry.observedAt = cache.observedAtUnixMillis :=
        cachedTelemetry_of_contains now hcontains
      rw [hcache, hentry] at hanswer
      obtain rfl := hanswer.resolve_right hhealthy
      rw [← hobserved] at hrecent ⊢
      obtain ⟨served, hnext, hiff⟩ := takes entry (decide_eq_true hrecent)
      exact hiff.mp (hgated served hnext)
    · intro hvalid served hnext
      obtain ⟨entry, rfl, hrecent⟩ := returns answer served hnext
      obtain ⟨taken, htaken, hiff⟩ := takes entry hrecent
      rw [htaken] at hnext
      cases hnext
      have hentry := Except.ok.inj (hanswer.resolve_right (fun h => by cases h))
      obtain ⟨cache, hcache, hcontains, hobserved⟩ := contains_of_cachedTelemetry hentry.symm
      rw [hiff, hobserved]
      refine hvalid (fun h => by cases h) cache hcache hcontains ?_
      rw [← hobserved]
      exact of_decide_eq_true hrecent
  | @afterFailure servedModel now _ gated =>
    refine iff_of_true (fun served hnext => gated answer served hnext ?_) trivial
    rintro entry rfl hfresh
    have hanswer := Except.ok.inj ((answer_of_respond hshared).resolve_right fun h => by cases h)
    exact cachedTelemetry_inWindow hanswer.symm hfresh

/-- A step keeps the gate exactly if it takes only what is valid. -/
theorem freshnessGate_step_iff (hwait : AllWait adapter s)
    (hstep : (telemetrySystem platform adapter).Step s label t) :
    FreshnessGate adapter t ↔ FreshnessGate adapter s ∧ TakesValid adapter s label := by
  cases hstep with
  | @start operation hstart =>
    have hnew : ∀ served, (telemetrySystem platform adapter).program operation ≠
        .done (.ok served) := fun served h => by cases h
    constructor
    · intro hgate
      exact ⟨fun thread hmem => hgate thread (List.mem_append_left _ hmem), trivial⟩
    · rintro ⟨hgate, -⟩ thread hmem served hdone
      rcases List.mem_append.mp hmem with hmem | hmem
      · exact hgate thread hmem served hdone
      · obtain rfl := List.mem_singleton.mp hmem
        exact absurd hdone (hnew served)
  | @answer index operation exchanges question next answer shared hthread hshared =>
    have hwaits : SnapshotWaits adapter question next := (hwait index _ hthread).1
    have hlt := (List.getElem?_eq_some_iff.mp hthread).1
    rw [← gated_answer_iff hwaits hshared]
    constructor
    · intro hgate
      refine ⟨fun thread hmem served hdone => ?_, fun served hdone => ?_⟩
      · obtain ⟨k, hk⟩ := List.mem_iff_getElem?.mp hmem
        have hne : index ≠ k := by
          rintro rfl
          rw [hthread] at hk
          cases hk
          cases hdone
        refine hgate thread (List.mem_iff_getElem?.mpr ⟨k, ?_⟩) served hdone
        rw [List.getElem?_set_ne hne, hk]
      · exact hgate _ (List.mem_iff_getElem?.mpr ⟨index, List.getElem?_set_self hlt⟩) served hdone
    · rintro ⟨hgate, hnew⟩ thread hmem served hdone
      rcases List.mem_or_eq_of_mem_set hmem with hmem | rfl
      · exact hgate thread hmem served hdone
      · exact hnew served hdone

/-- If snapshots take only what is valid, only what is valid is reported as fresh. -/
theorem freshnessGate_of_takesValid
    (hrun : Run (permitted (TakesValid adapter) (telemetrySystem platform adapter).Step)
      freshAdapter labels s) : FreshnessGate adapter s := by
  induction hrun with
  | nil => rintro thread ⟨⟩
  | snoc hrun hlast ih =>
    have hrun := hrun.mono fun _ _ _ hstep => hstep.2
    exact (freshnessGate_step_iff (allWait_of_run hrun) hlast.2).mpr ⟨ih, hlast.1⟩

/-- In a run, everything that is reported as fresh is valid exactly if no snapshot takes what is
no longer valid, or not yet. -/
theorem freshnessGate_iff
    (hrun : Run (telemetrySystem platform adapter).Step freshAdapter labels s) :
    FreshnessGate adapter s ↔
      Run (permitted (TakesValid adapter) (telemetrySystem platform adapter).Step) freshAdapter
        labels s := by
  constructor
  · intro hgate
    induction hrun with
    | nil => exact .nil _
    | snoc hrun hlast ih =>
      obtain ⟨hgate, htakes⟩ := (freshnessGate_step_iff (allWait_of_run hrun) hlast).mp hgate
      exact (ih hgate).snoc ⟨htakes, hlast⟩
  · exact freshnessGate_of_takesValid

/-- What is recent is valid, if the clock has not stepped back behind it and the interval between
scrapes is not longer than an observation is valid. -/
theorem inWindow_of_recent {config : RemoteTelemetryConfig} {observedAt now : UInt64}
    (hinterval : config.minScrapeIntervalMillis.toNat ≤ config.validForMillis.toNat + 1)
    (hclock : observedAt ≤ now)
    (hrecent : saturatingSub now observedAt < config.minScrapeIntervalMillis) :
    InWindow config observedAt now := by
  refine ⟨hclock, ?_⟩
  rw [UInt64.lt_iff_toNat_lt, toNat_saturatingSub] at hrecent
  omega

/-- The clock has not stepped back behind what is kept. -/
def NotBefore (s : Snapshots F) : SnapshotLabel F → Prop
  | .answer _ ⟨.cachedTelemetry .beforeScrape _ now, _⟩ =>
    ∀ cache, s.shared.cache = some cache → cache.observedAtUnixMillis ≤ now
  | _ => True

theorem takesValid_of_notBefore
    (hinterval : adapter.config.telemetry.minScrapeIntervalMillis.toNat ≤
      adapter.config.telemetry.validForMillis.toNat + 1)
    (h : NotBefore s label) : TakesValid adapter s label := by
  cases label with
  | start call => exact trivial
  | answer index exchange =>
    obtain ⟨question, answer⟩ := exchange
    cases question with
    | cachedTelemetry use servedModel now =>
      cases use with
      | beforeScrape =>
        exact fun _ cache hcache _ hrecent => inWindow_of_recent hinterval (h cache hcache) hrecent
      | afterFailure => exact trivial
    | _ => exact trivial

/-- With such an interval the gate holds as long as the clock does not step back. -/
theorem freshnessGate_of_notBefore
    (hinterval : adapter.config.telemetry.minScrapeIntervalMillis.toNat ≤
      adapter.config.telemetry.validForMillis.toNat + 1)
    (hrun : Run (permitted NotBefore (telemetrySystem platform adapter).Step) freshAdapter
      labels s) : FreshnessGate adapter s :=
  freshnessGate_of_takesValid
    (hrun.mono fun _ _ _ hstep => ⟨takesValid_of_notBefore hinterval hstep.1, hstep.2⟩)

end Gate

section Scrapes

variable {platform adapter}

/-- An engine without metrics has an empty exposition. -/
theorem samples_empty (config : RemoteTelemetryConfig) :
    (ScrapeAnswer.body []).samples platform config = .ok [] := by
  have htext : fromUtf8? [] = some [] := fromUtf8?_eq_some_iff.mpr rfl
  have hread : parsePrometheus platform.parse [] config.maxSamples = .ok [] := rfl
  simp only [ScrapeAnswer.samples, List.length_nil, Nat.not_lt_zero, if_false, htext, hread]

/-- A platform that reads no numbers. -/
def noNumbers : Platform Unit where
  parse _ := none
  isFinite _ := false
  isNonnegative _ := false
  isLess _ _ := false
  sum _ := ()
  max _ _ := ()
  ratePerSecond _ _ _ := ()
  nonnegativeU64 _ := none
  secondsToMicros _ := none
  ratioToPermyriad _ := none
  quoteName _ := ""
  utf8Error _ := ""

/-- The target of a remote model. -/
def remoteTarget : ExecutionTarget where
  id := "engine/model"
  engine := ⟨"engine", 1⟩
  model := ⟨"model", none, "profile"⟩
  role := .combined
  parallelLayout := ⟨1, 1, 1, "layout"⟩
  residency := "resident"
  capabilityRevision := "revision"

/-- An observation is valid for a second, and the metrics are read every five seconds. -/
def slowAdapter : RemoteCompletionAdapter where
  config := {
    baseUrl := "http://engine"
    engineInstance := ⟨⟨"engine", 1⟩, none⟩
    targets := [⟨"model", remoteTarget⟩]
    telemetry := {
      minScrapeIntervalMillis := 5000
      validForMillis := 1000
      requireFreshMetrics := true } }
  flavor := .vllm
  accepted := by decide

/-- A snapshot of the remote target. -/
def remoteCall : SnapshotCall := ⟨remoteTarget, { requestId := "request" }⟩

/-- How a snapshot with this number begins, at this time. -/
def openingLabels (index reading : ℕ) : List (SnapshotLabel Unit) :=
  [.start remoteCall,
    .answer index ⟨.ensureActive remoteCall.context, .ok ()⟩,
    .answer index ⟨.health "http://engine/health", .ok true⟩,
    .answer index ⟨.clock, ClockReading.millis reading⟩,
    .answer index ⟨.clock, ClockReading.millis reading⟩]

/-- The first snapshot reads the metrics after one second. -/
def scrapeLabels : List (SnapshotLabel Unit) :=
  openingLabels 0 1000 ++
    [.answer 0 ⟨.cachedTelemetry .beforeScrape "model" 1000, .ok none⟩,
      .answer 0 ⟨.scrape "http://engine/metrics", ScrapeAnswer.body []⟩]

def recordLabels : List (SnapshotLabel Unit) :=
  [.answer 0 ⟨.clock, ClockReading.millis 1000⟩,
    .answer 0 ⟨.record "model" [] 1000, .ok ({}, 1)⟩]

/-- The second snapshot takes what the first has read. -/
def takeLabels (reading : ℕ) (status : TelemetryStatus) : List (SnapshotLabel Unit) :=
  openingLabels 1 reading ++
    [.answer 1 ⟨.cachedTelemetry .beforeScrape "model" (UInt64.ofNat reading),
      .ok (some ⟨{}, 1000, 1, status⟩)⟩]

/-- The first snapshot after it has read these samples. -/
def scraped (samples : Except EngineError (List (PrometheusSample Unit))) : Snapshots Unit :=
  ⟨{}, [⟨remoteCall,
    [⟨.ensureActive remoteCall.context, .ok ()⟩, ⟨.health "http://engine/health", .ok true⟩,
      ⟨.clock, ClockReading.millis 1000⟩, ⟨.clock, ClockReading.millis 1000⟩,
      ⟨.cachedTelemetry .beforeScrape "model" 1000, .ok none⟩,
      ⟨.scrape "http://engine/metrics", ScrapeAnswer.body []⟩],
    recordSamples "model" samples >>= finishSnapshot slowAdapter remoteTarget "model" true 1000⟩]⟩

theorem run_scraped :
    Run (permitted (TakesValid slowAdapter) (telemetrySystem noNumbers slowAdapter).Step)
      freshAdapter scrapeLabels (scraped (.ok [])) := by
  have hvalid : TakesValid slowAdapter (freshAdapter : Snapshots Unit)
      (.answer 0 ⟨.cachedTelemetry .beforeScrape "model" 1000, .ok none⟩) := by
    intro _ cache hcache
    cases hcache
  have hrun : ∃ s, Run (permitted (TakesValid slowAdapter)
      (telemetrySystem noNumbers slowAdapter).Step) freshAdapter scrapeLabels s ∧
      s = scraped ((ScrapeAnswer.body []).samples noNumbers slowAdapter.config.telemetry) :=
    ⟨_, .snoc (.snoc (.snoc (.snoc (.snoc (.snoc (.snoc (.nil _) ⟨trivial, .start trivial⟩)
      ⟨trivial, .answer rfl rfl⟩) ⟨trivial, .answer rfl rfl⟩) ⟨trivial, .answer rfl rfl⟩)
      ⟨trivial, .answer rfl rfl⟩) ⟨hvalid, .answer rfl rfl⟩) ⟨trivial, .answer rfl rfl⟩, rfl⟩
  obtain ⟨s, hrun, rfl⟩ := hrun
  rwa [samples_empty] at hrun

/-- Half a second later what was read is still valid. -/
theorem freshnessGate_halfSecond : ∃ s,
    Run (telemetrySystem noNumbers slowAdapter).Step freshAdapter
      (scrapeLabels ++ (recordLabels ++ takeLabels 1500 .fresh)) s ∧
    FreshnessGate slowAdapter s ∧ ∃ thread served, s.threads[1]? = some thread ∧
      thread.remaining = .done (.ok served) ∧ served.snapshot.telemetryStatus = .fresh := by
  have hrun : ∃ s, Run (permitted (TakesValid slowAdapter)
      (telemetrySystem noNumbers slowAdapter).Step) (scraped (.ok []))
        (recordLabels ++ takeLabels 1500 .fresh) s ∧
      ∃ thread served, s.threads[1]? = some thread ∧
        thread.remaining = .done (.ok served) ∧ served.snapshot.telemetryStatus = .fresh := by
    refine ⟨_, .snoc (.snoc (.snoc (.snoc (.snoc (.snoc (.snoc (.snoc (.nil _)
      ⟨trivial, .answer rfl rfl⟩) ⟨trivial, .answer rfl rfl⟩) ⟨trivial, .start trivial⟩)
      ⟨trivial, .answer rfl rfl⟩) ⟨trivial, .answer rfl rfl⟩) ⟨trivial, .answer rfl rfl⟩)
      ⟨trivial, .answer rfl rfl⟩) ⟨?_, .answer rfl rfl⟩, _, _, rfl, rfl, rfl⟩
    intro _ cache hcache _ _
    cases hcache
    exact ⟨by decide, by decide⟩
  obtain ⟨s, hsecond, hserved⟩ := hrun
  have hpermitted := run_scraped.append hsecond
  have hrun := hpermitted.mono fun _ _ _ h => h.2
  exact ⟨s, hrun, (freshnessGate_iff hrun).mpr hpermitted, hserved⟩

/-- Three seconds later what was read has expired, and is reported as fresh. -/
theorem not_freshnessGate_expired : ∃ s,
    Run (telemetrySystem noNumbers slowAdapter).Step freshAdapter
      (scrapeLabels ++ (recordLabels ++ takeLabels 4000 .stale)) s ∧
    ¬FreshnessGate slowAdapter s := by
  have hrun : ∃ s, Run (telemetrySystem noNumbers slowAdapter).Step (scraped (.ok []))
        (recordLabels ++ takeLabels 4000 .stale) s ∧
      ∃ thread served, s.threads[1]? = some thread ∧
        thread.remaining = .done (.ok served) ∧ served.snapshot.telemetryStatus = .fresh ∧
        served.snapshot.observedAtUnixMillis = 1000 ∧ served.servedAt = 4000 :=
    ⟨_, .snoc (.snoc (.snoc (.snoc (.snoc (.snoc (.snoc (.snoc (.nil _)
      (.answer rfl rfl)) (.answer rfl rfl)) (.start trivial)) (.answer rfl rfl))
      (.answer rfl rfl)) (.answer rfl rfl)) (.answer rfl rfl)) (.answer rfl rfl),
      _, _, rfl, rfl, rfl, rfl, rfl⟩
  obtain ⟨s, hsecond, thread, served, hthread, hdone, hfresh, hobserved, hserved⟩ := hrun
  refine ⟨s, (run_scraped.mono fun _ _ _ h => h.2).append hsecond, fun hgate => ?_⟩
  obtain ⟨-, hlate⟩ := hgate thread (List.mem_of_getElem? hthread) served hdone (.inl hfresh)
  rw [hobserved, hserved] at hlate
  exact absurd hlate (by decide)

end Scrapes

end Locus.Engine
