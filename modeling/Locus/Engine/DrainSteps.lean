import Locus.Engine.Drains
import Locus.Lib.Histories

/-!
# What a step of the registry does

A step changes the executions of an engine only by admitting one or by releasing one. All
other steps leave the executions alone and move lifecycles along `Settles`. A drain goes
from phase to phase along `Advance`. The invariants are derived from these two relations.
-/

namespace Locus.Engine.Registry

open Locus.Core

/-- The token of a request that is active on an engine. -/
def activeOn (entries : Entries) (engineId : EngineInstanceId) (requestId : RequestId) :
    Option ℕ :=
  entries[engineId]?.bind fun entry => entry.active[requestId]?

/-- What may become of an engine whose executions stay as they are. -/
structure Settles (resumed : Prop) (entry entry' : RegisteredEngine) : Prop where
  active_eq : entry'.active = entry.active
  stays_stopped : entry.lifecycle = .stopped → entry'.lifecycle = .stopped
  stops_idle : entry'.lifecycle = .stopped → entry.lifecycle = .stopped ∨ entry.active.isEmpty
  ready_before : entry'.lifecycle = .ready →
    entry.lifecycle = .ready ∨ resumed ∧ entry.lifecycle = .draining

section Settles

variable {resumed : Prop} (entry : RegisteredEngine)

theorem Settles.refl : Settles resumed entry entry :=
  ⟨rfl, id, Or.inl, Or.inl⟩

theorem settles_beginDrain : Settles resumed entry entry.beginDrain := by
  unfold RegisteredEngine.beginDrain
  split
  next hready => exact ⟨rfl, by simp [hready], by simp, by simp⟩
  next => exact .refl entry

theorem settles_resume (hresumed : resumed) : Settles resumed entry entry.resume := by
  unfold RegisteredEngine.resume
  split
  next hdraining => exact ⟨rfl, by simp [hdraining], by simp, fun _ => .inr ⟨hresumed, hdraining⟩⟩
  next => exact .refl entry

theorem settles_stopDrained : Settles resumed entry entry.stopDrained := by
  unfold RegisteredEngine.stopDrained
  split
  next hidle => exact ⟨rfl, by simp, fun _ => .inr hidle.2, by simp⟩
  next => exact .refl entry

end Settles

/-- The two registries hold the same engines, each as it may become. -/
def SettlesAll (resumed : EngineInstanceId → Prop) (entries entries' : Entries) : Prop :=
  ∀ engineId, Option.Rel (Settles (resumed engineId)) entries[engineId]? entries'[engineId]?

section SettlesAll

variable {resumed : EngineInstanceId → Prop} {entries entries' : Entries}

theorem SettlesAll.refl : SettlesAll resumed entries entries := by
  intro engineId
  cases entries[engineId]? with
  | none => exact .none
  | some entry => exact .some (.refl entry)

theorem settlesAll_updateAll {change : RegisteredEngine → RegisteredEngine}
    (hchange : ∀ engineId entry, Settles (resumed engineId) entry (change entry)) :
    SettlesAll resumed entries (updateAll entries change) := by
  intro engineId
  rw [updateAll, Std.TreeMap.getElem?_map]
  cases entries[engineId]? with
  | none => exact .none
  | some entry => exact .some (hchange engineId entry)

theorem settlesAll_updateEngine {engineId : EngineInstanceId}
    {change : RegisteredEngine → RegisteredEngine}
    (hchange : ∀ entry, Settles (resumed engineId) entry (change entry))
    (h : updateEngine entries engineId change = .ok entries') :
    SettlesAll resumed entries entries' := by
  unfold updateEngine at h
  split at h
  · cases h
  next entry hfound =>
    cases h
    intro other
    rw [Std.TreeMap.getElem?_insert]
    split
    next heq =>
      obtain rfl := Std.LawfulEqCmp.eq_of_compare heq
      rw [hfound]
      exact .some (hchange entry)
    next => exact SettlesAll.refl other

/-- Only the engine that is changed can differ. -/
theorem updateEngine_other {engineId other : EngineInstanceId}
    {change : RegisteredEngine → RegisteredEngine}
    (h : updateEngine entries engineId change = .ok entries') (hother : other ≠ engineId) :
    entries'[other]? = entries[other]? := by
  unfold updateEngine at h
  split at h
  · cases h
  next entry _ =>
    cases h
    simp [Std.TreeMap.getElem?_insert, Ne.symm hother]

theorem SettlesAll.after (h : SettlesAll resumed entries entries') {engineId : EngineInstanceId}
    {entry : RegisteredEngine} (hentry : entries[engineId]? = some entry) :
    ∃ entry', entries'[engineId]? = some entry' ∧ Settles (resumed engineId) entry entry' := by
  have hrel := h engineId
  rw [hentry] at hrel
  generalize entries'[engineId]? = found at hrel
  cases hrel with
  | some hsettles => exact ⟨_, rfl, hsettles⟩

theorem SettlesAll.before (h : SettlesAll resumed entries entries') {engineId : EngineInstanceId}
    {entry' : RegisteredEngine} (hentry : entries'[engineId]? = some entry') :
    ∃ entry, entries[engineId]? = some entry ∧ Settles (resumed engineId) entry entry' := by
  have hrel := h engineId
  rw [hentry] at hrel
  generalize entries[engineId]? = found at hrel
  cases hrel with
  | some hsettles => exact ⟨_, rfl, hsettles⟩

theorem SettlesAll.activeOn_eq (h : SettlesAll resumed entries entries')
    (engineId : EngineInstanceId) (requestId : RequestId) :
    activeOn entries' engineId requestId = activeOn entries engineId requestId := by
  unfold activeOn
  cases hentry : entries[engineId]? with
  | some entry =>
    obtain ⟨entry', hentry', hsettles⟩ := h.after hentry
    simp [hentry', hsettles.active_eq]
  | none =>
    cases hentry' : entries'[engineId]? with
    | none => rfl
    | some entry' =>
      obtain ⟨entry, hfound, -⟩ := h.before hentry'
      rw [hentry] at hfound
      cases hfound

end SettlesAll

section Frames

variable (sys : System) (drain : ℕ) (phase : DrainPhase) (result : Except EngineError Entries)

@[simp] theorem after_permits : (sys.after result).permits = sys.permits := by
  cases result <;> rfl

@[simp] theorem after_drains : (sys.after result).drains = sys.drains := by
  cases result <;> rfl

@[simp] theorem after_notifications : (sys.after result).notifications = sys.notifications := by
  cases result <;> rfl

end Frames

/-- The drain whose section a label is. -/
def Label.drain? : Label → Option ℕ
  | .subscribe id | .check id | .wake id | .expire id _ | .stop id | .collect id | .cancel id =>
    some id
  | _ => none

/-- The sections of a drain: the phase it was in, the phase it goes to, and the registry
and the cancelled tokens afterwards. -/
inductive Advance (sys : System) (scope : DrainScope) :
    DrainPhase → DrainPhase → Entries → Finset ℕ → Prop
  | subscribe : Advance sys scope .looping (.checking sys.notifications) sys.entries sys.cancelled
  | idle (seen : ℕ) : activeIn sys.entries scope = .ok 0 →
      Advance sys scope (.checking seen) .stopping sys.entries sys.cancelled
  | busy (seen : ℕ) : Advance sys scope (.checking seen) (.waiting seen) sys.entries sys.cancelled
  | wake (seen : ℕ) : Advance sys scope (.waiting seen) .looping sys.entries sys.cancelled
  | expire (seen : ℕ) : Advance sys scope (.waiting seen) .expired sys.entries sys.cancelled
  | stop (entries : Entries) : stopDrainedIn sys.entries scope = .ok entries →
      Advance sys scope .stopping (.returned { completed := true, forcedCancellations := 0 })
        entries sys.cancelled
  | collect (tokens : List ℕ) : tokensIn sys.entries scope = .ok tokens →
      Advance sys scope .expired (.cancelling tokens tokens.length) sys.entries sys.cancelled
  | cancel (token : ℕ) (tokens : List ℕ) (collected : ℕ) :
      Advance sys scope (.cancelling (token :: tokens) collected) (.cancelling tokens collected)
        sys.entries (insert token sys.cancelled)
  | finish (collected : ℕ) :
      Advance sys scope (.cancelling [] collected)
        (.returned { completed := false, forcedCancellations := collected })
        sys.entries sys.cancelled
  | fail (phase : DrainPhase) (error : EngineError) :
      Advance sys scope phase (.failed error) sys.entries sys.cancelled

/-- The system after a section of a drain. -/
def Advances (sys : System) (id : ℕ) (call : DrainCall) (sys' : System) : Prop :=
  ∃ phase entries cancelled, Advance sys call.scope call.phase phase entries cancelled ∧
    sys' = { sys with entries, cancelled }.setPhase id phase

section Advances

variable {sys sys' : System} {id : ℕ} {call : DrainCall}

/-- A section that changes nothing but the phase. -/
theorem Advance.advances {before phase : DrainPhase}
    (h : Advance sys call.scope before phase sys.entries sys.cancelled)
    (hphase : call.phase = before) : Advances sys id call (sys.setPhase id phase) :=
  ⟨phase, _, _, hphase ▸ h, rfl⟩

theorem checkDrain_advances {seen : ℕ} (hphase : call.phase = .checking seen) :
    Advances sys id call (checkDrain sys id call.scope seen) := by
  unfold checkDrain
  split
  next error _ => exact (Advance.fail _ error).advances hphase
  next count hcount =>
    split
    next hzero => exact (Advance.idle seen (hzero ▸ hcount)).advances hphase
    next => exact (Advance.busy seen).advances hphase

theorem stopDrain_advances (hphase : call.phase = .stopping) :
    Advances sys id call (stopDrain sys id call.scope) := by
  unfold stopDrain
  split
  next error _ => exact (Advance.fail _ error).advances hphase
  next entries hstop => exact ⟨_, entries, _, hphase ▸ .stop entries hstop, rfl⟩

theorem collectTokens_advances (hphase : call.phase = .expired) :
    Advances sys id call (collectTokens sys id call.scope) := by
  unfold collectTokens
  split
  next error _ => exact (Advance.fail _ error).advances hphase
  next tokens htokens => exact (Advance.collect tokens htokens).advances hphase

theorem cancelNext_advances {tokens : List ℕ} {collected : ℕ}
    (hphase : call.phase = .cancelling tokens collected) :
    Advances sys id call (cancelNext sys id tokens collected) := by
  cases tokens with
  | nil => exact (Advance.finish collected).advances hphase
  | cons token tokens => exact ⟨_, _, _, hphase ▸ .cancel token tokens collected, rfl⟩

/-- Every step of a drain is one of its sections. -/
theorem step_advances {label : Label} (hlabel : label.drain? = some id)
    (h : step sys label = some sys') :
    ∃ call, sys.drains[id]? = some call ∧ Advances sys id call sys' := by
  cases label <;> cases hlabel <;> obtain ⟨call, hcall, h⟩ := Option.bind_eq_some_iff.mp h
  case subscribe.refl =>
    refine ⟨call, hcall, ?_⟩
    cases hphase : call.phase <;> simp only [hphase, reduceCtorEq, Option.some.injEq] at h
    exact h ▸ Advance.subscribe.advances hphase
  case check.refl =>
    refine ⟨call, hcall, ?_⟩
    cases hphase : call.phase <;> simp only [hphase, reduceCtorEq, Option.some.injEq] at h
    exact h ▸ checkDrain_advances hphase
  case wake.refl =>
    refine ⟨call, hcall, ?_⟩
    cases hphase : call.phase <;> simp only [hphase, reduceCtorEq] at h
    obtain ⟨-, h⟩ := Option.ite_none_right_eq_some.mp h
    exact Option.some.inj h ▸ (Advance.wake _).advances hphase
  case expire.refl =>
    obtain ⟨deadline, -, h⟩ := Option.bind_eq_some_iff.mp h
    refine ⟨call, hcall, ?_⟩
    cases hphase : call.phase <;> simp only [hphase, reduceCtorEq] at h
    obtain ⟨-, h⟩ := Option.ite_none_right_eq_some.mp h
    exact Option.some.inj h ▸ (Advance.expire _).advances hphase
  case stop.refl =>
    refine ⟨call, hcall, ?_⟩
    cases hphase : call.phase <;> simp only [hphase, reduceCtorEq, Option.some.injEq] at h
    exact h ▸ stopDrain_advances hphase
  case collect.refl =>
    refine ⟨call, hcall, ?_⟩
    cases hphase : call.phase <;> simp only [hphase, reduceCtorEq, Option.some.injEq] at h
    exact h ▸ collectTokens_advances hphase
  case cancel.refl =>
    refine ⟨call, hcall, ?_⟩
    cases hphase : call.phase <;> simp only [hphase, reduceCtorEq, Option.some.injEq] at h
    exact h ▸ cancelNext_advances hphase

end Advances

/-- What a step does to the engines and to the permits. -/
inductive Move (label : Label) (sys sys' : System) : Prop
  | settle (entries : SettlesAll (fun engineId => label = .resume engineId)
        sys.entries sys'.entries)
      (permits : sys'.permits = sys.permits)
      (notifications : sys'.notifications = sys.notifications)
  | register (engineId : EngineInstanceId) (generation : UInt64)
      (absent : sys.entries[engineId]? = none)
      (entries : sys'.entries = sys.entries.insert engineId { generation })
      (permits : sys'.permits = sys.permits)
      (notifications : sys'.notifications = sys.notifications)
  | admission (permit : EngineExecutionPermit) (entry : RegisteredEngine)
      (found : sys.entries[permit.engineId]? = some entry)
      (ready : entry.lifecycle = .ready)
      (absent : entry.active[permit.requestId]? = none)
      (outstanding : permit.released = false)
      (entries : sys'.entries = sys.entries.insert permit.engineId
        { entry with active := entry.active.insert permit.requestId permit.cancellation })
      (permits : sys'.permits = sys.permits ++ [permit])
      (notifications : sys'.notifications = sys.notifications)
  | release (id : ℕ) (permit : EngineExecutionPermit)
      (held : sys.permits[id]? = some permit)
      (outstanding : permit.released = false)
      (entries : sys'.entries =
        (releaseExecution sys.entries permit.engineId permit.requestId).2)
      (permits : sys'.permits =
        sys.permits.modify id fun permit => { permit with released := true })
      (notifications : sys'.notifications = sys.notifications +
        if (releaseExecution sys.entries permit.engineId permit.requestId).1 then 1 else 0)

section Moves

variable {sys sys' : System} {label : Label}

theorem settlesAll_after {resumed : EngineInstanceId → Prop} {engineId : EngineInstanceId}
    {change : RegisteredEngine → RegisteredEngine}
    (hchange : ∀ entry, Settles (resumed engineId) entry (change entry)) :
    SettlesAll resumed sys.entries
      (sys.after (updateEngine sys.entries engineId change)).entries := by
  cases hupdate : updateEngine sys.entries engineId change with
  | error => exact .refl
  | ok entries => exact settlesAll_updateEngine hchange hupdate

theorem settlesAll_beginDrainIn {resumed : EngineInstanceId → Prop} {entries entries' : Entries}
    {scope : DrainScope} (h : beginDrainIn entries scope = .ok entries') :
    SettlesAll resumed entries entries' := by
  cases scope with
  | engine engineId => exact settlesAll_updateEngine settles_beginDrain h
  | all =>
    cases h
    exact settlesAll_updateAll fun _ => settles_beginDrain

theorem settlesAll_stopDrainedIn {resumed : EngineInstanceId → Prop} {entries entries' : Entries}
    {scope : DrainScope} (h : stopDrainedIn entries scope = .ok entries') :
    SettlesAll resumed entries entries' := by
  cases scope with
  | engine engineId => exact settlesAll_updateEngine settles_stopDrained h
  | all =>
    cases h
    exact settlesAll_updateAll fun _ => settles_stopDrained

/-- What a successful acquisition found and did. -/
theorem acquireExecution_eq_ok {entries entries' : Entries} {target : ExecutionTarget}
    {context : ExecutionContext} {ended : Option ContextError} {permit : EngineExecutionPermit}
    (h : acquireExecution entries target context ended = .ok (permit, entries')) :
    ∃ entry, entries[target.engine.id]? = some entry ∧
      entry.generation = target.engine.generation ∧ entry.lifecycle = .ready ∧
      entry.active[context.requestId]? = none ∧
      permit = { engineId := target.engine.id, requestId := context.requestId,
                 cancellation := context.cancellation } ∧
      entries' = entries.insert target.engine.id
        { entry with active := entry.active.insert context.requestId context.cancellation } := by
  unfold acquireExecution at h
  split at h
  · cases h
  split at h
  · cases h
  next entry hentry =>
    split at h
    · cases h
    next hgeneration =>
      split at h
      · cases h
      · cases h
      next hready =>
        split at h
        · cases h
        next hfresh =>
          cases h
          refine ⟨entry, hentry, not_not.mp hgeneration, hready, ?_, rfl, rfl⟩
          exact Std.TreeMap.getElem?_eq_none (by simpa using hfresh)

/-- Beginning a drain only moves lifecycles. -/
theorem startDrain_settles {resumed : EngineInstanceId → Prop} {scope : DrainScope}
    {deadline : Option ℕ} :
    SettlesAll resumed sys.entries (startDrain sys scope deadline).entries ∧
      (startDrain sys scope deadline).permits = sys.permits ∧
      (startDrain sys scope deadline).notifications = sys.notifications := by
  unfold startDrain
  split
  · exact ⟨.refl, rfl, rfl⟩
  next entries hbegin => exact ⟨settlesAll_beginDrainIn hbegin, rfl, rfl⟩

/-- A section of a drain only moves lifecycles. -/
theorem Advances.settles {resumed : EngineInstanceId → Prop} {id : ℕ} {call : DrainCall}
    (h : Advances sys id call sys') :
    SettlesAll resumed sys.entries sys'.entries ∧ sys'.permits = sys.permits ∧
      sys'.notifications = sys.notifications := by
  obtain ⟨phase, entries, cancelled, hadvance, rfl⟩ := h
  refine ⟨?_, rfl, rfl⟩
  generalize call.phase = before at hadvance
  cases hadvance with
  | stop entries hstop => exact settlesAll_stopDrainedIn hstop
  | _ => exact .refl

/-- Every step moves lifecycles, registers an engine, admits an execution or releases one. -/
theorem step_move (h : step sys label = some sys') : Move label sys sys' := by
  cases hdrain : label.drain? with
  | some id =>
    obtain ⟨call, -, hadvances⟩ := step_advances hdrain h
    obtain ⟨hentries, hpermits, hnotifications⟩ := hadvances.settles
    exact .settle hentries hpermits hnotifications
  | none =>
    cases label <;> cases hdrain
    case register.refl reference =>
      cases h
      cases hregister : register sys.entries reference with
      | error => exact .settle .refl rfl rfl
      | ok entries =>
        unfold register at hregister
        split at hregister
        · cases hregister
        next hfresh =>
          cases hregister
          refine .register reference.id reference.generation ?_ rfl rfl rfl
          exact Std.TreeMap.getElem?_eq_none (by simpa using hfresh)
    case acquireExecution.refl target context ended =>
      simp only [step] at h
      split at h
      · cases h
        exact .settle .refl rfl rfl
      next permit entries hacquire =>
        cases h
        obtain ⟨entry, hfound, -, hready, habsent, rfl, rfl⟩ := acquireExecution_eq_ok hacquire
        exact .admission _ entry hfound hready habsent rfl rfl rfl rfl
    case dropPermit.refl id =>
      obtain ⟨permit, hpermit, h⟩ := Option.bind_eq_some_iff.mp h
      obtain ⟨houtstanding, h⟩ := Option.ite_none_left_eq_some.mp h
      cases h
      exact .release id permit hpermit (by simpa using houtstanding) rfl rfl rfl
    case beginDrain.refl engineId =>
      cases h
      exact .settle (settlesAll_after settles_beginDrain) (by simp) (by simp)
    case beginDrainAll.refl =>
      cases h
      exact .settle (settlesAll_updateAll fun _ => settles_beginDrain) rfl rfl
    case resume.refl engineId =>
      cases h
      exact .settle (settlesAll_after fun entry => settles_resume entry rfl) (by simp) (by simp)
    case drain.refl scope deadline =>
      cases h
      obtain ⟨hentries, hpermits, hnotifications⟩ := startDrain_settles
      exact .settle hentries hpermits hnotifications
    case restart.refl engineId generation =>
      cases h
      refine .settle (settlesAll_after fun entry => ?_) (by simp) (by simp)
      exact ⟨rfl, id, Or.inl, Or.inl⟩
    case disconnect.refl token =>
      cases h
      exact .settle .refl rfl rfl

/-- A drain begins at the head of its loop unless it fails at once. -/
theorem startDrain_drains (sys : System) (scope : DrainScope) (deadline : Option ℕ) :
    ∃ call : DrainCall, (call.phase = .looping ∨ ∃ error, call.phase = .failed error) ∧
      (startDrain sys scope deadline).drains = sys.drains ++ [call] := by
  unfold startDrain
  split
  next error _ => exact ⟨_, .inr ⟨error, rfl⟩, rfl⟩
  next =>
    refine ⟨_, ?_, rfl⟩
    cases deadline with
    | none => exact .inr ⟨_, rfl⟩
    | some => exact .inl rfl

/-- All other steps leave the drains alone. -/
theorem step_drains_eq (h : step sys label = some sys') (hdrain : label.drain? = none)
    (hstart : ¬∃ scope deadline, label = .drain scope deadline) : sys'.drains = sys.drains := by
  cases label <;> cases hdrain
  case drain.refl scope deadline => exact absurd ⟨scope, deadline, rfl⟩ hstart
  case acquireExecution.refl =>
    simp only [step] at h
    split at h <;> cases h <;> rfl
  case dropPermit.refl =>
    obtain ⟨permit, -, h⟩ := Option.bind_eq_some_iff.mp h
    obtain ⟨-, h⟩ := Option.ite_none_left_eq_some.mp h
    cases h
    rfl
  all_goals
    cases h
    simp

/-- A drain that a step leaves behind was there before, has just begun or has advanced. -/
theorem step_call (h : step sys label = some sys') {id : ℕ} {call' : DrainCall}
    (hcall' : sys'.drains[id]? = some call') :
    sys.drains[id]? = some call' ∨
      (call'.phase = .looping ∨ ∃ error, call'.phase = .failed error) ∨
      ∃ call, label.drain? = some id ∧ sys.drains[id]? = some call ∧ call'.scope = call.scope ∧
        Advance sys call.scope call.phase call'.phase sys'.entries sys'.cancelled := by
  cases hdrain : label.drain? with
  | some other =>
    obtain ⟨call, hcall, phase, entries, cancelled, hadvance, rfl⟩ := step_advances hdrain h
    simp only [System.setPhase, List.getElem?_modify] at hcall'
    by_cases hother : other = id
    · subst hother
      simp only [hcall, ↓reduceIte, Option.map_eq_map, Option.map_some,
        Option.some.injEq] at hcall'
      subst hcall'
      exact .inr (.inr ⟨call, rfl, hcall, rfl, hadvance⟩)
    · simp only [hother, ↓reduceIte, Option.map_eq_map, Option.map_id_fun', id_eq] at hcall'
      exact .inl hcall'
  | none =>
    by_cases hstart : ∃ scope deadline, label = .drain scope deadline
    · obtain ⟨scope, deadline, rfl⟩ := hstart
      cases h
      obtain ⟨call, hfresh, hdrains⟩ := startDrain_drains sys scope deadline
      rw [hdrains] at hcall'
      rcases Lib.getElem?_concat_eq_some.mp hcall' with hold | ⟨-, rfl⟩
      · exact .inl hold
      · exact .inr (.inl hfresh)
    · rw [step_drains_eq h hdrain hstart] at hcall'
      exact .inl hcall'

end Moves

end Locus.Engine.Registry
