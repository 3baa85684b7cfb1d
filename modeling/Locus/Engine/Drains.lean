import Locus.Engine.Registry
import Locus.Lib.Runs
import Mathlib.Data.Finset.Basic

/-!
# The registry and its callers

The system is the registry with the permits it has issued and the calls of `drain` and
`drain_all` that have begun. A drain holds no lock between its sections, so each of its
sections is a step of its own and any other step may come in between. Creating the
`notified` future of a turn of the loop is a step too: from then on the future receives
every `notify_waiters`, also before it is first polled.
-/

namespace Locus.Engine.Registry

open Locus.Core

/-- The engines that a drain is about. -/
inductive DrainScope
  | engine (engineId : EngineInstanceId)
  | all
  deriving DecidableEq

/-- How far a drain has come. -/
inductive DrainPhase
  /-- At the head of the loop. -/
  | looping
  /-- `notified` exists since that many notifications; the executions are not yet counted. -/
  | checking (seen : ℕ)
  /-- Some execution was active, and the drain awaits its notification or the deadline. -/
  | waiting (seen : ℕ)
  /-- No execution was active, and the drain is about to stop the engines. -/
  | stopping
  /-- The deadline has passed. -/
  | expired
  /-- The tokens still to be cancelled, of those collected. -/
  | cancelling (tokens : List ℕ) (collected : ℕ)
  | returned (report : EngineDrainReport)
  | failed (error : EngineError)
  deriving DecidableEq

/-- One call of `drain` or `drain_all`. The deadline is missing if the grace exceeds the
range of the timer. -/
structure DrainCall where
  scope : DrainScope
  deadline : Option ℕ
  phase : DrainPhase := .looping
  deriving DecidableEq

/-- The registry and its callers. `notifications` counts the calls of `notify_waiters`. -/
structure System where
  entries : Entries := ∅
  permits : List EngineExecutionPermit := []
  drains : List DrainCall := []
  cancelled : Finset ℕ := ∅
  notifications : ℕ := 0

/-- The system's steps. A permit or a drain is known by its index. The last two are steps
of the environment: an adapter reports another generation, a client cancels its context. -/
inductive Label
  | register (reference : EngineInstanceRef)
  | acquireExecution (target : ExecutionTarget) (context : ExecutionContext)
      (ended : Option ContextError)
  | dropPermit (permit : ℕ)
  | beginDrain (engineId : EngineInstanceId)
  | beginDrainAll
  | resume (engineId : EngineInstanceId)
  | drain (scope : DrainScope) (deadline : Option ℕ)
  | subscribe (drain : ℕ)
  | check (drain : ℕ)
  | wake (drain : ℕ)
  | expire (drain : ℕ) (now : ℕ)
  | stop (drain : ℕ)
  | collect (drain : ℕ)
  | cancel (drain : ℕ)
  | restart (engineId : EngineInstanceId) (generation : UInt64)
  | disconnect (token : ℕ)
  deriving DecidableEq

section Scopes

variable (entries : Entries)

/-- The section that a drain begins with. -/
def beginDrainIn : DrainScope → Except EngineError Entries
  | .engine engineId => beginDrain entries engineId
  | .all => .ok (beginDrainAll entries)

/-- The executions that a drain waits for. -/
def activeIn : DrainScope → Except EngineError ℕ
  | .engine engineId => activeExecutionsFor entries engineId
  | .all => .ok (activeExecutions entries)

/-- The section that stops what a drain found idle. -/
def stopDrainedIn : DrainScope → Except EngineError Entries
  | .engine engineId => stopDrainedEngine entries engineId
  | .all => .ok (stopDrained entries)

/-- The tokens that a drain collects when its deadline has passed. -/
def tokensIn : DrainScope → Except EngineError (List ℕ)
  | .engine engineId =>
    match entries[engineId]? with
    | none => .error (.targetNotFound engineId)
    | some entry => .ok entry.tokens
  | .all => .ok (entries.toList.flatMap fun engine => engine.2.tokens)

end Scopes

/-- Registry operations leave the entries as they are when they fail. -/
def System.after (sys : System) (result : Except EngineError Entries) : System :=
  match result with
  | .ok entries => { sys with entries }
  | .error _ => sys

/-- Put one drain into another phase. -/
def System.setPhase (sys : System) (drain : ℕ) (phase : DrainPhase) : System :=
  { sys with drains := sys.drains.modify drain fun call => { call with phase } }

/-- Begin a drain. -/
def startDrain (sys : System) (scope : DrainScope) (deadline : Option ℕ) : System :=
  match beginDrainIn sys.entries scope with
  | .error error =>
    { sys with drains := sys.drains ++ [{ scope, deadline, phase := .failed error }] }
  | .ok entries =>
    let phase := if deadline.isSome then .looping
      else .failed (.registry "engine drain grace exceeds timer range")
    { sys with entries, drains := sys.drains ++ [{ scope, deadline, phase }] }

/-- Count the executions that a drain waits for. -/
def checkDrain (sys : System) (drain : ℕ) (scope : DrainScope) (seen : ℕ) : System :=
  match activeIn sys.entries scope with
  | .error error => sys.setPhase drain (.failed error)
  | .ok count => sys.setPhase drain (if count = 0 then .stopping else .waiting seen)

/-- Stop what a drain found idle and return its report. -/
def stopDrain (sys : System) (drain : ℕ) (scope : DrainScope) : System :=
  match stopDrainedIn sys.entries scope with
  | .error error => sys.setPhase drain (.failed error)
  | .ok entries =>
    { sys with entries }.setPhase drain
      (.returned { completed := true, forcedCancellations := 0 })

/-- Collect the tokens that a drain is going to cancel. -/
def collectTokens (sys : System) (drain : ℕ) (scope : DrainScope) : System :=
  match tokensIn sys.entries scope with
  | .error error => sys.setPhase drain (.failed error)
  | .ok tokens => sys.setPhase drain (.cancelling tokens tokens.length)

/-- One turn of the loop that cancels the collected tokens. -/
def cancelNext (sys : System) (drain : ℕ) (tokens : List ℕ) (collected : ℕ) : System :=
  match tokens with
  | [] =>
    sys.setPhase drain (.returned { completed := false, forcedCancellations := collected })
  | token :: tokens =>
    { sys with cancelled := insert token sys.cancelled }.setPhase drain
      (.cancelling tokens collected)

/-- One step of the system; `none` when the label is not enabled. -/
def step (sys : System) : Label → Option System
  | .register reference => some (sys.after (register sys.entries reference))
  | .acquireExecution target context ended =>
    match acquireExecution sys.entries target context ended with
    | .error _ => some sys
    | .ok (permit, entries) => some { sys with entries, permits := sys.permits ++ [permit] }
  | .dropPermit id => do
    let permit ← sys.permits[id]?
    if permit.released then none
    else
      let (notified, entries) :=
        releaseExecution sys.entries permit.engineId permit.requestId
      some { sys with
        entries
        permits := sys.permits.modify id fun permit => { permit with released := true }
        notifications := sys.notifications + if notified then 1 else 0 }
  | .beginDrain engineId => some (sys.after (beginDrain sys.entries engineId))
  | .beginDrainAll => some { sys with entries := beginDrainAll sys.entries }
  | .resume engineId => some (sys.after (resume sys.entries engineId))
  | .drain scope deadline => some (startDrain sys scope deadline)
  | .subscribe id => do
    let call ← sys.drains[id]?
    match call.phase with
    | .looping => some (sys.setPhase id (.checking sys.notifications))
    | _ => none
  | .check id => do
    let call ← sys.drains[id]?
    match call.phase with
    | .checking seen => some (checkDrain sys id call.scope seen)
    | _ => none
  | .wake id => do
    let call ← sys.drains[id]?
    match call.phase with
    | .waiting seen => if seen < sys.notifications then some (sys.setPhase id .looping) else none
    | _ => none
  | .expire id now => do
    let call ← sys.drains[id]?
    let deadline ← call.deadline
    match call.phase with
    -- The timer is polled after the notification, which may have come in between.
    | .waiting _ => if deadline ≤ now then some (sys.setPhase id .expired) else none
    | _ => none
  | .stop id => do
    let call ← sys.drains[id]?
    match call.phase with
    | .stopping => some (stopDrain sys id call.scope)
    | _ => none
  | .collect id => do
    let call ← sys.drains[id]?
    match call.phase with
    | .expired => some (collectTokens sys id call.scope)
    | _ => none
  | .cancel id => do
    let call ← sys.drains[id]?
    match call.phase with
    | .cancelling tokens collected => some (cancelNext sys id tokens collected)
    | _ => none
  | .restart engineId generation =>
    some (sys.after (updateEngine sys.entries engineId fun entry => { entry with generation }))
  | .disconnect token => some { sys with cancelled := insert token sys.cancelled }

/-- Runs of the system from an empty registry. -/
def Reaches (labels : List Label) (sys : System) : Prop :=
  Lib.Run (Lib.stepRel step) {} labels sys

end Locus.Engine.Registry
