import Locus.Engine.Adapter
import Locus.Lib.MapEntries

/-!
# The engine registry

The registry maps engine ids to registered engines, each with its lifecycle and the
cancellation tokens of its active executions. Every operation below is one critical
section of the registry's lock. No section panics, so the lock is never poisoned.
-/

namespace Locus.Engine.Registry

open Std (TreeMap)
open Locus.Core

inductive EngineLifecycle
  | ready
  | draining
  | stopped
  deriving DecidableEq

/-- A registered engine. `generation` is what its adapter reports at this moment. A token
is known by its identity, which the clones of a context share. -/
structure RegisteredEngine where
  generation : UInt64
  lifecycle : EngineLifecycle := .ready
  active : TreeMap RequestId ℕ := ∅

abbrev Entries := TreeMap EngineInstanceId RegisteredEngine

/-- What a drain reports when it returns. -/
structure EngineDrainReport where
  completed : Bool
  forcedCancellations : ℕ
  deriving DecidableEq

/-- The context of an execution together with its cancellation token. -/
structure ExecutionContext extends OperationContext where
  cancellation : ℕ
  deriving DecidableEq

/-- The permit of one execution. `cancellation` is a ghost: the token that the execution
was registered with. -/
structure EngineExecutionPermit where
  engineId : EngineInstanceId
  requestId : RequestId
  released : Bool := false
  cancellation : ℕ
  deriving DecidableEq

/-- `EngineRegistry::register`, with the instance that the adapter reports. -/
def register (entries : Entries) (reference : EngineInstanceRef) : Except EngineError Entries :=
  if entries.contains reference.id then
    .error (.registry ("duplicate engine instance id: " ++ reference.id))
  else .ok (entries.insert reference.id { generation := reference.generation })

/-- `EngineRegistry::acquire_execution`. The outcome of `ensure_active` comes with the call,
because it is read before the lock is taken. -/
def acquireExecution (entries : Entries) (target : ExecutionTarget) (context : ExecutionContext)
    (ended : Option ContextError) : Except EngineError (EngineExecutionPermit × Entries) :=
  match ended with
  | some error => .error (.context error)
  | none =>
    match entries[target.engine.id]? with
    | none => .error (.targetNotFound target.id)
    | some entry =>
      if entry.generation ≠ target.engine.generation then .error .staleGeneration
      else
        match entry.lifecycle with
        | .draining => .error .draining
        | .stopped => .error .stopped
        | .ready =>
          if entry.active.contains context.requestId then
            .error (.registry ("duplicate active request id: " ++ context.requestId))
          else
            let permit := {
              engineId := target.engine.id
              requestId := context.requestId
              cancellation := context.cancellation }
            let active := entry.active.insert context.requestId context.cancellation
            .ok (permit, entries.insert target.engine.id { entry with active })

/-- An engine that is asked to drain. -/
def RegisteredEngine.beginDrain (entry : RegisteredEngine) : RegisteredEngine :=
  if entry.lifecycle = .ready then { entry with lifecycle := .draining } else entry

/-- An engine that is asked to resume. -/
def RegisteredEngine.resume (entry : RegisteredEngine) : RegisteredEngine :=
  if entry.lifecycle = .draining then { entry with lifecycle := .ready } else entry

/-- An engine that stops if it has drained. -/
def RegisteredEngine.stopDrained (entry : RegisteredEngine) : RegisteredEngine :=
  if entry.lifecycle = .draining ∧ entry.active.isEmpty then
    { entry with lifecycle := .stopped }
  else entry

/-- Change one engine in place. -/
def updateEngine (entries : Entries) (engineId : EngineInstanceId)
    (change : RegisteredEngine → RegisteredEngine) : Except EngineError Entries :=
  match entries[engineId]? with
  | none => .error (.targetNotFound engineId)
  | some entry => .ok (entries.insert engineId (change entry))

/-- Change every engine in place. -/
def updateAll (entries : Entries) (change : RegisteredEngine → RegisteredEngine) : Entries :=
  entries.map fun _ => change

def beginDrainAll (entries : Entries) : Entries := updateAll entries .beginDrain

def beginDrain (entries : Entries) (engineId : EngineInstanceId) : Except EngineError Entries :=
  updateEngine entries engineId .beginDrain

def resume (entries : Entries) (engineId : EngineInstanceId) : Except EngineError Entries :=
  updateEngine entries engineId .resume

def stopDrained (entries : Entries) : Entries := updateAll entries .stopDrained

def stopDrainedEngine (entries : Entries) (engineId : EngineInstanceId) :
    Except EngineError Entries :=
  updateEngine entries engineId .stopDrained

/-- `EngineRegistry::lifecycle`. -/
def lifecycle (entries : Entries) (engineId : EngineInstanceId) :
    Except EngineError EngineLifecycle :=
  match entries[engineId]? with
  | none => .error (.targetNotFound engineId)
  | some entry => .ok entry.lifecycle

/-- The number of executions active on all engines. -/
def activeExecutions (entries : Entries) : ℕ :=
  (entries.toList.map fun engine => engine.2.active.size).sum

/-- The number of executions active on one engine. -/
def activeExecutionsFor (entries : Entries) (engineId : EngineInstanceId) :
    Except EngineError ℕ :=
  match entries[engineId]? with
  | none => .error (.targetNotFound engineId)
  | some entry => .ok entry.active.size

/-- The tokens of the executions active on an engine, by request id. -/
def RegisteredEngine.tokens (entry : RegisteredEngine) : List ℕ := entry.active.toList.map (·.2)

/-- `EngineRegistry::release_execution`, and whether it notifies the drains. -/
def releaseExecution (entries : Entries) (engineId : EngineInstanceId) (requestId : RequestId) :
    Bool × Entries :=
  match entries[engineId]? with
  | none => (false, entries)
  | some entry =>
    if entry.active.contains requestId then
      let entry := { entry with active := entry.active.erase requestId }
      (true, entries.insert engineId entry.stopDrained)
    else (false, entries)

end Locus.Engine.Registry
