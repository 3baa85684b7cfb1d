import Locus.Core.Execution
import Std.Data.TreeMap

/-!
# Engine adapters and stores

The errors of engines and stores with their texts, the operation contexts under which
their operations run, and the lookup of an adapter by target.
-/

namespace Locus.Engine

open Std (TreeMap)
open Locus.Core

/-- The text of a context error. -/
def contextErrorText : ContextError → String
  | .cancelled => "operation was cancelled"
  | .deadlineExceeded => "operation deadline exceeded"

/-- How an engine operation fails. -/
inductive EngineError
  | context (error : ContextError)
  | targetNotFound (target : String)
  | registry (message : String)
  | staleGeneration
  | draining
  | stopped
  | unsupported (message : String)
  | stateImport (message : String)
  | execution (message : String)
  deriving DecidableEq

/-- The text of an engine error. -/
def EngineError.text : EngineError → String
  | context error => contextErrorText error
  | targetNotFound target => "execution target was not found: " ++ target
  | registry message => "engine registry failed: " ++ message
  | staleGeneration => "engine generation is stale"
  | draining => "engine is draining and accepts no new execution"
  | stopped => "engine is stopped"
  | unsupported message => "engine capability is unsupported: " ++ message
  | stateImport message => "state import failed: " ++ message
  | execution message => "engine execution failed: " ++ message

/-- How a store operation fails. -/
inductive StoreError
  | context (error : ContextError)
  | unavailable (message : String)
  | unsupported (message : String)
  | incompatible (message : String)
  | protocol (message : String)
  | materialization (message : String)
  deriving DecidableEq

/-- The text of a store error. -/
def StoreError.text : StoreError → String
  | context error => contextErrorText error
  | unavailable message => "state store is unavailable: " ++ message
  | unsupported message => "state operation is unsupported: " ++ message
  | incompatible message => "state compatibility failed: " ++ message
  | protocol message => "state store protocol failed: " ++ message
  | materialization message => "state materialization failed: " ++ message

/-- The identity and the authenticated tenant of an operation, and its deadline in
nanoseconds. Its cancellation is seen only in the outcomes of what runs under it. -/
structure OperationContext where
  requestId : RequestId
  tenantId : Option String := none
  deadline : Option ℕ := none
  deriving DecidableEq

/-- What became of a future under `OperationContext::run`: it was never polled because
the context had already ended, the context ended while it was pending, or it finished. -/
inductive RunOutcome (α : Type)
  | notStarted (error : ContextError)
  | interrupted (error : ContextError)
  | finished (value : α)
  deriving DecidableEq

/-- The value of `OperationContext::run`. -/
def RunOutcome.result {α : Type} : RunOutcome α → Except ContextError α
  | notStarted error => .error error
  | interrupted error => .error error
  | finished value => .ok value

/-- The future was polled, so the operation has begun. -/
def RunOutcome.started {α : Type} : RunOutcome α → Bool
  | notStarted _ => false
  | interrupted _ => true
  | finished _ => true

/-- The registry as a lookup finds it: the instance that each registered adapter
reports at that moment, or a poisoned lock. -/
structure EngineRegistry where
  poisoned : Bool := false
  entries : TreeMap EngineInstanceId EngineInstanceRef

/-- `EngineRegistry::adapter_for`. Engines are registered once, so the adapter is known
by the target's engine id. -/
def EngineRegistry.adapterFor (registry : EngineRegistry) (target : ExecutionTarget) :
    Except EngineError Unit :=
  if registry.poisoned then .error (.registry "engine registry lock poisoned")
  else
    match registry.entries[target.engine.id]? with
    | none => .error (.targetNotFound target.id)
    | some reference =>
      if reference.generation ≠ target.engine.generation then .error .staleGeneration
      else .ok ()

end Locus.Engine
