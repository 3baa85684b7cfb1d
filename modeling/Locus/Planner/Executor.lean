import Locus.Engine.Adapter
import Locus.Lib.Dialogue
import Locus.Planner.Plan

/-!
# Execution of a plan

`execute` follows the planned path. A reuse path prepares an import on the engine,
transfers the state into it, commits it and runs with the attachment; when a step
fails, the import is aborted and the fallback of the plan decides what happens next.
Everything outside the executor is the environment of a dialogue.
-/

namespace Locus.Planner

open Locus.Core Locus.Engine Locus.Lib

/-- What the executor asks of its environment. -/
inductive ExecutorCall
  | ensureActive (context : OperationContext)
  | readRegistry
  | now
  | prepareStateImport (target : ExecutionTarget) (spec : StateImportSpec)
      (context : OperationContext)
  | materialize (option : MaterializationOption) (importTarget : StateImportTarget)
      (context : OperationContext)
  | commitStateImport (importTarget : StateImportTarget) (receipt : TransferReceipt)
      (context : OperationContext)
  | abortStateImport (importTarget : StateImportTarget) (context : OperationContext)
  | execute (target : ExecutionTarget) (request : CanonicalRequest)
      (state : Option PreparedStateAttachment) (context : OperationContext)
  deriving DecidableEq

/-- What the environment may answer. Clock readings are in nanoseconds. -/
def ExecutorCall.Answer (EventStream : Type) : ExecutorCall → Type
  | ensureActive _ => Except ContextError Unit
  | readRegistry => EngineRegistry
  | now => ℕ
  | prepareStateImport _ _ _ => RunOutcome (Except EngineError StateImportTarget)
  | materialize _ _ _ => RunOutcome (Except StoreError TransferReceipt)
  | commitStateImport _ _ _ => RunOutcome (Except EngineError PreparedStateAttachment)
  | abortStateImport _ _ => RunOutcome (Except EngineError Unit)
  | execute _ _ _ _ => RunOutcome (Except EngineError EventStream)

inductive ExecutedPath
  | cold
  | reuse
  deriving DecidableEq

/-- How long a transfer took against the store's estimate. -/
structure MaterializationTiming where
  store : String
  stateKind : String
  targetId : String
  storeEstimatedMicros : UInt64
  actualMicros : UInt64
  deriving DecidableEq

structure PlanExecutionMetadata where
  executedPath : ExecutedPath
  fallbackUsed : Bool
  materialization : Option MaterializationTiming
  topologyMicros : Option UInt64
  deriving DecidableEq

/-- A running execution. -/
structure PlanExecution (EventStream : Type) where
  stream : EventStream
  metadata : PlanExecutionMetadata
  deriving DecidableEq

inductive PlanExecutionError
  | context (error : ContextError)
  | engine (error : EngineError)
  | store (error : StoreError)
  | invalidPlan (message : String)
  | plannedPathFailed (cause : String)
  | replanRequired (cause : String)
  | cleanupFailed (cause : String) (cleanup : EngineError)
  deriving DecidableEq

variable {EventStream : Type}

/-- A conversation of the executor with its environment. -/
abbrev ExecutorM (EventStream α : Type) := Dialogue (ExecutorCall.Answer EventStream) α

/-- Ask the environment one question. -/
abbrev ask (question : ExecutorCall) : ExecutorM EventStream (question.Answer EventStream) :=
  Dialogue.call question

abbrev ExecutionResult (EventStream : Type) :=
  Except PlanExecutionError (PlanExecution EventStream)

/-- `elapsed_micros`, from two clock readings. -/
def elapsedMicros (started now : ℕ) : UInt64 :=
  if (now - started) / 1000 < 2 ^ 64 then UInt64.ofNat ((now - started) / 1000) else u64Max

/-- `DefaultPlanExecutor::apply_fallback` -/
def applyFallback (fallback : FallbackAction) (plan : PlacementPlan) (request : CanonicalRequest)
    (context : OperationContext) (cause : String)
    (materialization : Option MaterializationTiming) :
    ExecutorM EventStream (ExecutionResult EventStream) :=
  match fallback with
  | .coldOnSameTarget => do
    let registry : EngineRegistry ← ask .readRegistry
    match registry.adapterFor plan.target with
    | .error error => return .error (.engine error)
    | .ok () =>
      let outcome : RunOutcome (Except EngineError EventStream) ←
        ask (.execute plan.target request none context)
      match outcome.result with
      | .error error => return .error (.context error)
      | .ok (.error error) => return .error (.engine error)
      | .ok (.ok stream) => return .ok ⟨stream, ⟨.cold, true, materialization, none⟩⟩
  | .replan => return .error (.replanRequired cause)
  | .fail => return .error (.plannedPathFailed cause)

/-- Two seconds, in nanoseconds. -/
def cleanupNanos : ℕ := 2000000000

/-- What the three abort helpers share: abort the import under a fresh context and,
if that succeeds, go on. -/
def abortImport (importTarget : StateImportTarget) (plan : PlacementPlan)
    (context : OperationContext) (cause : String)
    (next : ExecutorM EventStream (ExecutionResult EventStream)) :
    ExecutorM EventStream (ExecutionResult EventStream) := do
  let registry : EngineRegistry ← ask .readRegistry
  match registry.adapterFor plan.target with
  | .error error => return .error (.engine error)
  | .ok () =>
    let now : ℕ ← ask .now
    let cleanupContext : OperationContext :=
      { requestId := context.requestId, deadline := some (now + cleanupNanos) }
    let outcome : RunOutcome (Except EngineError Unit) ←
      ask (.abortStateImport importTarget cleanupContext)
    match outcome.result with
    | .ok (.ok ()) => next
    | .ok (.error cleanup) => return .error (.cleanupFailed cause cleanup)
    | .error cleanup => return .error (.cleanupFailed cause (.context cleanup))

/-- `DefaultPlanExecutor::abort_then_fallback` -/
def abortThenFallback (importTarget : StateImportTarget) (plan : PlacementPlan)
    (request : CanonicalRequest) (context : OperationContext) (cause : String)
    (materialization : Option MaterializationTiming) :
    ExecutorM EventStream (ExecutionResult EventStream) :=
  abortImport importTarget plan context cause
    (applyFallback plan.fallback plan request context cause materialization)

/-- `DefaultPlanExecutor::abort_after_context_error` -/
def abortAfterContextError (importTarget : StateImportTarget) (plan : PlacementPlan)
    (context : OperationContext) (error : ContextError) :
    ExecutorM EventStream (ExecutionResult EventStream) :=
  abortImport importTarget plan context (contextErrorText error) (pure (.error (.context error)))

/-- `DefaultPlanExecutor::abort_after_engine_error` -/
def abortAfterEngineError (importTarget : StateImportTarget) (plan : PlacementPlan)
    (context : OperationContext) (error : EngineError) :
    ExecutorM EventStream (ExecutionResult EventStream) :=
  abortImport importTarget plan context error.text (pure (.error (.engine error)))

/-- The last step of a reuse path: run with the attachment. -/
def executeAttached (importTarget : StateImportTarget) (plan : PlacementPlan)
    (request : CanonicalRequest) (context : OperationContext) (activationStarted : ℕ)
    (materialization : MaterializationTiming) (attachment : PreparedStateAttachment) :
    ExecutorM EventStream (ExecutionResult EventStream) := do
  let outcome : RunOutcome (Except EngineError EventStream) ←
    ask (.execute plan.target request (some attachment) context)
  match outcome.result with
  | .ok (.ok stream) =>
    let now : ℕ ← ask .now
    let topologyMicros :=
      saturatingSub (elapsedMicros activationStarted now) materialization.actualMicros
    return .ok ⟨stream, ⟨.reuse, false, some materialization, some topologyMicros⟩⟩
  | .ok (.error (.context error)) => abortAfterContextError importTarget plan context error
  | .ok (.error error) => abortAfterEngineError importTarget plan context error
  | .error error => abortAfterContextError importTarget plan context error

/-- The step before it: commit the transferred state. -/
def commitImport (importTarget : StateImportTarget) (plan : PlacementPlan)
    (request : CanonicalRequest) (context : OperationContext) (activationStarted : ℕ)
    (materialization : MaterializationTiming) (receipt : TransferReceipt) :
    ExecutorM EventStream (ExecutionResult EventStream) := do
  let outcome : RunOutcome (Except EngineError PreparedStateAttachment) ←
    ask (.commitStateImport importTarget receipt context)
  match outcome.result with
  | .ok (.ok attachment) =>
    executeAttached importTarget plan request context activationStarted materialization attachment
  | .ok (.error (.context error)) => abortAfterContextError importTarget plan context error
  | .ok (.error error) =>
    abortThenFallback importTarget plan request context error.text (some materialization)
  | .error error => abortAfterContextError importTarget plan context error

/-- What follows once an import is obtained: transfer the state into it. -/
def materializeImport (importTarget : StateImportTarget) (reuse : StateReusePlan)
    (plan : PlacementPlan) (request : CanonicalRequest) (context : OperationContext)
    (activationStarted : ℕ) : ExecutorM EventStream (ExecutionResult EventStream) := do
  let materializationStarted : ℕ ← ask .now
  let outcome : RunOutcome (Except StoreError TransferReceipt) ←
    ask (.materialize reuse.option importTarget context)
  match outcome.result with
  | .ok (.ok receipt) =>
    let now : ℕ ← ask .now
    let materialization : MaterializationTiming := {
      store := reuse.option.store, stateKind := reuse.option.stateKind
      targetId := plan.target.id, storeEstimatedMicros := reuse.option.estimatedTransferMicros
      actualMicros := elapsedMicros materializationStarted now }
    commitImport importTarget plan request context activationStarted materialization receipt
  | .ok (.error (.context error)) => abortAfterContextError importTarget plan context error
  | .ok (.error error) => abortThenFallback importTarget plan request context error.text none
  | .error error => abortAfterContextError importTarget plan context error

/-- A reuse path from its first step: prepare an import. -/
def prepareImport (reuse : StateReusePlan) (plan : PlacementPlan) (request : CanonicalRequest)
    (context : OperationContext) : ExecutorM EventStream (ExecutionResult EventStream) := do
  let spec := StateImportSpec.fromPlan reuse.state reuse.compatibility
  let activationStarted : ℕ ← ask .now
  let outcome : RunOutcome (Except EngineError StateImportTarget) ←
    ask (.prepareStateImport plan.target spec context)
  match outcome.result with
  | .ok (.ok importTarget) =>
    materializeImport importTarget reuse plan request context activationStarted
  | .ok (.error (.context error)) => return .error (.context error)
  | .ok (.error error) => applyFallback plan.fallback plan request context error.text none
  | .error error => return .error (.context error)

/-- A cold path. -/
def executeCold (plan : PlacementPlan) (request : CanonicalRequest) (context : OperationContext) :
    ExecutorM EventStream (ExecutionResult EventStream) := do
  let outcome : RunOutcome (Except EngineError EventStream) ←
    ask (.execute plan.target request none context)
  match outcome.result with
  | .error error => return .error (.context error)
  | .ok (.error error) => return .error (.engine error)
  | .ok (.ok stream) => return .ok ⟨stream, ⟨.cold, false, none, none⟩⟩

/-- `DefaultPlanExecutor::execute` -/
def execute (plan : PlacementPlan) (request : CanonicalRequest) (context : OperationContext) :
    ExecutorM EventStream (ExecutionResult EventStream) := do
  let active : Except ContextError Unit ← ask (.ensureActive context)
  match active with
  | .error error => return .error (.context error)
  | .ok () =>
    if request.model ≠ plan.target.model then
      return .error (.invalidPlan "request model does not match the selected execution target")
    else
      let registry : EngineRegistry ← ask .readRegistry
      match registry.adapterFor plan.target with
      | .error error => return .error (.engine error)
      | .ok () =>
        match plan.path with
        | .cold => executeCold plan request context
        | .reuse reuse => prepareImport reuse plan request context

end Locus.Planner
