import Locus.Lib.Histories
import Locus.Planner.ImportTrace

/-!
# What may follow an exchange of the executor

The exchanges of a run are classified by what was asked for and how it failed. `Conforms`
says what may come after an exchange, and `Follows` collects what is shown of a run. Both
are built from the end of a run to its beginning.
-/

namespace Locus.Planner

open Locus.Core Locus.Engine Locus.Lib

variable {EventStream : Type}

/-- The execution that an exchange asked for. -/
def execution? : ExecutorExchange EventStream →
    Option (ExecutionTarget × CanonicalRequest × Option PreparedStateAttachment)
  | ⟨.execute target request state _, _⟩ => some (target, request, state)
  | _ => none

/-- An operation failed because the context had ended. -/
def endedEngine {α : Type} (outcome : RunOutcome (Except EngineError α)) : Bool :=
  match outcome.result with
  | .error _ => true
  | .ok (.error (.context _)) => true
  | _ => false

/-- A store operation failed because the context had ended. -/
def endedStore {α : Type} (outcome : RunOutcome (Except StoreError α)) : Bool :=
  match outcome.result with
  | .error _ => true
  | .ok (.error (.context _)) => true
  | _ => false

/-- The exchange ended with a context error. -/
def contextFailed : ExecutorExchange EventStream → Bool
  | ⟨.ensureActive _, .error _⟩ => true
  | ⟨.prepareStateImport _ _ _, outcome⟩ => endedEngine outcome
  | ⟨.materialize _ _ _, outcome⟩ => endedStore outcome
  | ⟨.commitStateImport _ _ _, outcome⟩ => endedEngine outcome
  | ⟨.abortStateImport _ _, outcome⟩ => endedEngine outcome
  | ⟨.execute _ _ _ _, outcome⟩ => endedEngine outcome
  | _ => false

/-- The text of an engine error other than a context error. -/
def engineFailure? {α : Type} (outcome : RunOutcome (Except EngineError α)) : Option String :=
  match outcome.result with
  | .ok (.error (.context _)) => none
  | .ok (.error error) => some error.text
  | _ => none

/-- The text of a store error other than a context error. -/
def storeFailure? {α : Type} (outcome : RunOutcome (Except StoreError α)) : Option String :=
  match outcome.result with
  | .ok (.error (.context _)) => none
  | .ok (.error error) => some error.text
  | _ => none

/-- Why no import was prepared. -/
def prepareFailure? : ExecutorExchange EventStream → Option String
  | ⟨.prepareStateImport _ _ _, outcome⟩ => engineFailure? outcome
  | _ => none

/-- The import that could not be filled or committed, and why. -/
def importFailure? : ExecutorExchange EventStream → Option (StateImportTarget × String)
  | ⟨.materialize _ importTarget _, outcome⟩ =>
    (storeFailure? outcome).map fun cause => (importTarget, cause)
  | ⟨.commitStateImport importTarget _ _, outcome⟩ =>
    (engineFailure? outcome).map fun cause => (importTarget, cause)
  | _ => none

/-- How a cleanup failed. -/
def cleanupFailure? : ExecutorExchange EventStream → Option EngineError
  | ⟨.abortStateImport _ _, outcome⟩ =>
    match RunOutcome.result outcome with
    | .ok (.ok _) => none
    | .ok (.error cleanup) => some cleanup
    | .error cleanup => some (.context cleanup)
  | _ => none

/-- The exchange asked for an execution and got none. -/
def executionFailed : ExecutorExchange EventStream → Bool
  | ⟨.execute _ _ _ _, outcome⟩ =>
    match RunOutcome.result outcome with
    | .ok (.ok _) => false
    | _ => true
  | _ => false

/-- The exchange asked for an execution with an attachment. -/
def attaches : ExecutorExchange EventStream → Bool
  | ⟨.execute _ _ (some _) _, _⟩ => true
  | _ => false

/-- The exchange transferred the state. -/
def transfers : ExecutorExchange EventStream → Bool
  | ⟨.materialize _ _ _, .finished (.ok _)⟩ => true
  | _ => false

/-- An error that no fallback returns. -/
def PlanExecutionError.direct : PlanExecutionError → Bool
  | context _ | engine _ | cleanupFailed _ _ => true
  | _ => false

/-- No execution is asked for. -/
def NoExecution (exchanges : List (ExecutorExchange EventStream)) : Prop :=
  ∀ exchange ∈ exchanges, execution? exchange = none

/-- What an execution without a state gives as a fallback. -/
def fallbackResult (materialization : Option MaterializationTiming)
    (outcome : RunOutcome (Except EngineError EventStream)) : ExecutionResult EventStream :=
  match outcome.result with
  | .error error => .error (.context error)
  | .ok (.error error) => .error (.engine error)
  | .ok (.ok stream) => .ok ⟨stream, ⟨.cold, true, materialization, none⟩⟩

/-- The exchanges and the result that the plan's fallback encodes. The execution is not
started if the context has ended. -/
inductive FallsBack (plan : PlacementPlan) (request : CanonicalRequest)
    (context : OperationContext) (cause : String)
    (materialization : Option MaterializationTiming) :
    List (ExecutorExchange EventStream) → ExecutionResult EventStream → Prop
  | cold (encoded : plan.fallback = .coldOnSameTarget) (registry : EngineRegistry)
      (outcome : RunOutcome (Except EngineError EventStream)) :
      FallsBack plan request context cause materialization
        [⟨.readRegistry, registry⟩, ⟨.execute plan.target request none context, outcome⟩]
        (fallbackResult materialization outcome)
  | replan (encoded : plan.fallback = .replan) :
      FallsBack plan request context cause materialization [] (.error (.replanRequired cause))
  | fail (encoded : plan.fallback = .fail) :
      FallsBack plan request context cause materialization [] (.error (.plannedPathFailed cause))

/-- The import is aborted, and if that succeeds the fallback follows. -/
def CleansUpFirst (plan : PlacementPlan) (request : CanonicalRequest)
    (context : OperationContext) (importTarget : StateImportTarget) (cause : String)
    (exchanges : List (ExecutorExchange EventStream)) (result : ExecutionResult EventStream) :
    Prop :=
  ∃ registry now cleanupContext outcome rest,
    exchanges = ⟨.readRegistry, registry⟩ :: ⟨.now, now⟩ ::
      ⟨.abortStateImport importTarget cleanupContext, outcome⟩ :: rest ∧
    (RunOutcome.result outcome = .ok (.ok ()) → ∃ materialization,
      FallsBack plan request context cause materialization rest result)

/-- What may follow an exchange of a run. -/
structure Conforms (plan : PlacementPlan) (request : CanonicalRequest)
    (context : OperationContext) (result : ExecutionResult EventStream)
    (exchange : ExecutorExchange EventStream) (after : List (ExecutorExchange EventStream)) :
    Prop where
  /-- After an execution there is no other. -/
  once : (execution? exchange).isSome → NoExecution after
  /-- After a context error there is no execution. -/
  context_failed : contextFailed exchange → NoExecution after
  /-- After a failed cleanup there is nothing. -/
  cleanup_failed : ∀ cleanup, cleanupFailure? exchange = some cleanup →
    after = [] ∧ ∃ cause, result = .error (.cleanupFailed cause cleanup)
  /-- Without an import the fallback follows at once. -/
  prepare_failed : ∀ cause, prepareFailure? exchange = some cause →
    ∃ materialization, FallsBack plan request context cause materialization after result
  /-- With an import the cleanup comes first. -/
  import_failed : ∀ importTarget cause, importFailure? exchange = some (importTarget, cause) →
    CleansUpFirst plan request context importTarget cause after result
  /-- An execution that fails ends the run with its own error. -/
  execution_failed : executionFailed exchange →
    ∃ error : PlanExecutionError, result = .error error ∧ error.direct = true

/-- The attachment was committed for the import prepared on the plan's target, with the
receipt of the transfer into it. -/
def Committed (plan : PlacementPlan) (context : OperationContext)
    (attachment : PreparedStateAttachment) (history : List (ExecutorExchange EventStream)) :
    Prop :=
  ∃ spec option importTarget receipt,
    [⟨.prepareStateImport plan.target spec context, .finished (.ok importTarget)⟩,
      ⟨.materialize option importTarget context, .finished (.ok receipt)⟩,
      ⟨.commitStateImport importTarget receipt context, .finished (.ok attachment)⟩].Sublist
      history

/-- An attachment that is passed was committed before. -/
def AttachmentCommitted (plan : PlacementPlan) (context : OperationContext)
    (before : List (ExecutorExchange EventStream)) (exchange : ExecutorExchange EventStream) :
    Prop :=
  ∀ target request attachment, execution? exchange = some (target, request, some attachment) →
    Committed plan context attachment before

/-- An execution is only for the request and on the target of the plan. -/
def OnTarget (plan : PlacementPlan) (request : CanonicalRequest)
    (exchange : ExecutorExchange EventStream) : Prop :=
  ∀ target request' state, execution? exchange = some (target, request', state) →
    target = plan.target ∧ request' = request

/-- The metadata of a run say whether the attachment was used, whether a reuse was planned
but not used, and whether the state was transferred, here or before. -/
def Reports (planned transferred : Bool) (exchanges : List (ExecutorExchange EventStream))
    (result : ExecutionResult EventStream) : Prop :=
  ∀ execution, result = .ok execution →
    execution.metadata.executedPath = (if exchanges.any attaches then .reuse else .cold) ∧
    execution.metadata.fallbackUsed = (planned && !exchanges.any attaches) ∧
    execution.metadata.materialization.isSome = (transferred || exchanges.any transfers) ∧
    execution.metadata.topologyMicros.isSome = exchanges.any attaches

/-- What is shown of the steps of a run: `history` is what was exchanged before. -/
structure Follows (plan : PlacementPlan) (request : CanonicalRequest)
    (context : OperationContext) (history : List (ExecutorExchange EventStream))
    (planned transferred : Bool) (exchanges : List (ExecutorExchange EventStream))
    (result : ExecutionResult EventStream) : Prop where
  onTarget : ∀ exchange ∈ exchanges, OnTarget plan request exchange
  attachments : Throughout (fun before => AttachmentCommitted plan context (history ++ before))
    exchanges
  conforms : Onwards (Conforms plan request context result) exchanges
  reports : Reports planned transferred exchanges result

/-- Every registry that is read resolves the target of the plan. -/
def Resolves (plan : PlacementPlan) (exchanges : List (ExecutorExchange EventStream)) : Prop :=
  ∀ registry, ⟨.readRegistry, registry⟩ ∈ exchanges → registry.adapterFor plan.target = .ok ()

section Follows

variable {plan : PlacementPlan} {request : CanonicalRequest} {context : OperationContext}
  {history exchanges : List (ExecutorExchange EventStream)} {planned transferred : Bool}
  {exchange : ExecutorExchange EventStream} {result : ExecutionResult EventStream}

theorem Resolves.tail (h : Resolves plan (exchange :: exchanges)) : Resolves plan exchanges :=
  fun registry hmem => h registry (List.mem_cons_of_mem _ hmem)

theorem Resolves.head {registry : EngineRegistry}
    (h : Resolves plan (⟨.readRegistry, registry⟩ :: exchanges)) :
    registry.adapterFor plan.target = .ok () :=
  h registry List.mem_cons_self

theorem noExecution_nil : NoExecution ([] : List (ExecutorExchange EventStream)) :=
  List.forall_mem_nil _

theorem noExecution_cons :
    NoExecution (exchange :: exchanges) ↔ execution? exchange = none ∧ NoExecution exchanges :=
  List.forall_mem_cons

/-- A run that returns an error reports nothing. -/
theorem reports_error (error : PlanExecutionError) :
    Reports planned transferred exchanges (.error error) := by
  rintro execution ⟨⟩

theorem attaches_eq_false (h : execution? exchange = none) : attaches exchange = false := by
  obtain ⟨question, answer⟩ := exchange
  cases question with
  | execute => cases h
  | _ => rfl

/-- Nothing more is exchanged. -/
theorem Follows.nil_error (error : PlanExecutionError) :
    Follows plan request context history planned transferred [] (.error error) :=
  ⟨by simp, throughout_nil, onwards_nil, reports_error error⟩

/-- One more exchange before, which asks for no execution. -/
theorem Follows.cons (hexecution : execution? exchange = none)
    (hconforms : Conforms plan request context result exchange exchanges)
    (h : Follows plan request context (history ++ [exchange]) planned
      (transferred || transfers exchange) exchanges result) :
    Follows plan request context history planned transferred (exchange :: exchanges) result where
  onTarget := by
    refine List.forall_mem_cons.mpr ⟨?_, h.onTarget⟩
    intro target request' state hstate
    rw [hexecution] at hstate
    cases hstate
  attachments := by
    refine throughout_cons.mpr ⟨?_, ?_⟩
    · intro target request' attachment hattachment
      rw [hexecution] at hattachment
      cases hattachment
    · simpa using h.attachments
  conforms := onwards_cons.mpr ⟨hconforms, h.conforms⟩
  reports := by
    intro execution hok
    rw [List.any_cons, List.any_cons, attaches_eq_false hexecution, Bool.false_or,
      ← Bool.or_assoc]
    exact h.reports execution hok

/-- Without an execution nothing is passed anywhere. -/
theorem NoExecution.onTarget (h : NoExecution exchanges) :
    ∀ exchange ∈ exchanges, OnTarget plan request exchange := by
  intro exchange hmem target request' state hstate
  rw [h exchange hmem] at hstate
  cases hstate

theorem NoExecution.attachments (h : NoExecution exchanges) :
    Throughout (fun before => AttachmentCommitted plan context (history ++ before)) exchanges := by
  rintro before exchange after rfl target request' attachment hattachment
  rw [h exchange (by simp)] at hattachment
  cases hattachment

/-- An execution that no other follows. -/
theorem Follows.execution {state : Option PreparedStateAttachment}
    {outcome : RunOutcome (Except EngineError EventStream)}
    (hattached : AttachmentCommitted plan context history
      ⟨.execute plan.target request state context, outcome⟩)
    (hconforms : Conforms plan request context result
      ⟨.execute plan.target request state context, outcome⟩ exchanges)
    (hreports : Reports planned transferred
      (⟨.execute plan.target request state context, outcome⟩ :: exchanges) result)
    (hafter : NoExecution exchanges)
    (honwards : Onwards (Conforms plan request context result) exchanges) :
    Follows plan request context history planned transferred
      (⟨.execute plan.target request state context, outcome⟩ :: exchanges) result where
  onTarget := by
    refine List.forall_mem_cons.mpr ⟨?_, hafter.onTarget⟩
    rintro target request' state' ⟨⟩
    exact ⟨rfl, rfl⟩
  attachments := by
    refine throughout_cons.mpr ⟨by simpa using hattached, ?_⟩
    have hrest : Throughout (fun before => AttachmentCommitted plan context
        (history ++ [⟨.execute plan.target request state context, outcome⟩] ++ before))
        exchanges := hafter.attachments
    simpa using hrest
  conforms := onwards_cons.mpr ⟨hconforms, honwards⟩
  reports := hreports

end Follows

section Conforms

variable {plan : PlacementPlan} {request : CanonicalRequest} {context : OperationContext}
  {exchanges : List (ExecutorExchange EventStream)} {result : ExecutionResult EventStream}

/-- An exchange that asks for no execution and reports no failure but a context error. -/
theorem Conforms.of_silent {exchange : ExecutorExchange EventStream}
    (hexecution : execution? exchange = none) (hcleanup : cleanupFailure? exchange = none)
    (hprepare : prepareFailure? exchange = none) (himport : importFailure? exchange = none)
    (hcontext : contextFailed exchange → NoExecution exchanges) :
    Conforms plan request context result exchange exchanges where
  once := by simp [hexecution]
  context_failed := hcontext
  cleanup_failed := by simp [hcleanup]
  prepare_failed := by simp [hprepare]
  import_failed := by simp [himport]
  execution_failed := by
    obtain ⟨question, answer⟩ := exchange
    cases question with
    | execute => cases hexecution
    | _ => simp [executionFailed]

theorem conforms_readRegistry (registry : EngineRegistry) :
    Conforms plan request context result ⟨.readRegistry, registry⟩ exchanges :=
  .of_silent rfl rfl rfl rfl (by simp [contextFailed])

theorem conforms_now (now : ℕ) :
    Conforms plan request context result ⟨.now, now⟩ exchanges :=
  .of_silent rfl rfl rfl rfl (by simp [contextFailed])

/-- An execution that no other follows, and whose failure ends the run. -/
theorem conforms_execute {state : Option PreparedStateAttachment}
    {outcome : RunOutcome (Except EngineError EventStream)} (hafter : NoExecution exchanges)
    (hfailed : (∀ stream, outcome.result ≠ .ok (.ok stream)) →
      ∃ error : PlanExecutionError, result = .error error ∧ error.direct = true) :
    Conforms plan request context result ⟨.execute plan.target request state context, outcome⟩
      exchanges where
  once _ := hafter
  context_failed _ := hafter
  cleanup_failed := by simp [cleanupFailure?]
  prepare_failed := by simp [prepareFailure?]
  import_failed := by simp [importFailure?]
  execution_failed := by
    intro h
    refine hfailed fun stream hok => ?_
    simp [executionFailed, hok] at h

/-- A fallback conforms, and reports that it was used. -/
theorem FallsBack.follows {history : List (ExecutorExchange EventStream)} {cause : String}
    {materialization : Option MaterializationTiming}
    (h : FallsBack plan request context cause materialization exchanges result) :
    Follows plan request context history true materialization.isSome exchanges result := by
  cases h with
  | replan => exact .nil_error _
  | fail => exact .nil_error _
  | cold _ registry outcome =>
    refine .cons rfl (conforms_readRegistry registry) (.execution ?_ ?_ ?_ ?_ ?_)
    · rintro target request' attachment ⟨⟩
    · refine conforms_execute noExecution_nil fun hfailed => ?_
      unfold fallbackResult
      split
      · exact ⟨_, rfl, rfl⟩
      · exact ⟨_, rfl, rfl⟩
      next stream hok => exact absurd hok (hfailed stream)
    · intro execution hok
      unfold fallbackResult at hok
      split at hok <;> cases hok
      simp [attaches, transfers]
    · exact noExecution_nil
    · exact onwards_nil

end Conforms

end Locus.Planner
