import Locus.Planner.Conformance
import Locus.Planner.ImportCleanup

/-!
# The protocol of the executor

Under a registry that resolves the target, every run of `execute` asks for at most one
execution, passes only the attachment that it committed itself, falls back as the plan
encodes when a step before the execution fails, and gives up when its context has ended
or a cleanup has failed. Its metadata say what was run.
-/

namespace Locus.Planner

open Locus.Core Locus.Engine Locus.Lib

variable {EventStream : Type}

section Steps

variable {plan : PlacementPlan} {request : CanonicalRequest} {context : OperationContext}
  {importTarget : StateImportTarget} {history exchanges : List (ExecutorExchange EventStream)}
  {planned transferred : Bool} {result : ExecutionResult EventStream}

/-- A fallback does what the plan encodes. -/
theorem fallsBack_applyFallback {cause : String} {materialization : Option MaterializationTiming}
    (h : (applyFallback plan.fallback plan request context cause materialization).Runs
      exchanges result)
    (hresolves : Resolves plan exchanges) :
    FallsBack plan request context cause materialization exchanges result := by
  cases hfallback : plan.fallback <;> rw [hfallback] at h
  case replan =>
    obtain ⟨rfl, rfl⟩ := Dialogue.runs_pure.mp h
    exact .replan hfallback
  case fail =>
    obtain ⟨rfl, rfl⟩ := Dialogue.runs_pure.mp h
    exact .fail hfallback
  case coldOnSameTarget =>
    obtain ⟨registry, rest, rfl, hrest⟩ := Dialogue.runs_call_bind.mp h
    rw [hresolves.head] at hrest
    obtain ⟨outcome, rest, rfl, hthen⟩ := Dialogue.runs_call_bind.mp hrest
    have hlast : rest = [] ∧ result = fallbackResult materialization outcome := by
      split at hthen
      all_goals
        obtain ⟨hnil, rfl⟩ := Dialogue.runs_pure.mp hthen
        exact ⟨hnil, by simp [fallbackResult, *]⟩
    obtain ⟨rfl, rfl⟩ := hlast
    exact .cold hfallback registry outcome

/-- What an abort helper exchanges before it goes on or gives up. -/
inductive Aborts (importTarget : StateImportTarget) (cause : String)
    (next : ExecutorM EventStream (ExecutionResult EventStream)) :
    List (ExecutorExchange EventStream) → ExecutionResult EventStream → Prop
  | done {rest : List (ExecutorExchange EventStream)} {result : ExecutionResult EventStream}
      (registry : EngineRegistry) (now : ℕ) (cleanupContext : OperationContext)
      (outcome : RunOutcome (Except EngineError Unit)) (ok : outcome.result = .ok (.ok ()))
      (runs : next.Runs rest result) :
      Aborts importTarget cause next
        (⟨.readRegistry, registry⟩ :: ⟨.now, now⟩ ::
          ⟨.abortStateImport importTarget cleanupContext, outcome⟩ :: rest) result
  | failed (registry : EngineRegistry) (now : ℕ) (cleanupContext : OperationContext)
      (outcome : RunOutcome (Except EngineError Unit)) (cleanup : EngineError)
      (failed : ∀ ok, outcome.result ≠ .ok (.ok ok))
      (reported : cleanupFailure? (⟨.abortStateImport importTarget cleanupContext, outcome⟩ :
        ExecutorExchange EventStream) = some cleanup) :
      Aborts importTarget cause next
        [⟨.readRegistry, registry⟩, ⟨.now, now⟩,
          ⟨.abortStateImport importTarget cleanupContext, outcome⟩]
        (.error (.cleanupFailed cause cleanup))

theorem aborts_abortImport {cause : String}
    {next : ExecutorM EventStream (ExecutionResult EventStream)}
    (h : (abortImport importTarget plan context cause next).Runs exchanges result)
    (hresolves : Resolves plan exchanges) : Aborts importTarget cause next exchanges result := by
  obtain ⟨registry, rest, rfl, hrest⟩ := Dialogue.runs_call_bind.mp h
  rw [hresolves.head] at hrest
  obtain ⟨now, rest, rfl, hthen⟩ := Dialogue.runs_call_bind.mp hrest
  obtain ⟨outcome, rest, rfl, hlast⟩ := Dialogue.runs_call_bind.mp hthen
  split at hlast
  next hok => exact .done registry now _ outcome hok hlast
  next cleanup herror =>
    obtain ⟨rfl, rfl⟩ := Dialogue.runs_pure.mp hlast
    refine .failed registry now _ outcome cleanup (fun _ hok => ?_) ?_
    · rw [herror] at hok
      cases hok
    · simp [cleanupFailure?, herror]
  next cleanup herror =>
    obtain ⟨rfl, rfl⟩ := Dialogue.runs_pure.mp hlast
    refine .failed registry now _ outcome (.context cleanup) (fun _ hok => ?_) ?_
    · rw [herror] at hok
      cases hok
    · simp [cleanupFailure?, herror]

/-- An abort that succeeds lets the run go on. -/
theorem conforms_abort_done {cleanupContext : OperationContext}
    {outcome : RunOutcome (Except EngineError Unit)} (hok : outcome.result = .ok (.ok ())) :
    Conforms plan request context result ⟨.abortStateImport importTarget cleanupContext, outcome⟩
      exchanges :=
  .of_silent rfl (by simp [cleanupFailure?, hok]) rfl rfl
    (by simp [contextFailed, endedEngine, hok])

/-- An abort that fails ends the run. -/
theorem conforms_abort_failed {cleanupContext : OperationContext} {cause : String}
    {outcome : RunOutcome (Except EngineError Unit)} {cleanup : EngineError}
    (hcleanup : cleanupFailure? (⟨.abortStateImport importTarget cleanupContext, outcome⟩ :
      ExecutorExchange EventStream) = some cleanup) :
    Conforms plan request context (.error (.cleanupFailed cause cleanup))
      (⟨.abortStateImport importTarget cleanupContext, outcome⟩ : ExecutorExchange EventStream)
      [] where
  once := by simp [execution?]
  context_failed := fun _ => noExecution_nil
  cleanup_failed := by
    intro cleanup' hcleanup'
    obtain rfl := Option.some.inj (hcleanup.symm.trans hcleanup')
    exact ⟨rfl, cause, rfl⟩
  prepare_failed := by simp [prepareFailure?]
  import_failed := by simp [importFailure?]
  execution_failed := by simp [executionFailed]

/-- An abort helper conforms if what it goes on with does. -/
theorem Aborts.follows {cause : String}
    {next : ExecutorM EventStream (ExecutionResult EventStream)}
    (h : Aborts importTarget cause next exchanges result) (hresolves : Resolves plan exchanges)
    (hnext : ∀ history rest result, next.Runs rest result → Resolves plan rest →
      Follows plan request context history planned transferred rest result) :
    Follows plan request context history planned transferred exchanges result := by
  cases h with
  | done registry now cleanupContext outcome ok runs =>
    refine .cons rfl (conforms_readRegistry registry) (.cons rfl (conforms_now now) ?_)
    refine .cons rfl (conforms_abort_done ok) ?_
    have hrest := hnext (history ++ [⟨.readRegistry, registry⟩] ++ [⟨.now, now⟩] ++
      [⟨.abortStateImport importTarget cleanupContext, outcome⟩]) _ _ runs hresolves.tail.tail.tail
    simpa [transfers] using hrest
  | failed registry now cleanupContext outcome cleanup failed reported =>
    refine .cons rfl (conforms_readRegistry registry) (.cons rfl (conforms_now now) ?_)
    exact .cons rfl (conforms_abort_failed reported) (.nil_error _)

/-- An abort helper that goes on with an error asks for no execution. -/
theorem Aborts.ends {cause : String} {error : PlanExecutionError}
    (h : Aborts importTarget cause (pure (.error error)) exchanges result)
    (hdirect : error.direct = true) :
    NoExecution exchanges ∧
      ∃ error : PlanExecutionError, result = .error error ∧ error.direct = true := by
  have hnone : ∀ (registry : EngineRegistry) (now : ℕ) (cleanupContext : OperationContext)
      (outcome : RunOutcome (Except EngineError Unit)),
      NoExecution ([⟨.readRegistry, registry⟩, ⟨.now, now⟩,
        ⟨.abortStateImport importTarget cleanupContext, outcome⟩] :
          List (ExecutorExchange EventStream)) := by
    intro registry now cleanupContext outcome
    exact noExecution_cons.mpr ⟨rfl, noExecution_cons.mpr ⟨rfl,
      noExecution_cons.mpr ⟨rfl, noExecution_nil⟩⟩⟩
  cases h with
  | done registry now cleanupContext outcome ok runs =>
    obtain ⟨rfl, rfl⟩ := Dialogue.runs_pure.mp runs
    exact ⟨hnone _ _ _ _, error, rfl, hdirect⟩
  | failed registry now cleanupContext outcome cleanup failed reported =>
    exact ⟨hnone _ _ _ _, _, rfl, rfl⟩

/-- A run that ends after an abort. -/
structure EndsAborted (plan : PlacementPlan) (request : CanonicalRequest)
    (context : OperationContext) (exchanges : List (ExecutorExchange EventStream))
    (result : ExecutionResult EventStream) : Prop where
  noExecution : NoExecution exchanges
  error : ∃ error : PlanExecutionError, result = .error error ∧ error.direct = true
  follows : ∀ history planned transferred,
    Follows plan request context history planned transferred exchanges result

theorem endsAborted_abortImport {cause : String} {error : PlanExecutionError}
    (hdirect : error.direct = true)
    (h : (abortImport importTarget plan context cause (pure (.error error))).Runs exchanges
      result) (hresolves : Resolves plan exchanges) :
    EndsAborted plan request context exchanges result := by
  have haborts := aborts_abortImport h hresolves
  obtain ⟨hnone, herror⟩ := haborts.ends hdirect
  refine ⟨hnone, herror, fun history planned transferred => haborts.follows hresolves ?_⟩
  intro history rest result hruns _
  obtain ⟨rfl, rfl⟩ := Dialogue.runs_pure.mp hruns
  exact .nil_error error

/-- An abort that is followed by the fallback. -/
theorem abortThenFallback_spec {cause : String} {materialization : Option MaterializationTiming}
    (h : (abortThenFallback importTarget plan request context cause materialization).Runs
      exchanges result) (hresolves : Resolves plan exchanges) :
    CleansUpFirst plan request context importTarget cause exchanges result ∧
      Follows plan request context history true materialization.isSome exchanges result := by
  have haborts := aborts_abortImport h hresolves
  constructor
  · cases haborts with
    | done registry now cleanupContext outcome ok runs =>
      refine ⟨registry, now, cleanupContext, outcome, _, rfl, fun _ => ⟨materialization, ?_⟩⟩
      exact fallsBack_applyFallback runs hresolves.tail.tail.tail
    | failed registry now cleanupContext outcome cleanup failed reported =>
      exact ⟨registry, now, cleanupContext, outcome, [], rfl, fun hok => absurd hok (failed ())⟩
  · refine haborts.follows hresolves fun history rest result hruns hrest => ?_
    exact (fallsBack_applyFallback hruns hrest).follows

/-- The last step runs with the attachment, or aborts without a fallback. -/
theorem follows_executeAttached {activationStarted : ℕ} {materialization : MaterializationTiming}
    {attachment : PreparedStateAttachment} (hcommitted : Committed plan context attachment history)
    (h : (executeAttached importTarget plan request context activationStarted materialization
      attachment).Runs exchanges result) (hresolves : Resolves plan exchanges) :
    Follows plan request context history true true exchanges result := by
  obtain ⟨outcome, rest, rfl, hrest⟩ := Dialogue.runs_call_bind.mp h
  have hattached : AttachmentCommitted plan context history
      ⟨.execute plan.target request (some attachment) context, outcome⟩ := by
    rintro target request' attachment' ⟨⟩
    exact hcommitted
  have haborted : EndsAborted plan request context rest result →
      Follows plan request context history true true
        (⟨.execute plan.target request (some attachment) context, outcome⟩ :: rest) result := by
    rintro ⟨hnone, ⟨error, rfl, hdirect⟩, hfollows⟩
    exact .execution hattached (conforms_execute hnone fun _ => ⟨error, rfl, hdirect⟩)
      (reports_error error) hnone (hfollows [] true true).conforms
  split at hrest
  next stream hok =>
    obtain ⟨now, rest, rfl, hthen⟩ := Dialogue.runs_call_bind.mp hrest
    obtain ⟨rfl, rfl⟩ := Dialogue.runs_pure.mp hthen
    have hafter := noExecution_cons.mpr
      ⟨(rfl : execution? (⟨.now, now⟩ : ExecutorExchange EventStream) = none), noExecution_nil⟩
    refine .execution hattached ?_ ?_ hafter ?_
    · exact conforms_execute hafter fun hfailed => absurd hok (hfailed stream)
    · rintro execution ⟨⟩
      simp [attaches, transfers]
    · exact onwards_cons.mpr ⟨conforms_now now, onwards_nil⟩
  next => exact haborted (endsAborted_abortImport rfl hrest hresolves.tail)
  next => exact haborted (endsAborted_abortImport rfl hrest hresolves.tail)
  next => exact haborted (endsAborted_abortImport rfl hrest hresolves.tail)

theorem engine_failed {α : Type} {outcome : RunOutcome (Except EngineError α)}
    {error : EngineError} (herror : outcome.result = .ok (.error error))
    (hother : ∀ ended, error = .context ended → False) :
    endedEngine outcome = false ∧ engineFailure? outcome = some error.text := by
  unfold endedEngine engineFailure?
  rw [herror]
  cases error with
  | context ended => exact (hother ended rfl).elim
  | _ => exact ⟨rfl, rfl⟩

theorem store_failed {α : Type} {outcome : RunOutcome (Except StoreError α)}
    {error : StoreError} (herror : outcome.result = .ok (.error error))
    (hother : ∀ ended, error = .context ended → False) :
    endedStore outcome = false ∧ storeFailure? outcome = some error.text := by
  unfold endedStore storeFailure?
  rw [herror]
  cases error with
  | context ended => exact (hother ended rfl).elim
  | _ => exact ⟨rfl, rfl⟩

theorem result_eq_ok {α : Type} {outcome : RunOutcome α} {value : α}
    (h : outcome.result = .ok value) : outcome = .finished value := by
  cases outcome <;> cases h
  rfl

/-- A commit that fails is cleaned up first. -/
theorem conforms_commit {receipt : TransferReceipt}
    {outcome : RunOutcome (Except EngineError PreparedStateAttachment)}
    (hended : endedEngine outcome = true → NoExecution exchanges)
    (hfailed : ∀ cause, engineFailure? outcome = some cause →
      CleansUpFirst plan request context importTarget cause exchanges result) :
    Conforms plan request context result ⟨.commitStateImport importTarget receipt context, outcome⟩
      exchanges where
  once := by simp [execution?]
  context_failed := hended
  cleanup_failed := by simp [cleanupFailure?]
  prepare_failed := by simp [prepareFailure?]
  import_failed := by
    intro target cause hcause
    obtain ⟨text, htext, ⟨⟩⟩ := Option.map_eq_some_iff.mp hcause
    exact hfailed cause htext
  execution_failed := by simp [executionFailed]

/-- A commit is followed by the last step, by an abort, or by an abort and the fallback. -/
theorem follows_commitImport {activationStarted : ℕ} {materialization : MaterializationTiming}
    {receipt : TransferReceipt} {spec : StateImportSpec} {option : MaterializationOption}
    (hhistory : [⟨.prepareStateImport plan.target spec context, .finished (.ok importTarget)⟩,
      ⟨.materialize option importTarget context, .finished (.ok receipt)⟩].Sublist history)
    (h : (commitImport importTarget plan request context activationStarted materialization
      receipt).Runs exchanges result) (hresolves : Resolves plan exchanges) :
    Follows plan request context history true true exchanges result := by
  obtain ⟨outcome, rest, rfl, hrest⟩ := Dialogue.runs_call_bind.mp h
  split at hrest
  next attachment hok =>
    obtain rfl := result_eq_ok hok
    refine .cons rfl (conforms_commit (by simp [endedEngine, RunOutcome.result])
      (by simp [engineFailure?, RunOutcome.result])) ?_
    refine follows_executeAttached ⟨spec, option, importTarget, receipt, ?_⟩ hrest hresolves.tail
    exact hhistory.append (List.Sublist.refl _)
  next error herror =>
    have haborted : EndsAborted plan request context rest result :=
      endsAborted_abortImport rfl hrest hresolves.tail
    exact .cons rfl (conforms_commit (fun _ => haborted.noExecution)
      (by simp [engineFailure?, herror])) (haborted.follows _ _ _)
  next error hother herror =>
    obtain ⟨hcleans, hfollows⟩ := abortThenFallback_spec hrest hresolves.tail
    obtain ⟨hended, hfailure⟩ := engine_failed herror hother
    refine .cons rfl (conforms_commit (by simp [hended]) ?_) hfollows
    intro cause hcause
    obtain rfl := Option.some.inj (hfailure.symm.trans hcause)
    exact hcleans
  next error herror =>
    have haborted : EndsAborted plan request context rest result :=
      endsAborted_abortImport rfl hrest hresolves.tail
    exact .cons rfl (conforms_commit (fun _ => haborted.noExecution)
      (by simp [engineFailure?, herror])) (haborted.follows _ _ _)

/-- A transfer that fails is cleaned up first. -/
theorem conforms_materialize {option : MaterializationOption}
    {outcome : RunOutcome (Except StoreError TransferReceipt)}
    (hended : endedStore outcome = true → NoExecution exchanges)
    (hfailed : ∀ cause, storeFailure? outcome = some cause →
      CleansUpFirst plan request context importTarget cause exchanges result) :
    Conforms plan request context result ⟨.materialize option importTarget context, outcome⟩
      exchanges where
  once := by simp [execution?]
  context_failed := hended
  cleanup_failed := by simp [cleanupFailure?]
  prepare_failed := by simp [prepareFailure?]
  import_failed := by
    intro target cause hcause
    obtain ⟨text, htext, ⟨⟩⟩ := Option.map_eq_some_iff.mp hcause
    exact hfailed cause htext
  execution_failed := by simp [executionFailed]

/-- A transfer that does not finish transfers nothing. -/
theorem transfers_eq_false {option : MaterializationOption}
    {outcome : RunOutcome (Except StoreError TransferReceipt)}
    (h : ∀ receipt, outcome.result ≠ .ok (.ok receipt)) :
    transfers (⟨.materialize option importTarget context, outcome⟩ :
      ExecutorExchange EventStream) = false := by
  match outcome with
  | .notStarted _ => rfl
  | .interrupted _ => rfl
  | .finished (.error _) => rfl
  | .finished (.ok receipt) => exact absurd rfl (h receipt)

/-- A transfer is followed by the commit, by an abort, or by an abort and the fallback. -/
theorem follows_materializeImport {reuse : StateReusePlan} {activationStarted : ℕ}
    {spec : StateImportSpec}
    (hhistory : [⟨.prepareStateImport plan.target spec context,
      .finished (.ok importTarget)⟩].Sublist history)
    (h : (materializeImport importTarget reuse plan request context
      activationStarted).Runs exchanges result) (hresolves : Resolves plan exchanges) :
    Follows plan request context history true false exchanges result := by
  obtain ⟨started, rest, rfl, hrest⟩ := Dialogue.runs_call_bind.mp h
  obtain ⟨outcome, rest, rfl, hthen⟩ := Dialogue.runs_call_bind.mp hrest
  refine .cons rfl (conforms_now started) ?_
  have hhistory := hhistory.trans (List.sublist_append_left history
    [(⟨.now, started⟩ : ExecutorExchange EventStream)])
  split at hthen
  next receipt hok =>
    obtain rfl := result_eq_ok hok
    obtain ⟨now, rest, rfl, hlast⟩ := Dialogue.runs_call_bind.mp hthen
    refine .cons rfl (conforms_materialize (by simp [endedStore, RunOutcome.result])
      (by simp [storeFailure?, RunOutcome.result])) (.cons rfl (conforms_now now) ?_)
    have hhistory := (hhistory.append (List.Sublist.refl
      [(⟨.materialize reuse.option importTarget context, .finished (.ok receipt)⟩ :
        ExecutorExchange EventStream)])).trans (List.sublist_append_left _
      [(⟨.now, now⟩ : ExecutorExchange EventStream)])
    exact follows_commitImport hhistory hlast hresolves.tail.tail.tail
  next error herror =>
    have haborted : EndsAborted plan request context rest result :=
      endsAborted_abortImport rfl hthen hresolves.tail.tail
    exact .cons rfl (conforms_materialize (fun _ => haborted.noExecution)
      (by simp [storeFailure?, herror])) (haborted.follows _ _ _)
  next error hother herror =>
    obtain ⟨hcleans, hfollows⟩ := abortThenFallback_spec hthen hresolves.tail.tail
    obtain ⟨hended, hfailure⟩ := store_failed herror hother
    have hnone : transfers (⟨.materialize reuse.option importTarget context, outcome⟩ :
        ExecutorExchange EventStream) = false := transfers_eq_false (by simp [herror])
    refine .cons rfl (conforms_materialize (by simp [hended]) ?_) ?_
    · intro cause hcause
      obtain rfl := Option.some.inj (hfailure.symm.trans hcause)
      exact hcleans
    · rw [hnone]
      exact hfollows
  next error herror =>
    have haborted : EndsAborted plan request context rest result :=
      endsAborted_abortImport rfl hthen hresolves.tail.tail
    exact .cons rfl (conforms_materialize (fun _ => haborted.noExecution)
      (by simp [storeFailure?, herror])) (haborted.follows _ _ _)

/-- An import that is not prepared leaves the fallback. -/
theorem conforms_prepare {spec : StateImportSpec}
    {outcome : RunOutcome (Except EngineError StateImportTarget)}
    (hended : endedEngine outcome = true → NoExecution exchanges)
    (hfailed : ∀ cause, engineFailure? outcome = some cause →
      ∃ materialization, FallsBack plan request context cause materialization exchanges result) :
    Conforms plan request context result ⟨.prepareStateImport plan.target spec context, outcome⟩
      exchanges where
  once := by simp [execution?]
  context_failed := hended
  cleanup_failed := by simp [cleanupFailure?]
  prepare_failed := hfailed
  import_failed := by simp [importFailure?]
  execution_failed := by simp [executionFailed]

/-- A reuse path from its first step. -/
theorem follows_prepareImport {reuse : StateReusePlan}
    (h : (prepareImport reuse plan request context).Runs exchanges result)
    (hresolves : Resolves plan exchanges) :
    Follows plan request context history true false exchanges result := by
  obtain ⟨started, rest, rfl, hrest⟩ := Dialogue.runs_call_bind.mp h
  obtain ⟨outcome, rest, rfl, hthen⟩ := Dialogue.runs_call_bind.mp hrest
  refine .cons rfl (conforms_now started) ?_
  split at hthen
  next importTarget hok =>
    obtain rfl := result_eq_ok hok
    refine .cons rfl (conforms_prepare (by simp [endedEngine, RunOutcome.result])
      (by simp [engineFailure?, RunOutcome.result])) ?_
    exact follows_materializeImport (List.sublist_append_right _ _) hthen hresolves.tail.tail
  next error herror =>
    obtain ⟨rfl, rfl⟩ := Dialogue.runs_pure.mp hthen
    exact .cons rfl (conforms_prepare (fun _ => noExecution_nil) (by simp [engineFailure?, herror]))
      (.nil_error _)
  next error hother herror =>
    have hfalls := fallsBack_applyFallback hthen hresolves.tail.tail
    obtain ⟨hended, hfailure⟩ := engine_failed herror hother
    refine .cons rfl (conforms_prepare (by simp [hended]) ?_) hfalls.follows
    intro cause hcause
    obtain rfl := Option.some.inj (hfailure.symm.trans hcause)
    exact ⟨none, hfalls⟩
  next error herror =>
    obtain ⟨rfl, rfl⟩ := Dialogue.runs_pure.mp hthen
    exact .cons rfl (conforms_prepare (fun _ => noExecution_nil) (by simp [engineFailure?, herror]))
      (.nil_error _)

/-- A cold path is one execution without a state. -/
theorem follows_executeCold (h : (executeCold plan request context).Runs exchanges result) :
    Follows plan request context history false false exchanges result := by
  obtain ⟨outcome, rest, rfl, hrest⟩ := Dialogue.runs_call_bind.mp h
  have hnone : rest = [] ∧ ((∀ stream, RunOutcome.result outcome ≠ .ok (.ok stream)) →
      ∃ error : PlanExecutionError, result = .error error ∧ error.direct = true) ∧
      ∀ execution, result = .ok execution → execution.metadata = ⟨.cold, false, none, none⟩ := by
    split at hrest <;> obtain ⟨rfl, rfl⟩ := Dialogue.runs_pure.mp hrest
    · exact ⟨rfl, fun _ => ⟨_, rfl, rfl⟩, by rintro execution ⟨⟩⟩
    · exact ⟨rfl, fun _ => ⟨_, rfl, rfl⟩, by rintro execution ⟨⟩⟩
    next stream hok =>
      exact ⟨rfl, fun hfailed => absurd hok (hfailed stream), by rintro execution ⟨⟩; rfl⟩
  obtain ⟨rfl, hfailed, hmetadata⟩ := hnone
  refine .execution ?_ (conforms_execute noExecution_nil hfailed) ?_ noExecution_nil onwards_nil
  · rintro target request' attachment ⟨⟩
  · intro execution hok
    rw [hmetadata execution hok]
    simp [attaches, transfers]

end Steps

/-- Whether the plan wants to reuse a state. -/
def PlacementPlan.reuses (plan : PlacementPlan) : Bool :=
  match plan.path with
  | .cold => false
  | .reuse _ => true

/-- The protocol of a run. -/
structure ExecutorContract (plan : PlacementPlan) (request : CanonicalRequest)
    (context : OperationContext) (exchanges : List (ExecutorExchange EventStream))
    (result : ExecutionResult EventStream) : Prop where
  at_most_once : exchanges.countP (fun exchange => (execution? exchange).isSome) ≤ 1
  on_target : ∀ exchange ∈ exchanges, ∀ target request' state,
    execution? exchange = some (target, request', state) →
      target = plan.target ∧ request' = request ∧ request.model = plan.target.model
  attachments : Throughout (AttachmentCommitted plan context) exchanges
  conforms : Onwards (Conforms plan request context result) exchanges
  reports : Reports plan.reuses false exchanges result

section Contract

variable {plan : PlacementPlan} {request : CanonicalRequest} {context : OperationContext}
  {exchanges : List (ExecutorExchange EventStream)} {result : ExecutionResult EventStream}

/-- Every run follows the protocol, and executes only for the model of the target. -/
theorem follows_execute (h : (execute plan request context).Runs exchanges result)
    (hresolves : Resolves plan exchanges) :
    Follows plan request context [] plan.reuses false exchanges result ∧
      (request.model ≠ plan.target.model → NoExecution exchanges) := by
  obtain ⟨active, rest, rfl, hrest⟩ := Dialogue.runs_call_bind.mp h
  split at hrest
  next error =>
    obtain ⟨rfl, rfl⟩ := Dialogue.runs_pure.mp hrest
    refine ⟨.cons rfl (.of_silent rfl rfl rfl rfl fun _ => noExecution_nil) (.nil_error _), ?_⟩
    exact fun _ => noExecution_cons.mpr ⟨rfl, noExecution_nil⟩
  next =>
    split at hrest
    next =>
      obtain ⟨rfl, rfl⟩ := Dialogue.runs_pure.mp hrest
      refine ⟨.cons rfl (.of_silent rfl rfl rfl rfl fun _ => noExecution_nil) (.nil_error _), ?_⟩
      exact fun _ => noExecution_cons.mpr ⟨rfl, noExecution_nil⟩
    next hmodel =>
      refine ⟨?_, fun hother => absurd hother hmodel⟩
      obtain ⟨registry, rest, rfl, hthen⟩ := Dialogue.runs_call_bind.mp hrest
      refine .cons rfl (.of_silent rfl rfl rfl rfl (by simp [contextFailed])) ?_
      refine .cons rfl (conforms_readRegistry registry) ?_
      unfold PlacementPlan.reuses
      cases hpath : plan.path with
      | cold =>
        simp only [hresolves.tail.head, hpath] at hthen
        exact follows_executeCold hthen
      | reuse reuse =>
        simp only [hresolves.tail.head, hpath] at hthen
        exact follows_prepareImport hthen hresolves.tail.tail

/-- Whatever the adapter, the store and the context do, a run under a registry that
resolves the target keeps to the protocol. -/
theorem executor_protocol (h : (execute plan request context).Runs exchanges result)
    (hresolves : Resolves plan exchanges) :
    ExecutorContract plan request context exchanges result := by
  obtain ⟨hfollows, hmodel⟩ := follows_execute h hresolves
  refine ⟨?_, ?_, by simpa using hfollows.attachments, hfollows.conforms, hfollows.reports⟩
  · refine Onwards.countP_le_one fun before exchange after heq hsome => ?_
    intro later hlater
    rw [(hfollows.conforms before exchange after heq).once hsome later hlater]
    rfl
  · intro exchange hmem target request' state hstate
    obtain ⟨htarget, hrequest⟩ := hfollows.onTarget exchange hmem target request' state hstate
    refine ⟨htarget, hrequest, ?_⟩
    by_contra hother
    rw [hmodel hother exchange hmem] at hstate
    cases hstate

/-- A transfer that fails because the store is unavailable, cleaned up and followed by the
one cold execution of the plan's fallback. -/
theorem executor_protocol_sampleCleanup :
    ExecutorContract samplePlan sampleRequest { requestId := "request" }
      (sampleFailure ++ sampleCleanup)
      (.ok ⟨(), ⟨.cold, true, none, none⟩⟩) := by
  refine executor_protocol runs_sampleCleanup ?_
  intro (registry : EngineRegistry) hmem
  have hread : registry ∈ (sampleFailure ++ sampleCleanup).filterMap readRegistry? :=
    List.mem_filterMap.mpr ⟨_, hmem, rfl⟩
  have hsame : (sampleFailure ++ sampleCleanup).filterMap readRegistry? =
      [sampleRegistry 1, sampleRegistry 1, sampleRegistry 1] := rfl
  rw [hsame] at hread
  have hregistry : registry = sampleRegistry 1 := by simpa using hread
  rw [hregistry]
  rfl

end Contract

end Locus.Planner
