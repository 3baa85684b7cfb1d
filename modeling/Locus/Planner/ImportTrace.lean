import Locus.Planner.Executor

/-!
# The exchanges of an execution

Every run of `execute` has one of two forms: it never obtains an import, or it obtains
one and then either succeeds in reusing it or goes through one of the abort helpers.
-/

namespace Locus.Planner

open Locus.Core Locus.Engine Locus.Lib

variable {EventStream : Type}

/-- A question of the executor with its answer. -/
abbrev ExecutorExchange (EventStream : Type) := Exchange (ExecutorCall.Answer EventStream)

/-- The import that an exchange handed over. -/
def obtainedImport : ExecutorExchange EventStream → Option StateImportTarget
  | ⟨.prepareStateImport _ _ _, .finished (.ok importTarget)⟩ => some importTarget
  | _ => none

/-- The registry that an exchange read. -/
def readRegistry? : ExecutorExchange EventStream → Option EngineRegistry
  | ⟨.readRegistry, registry⟩ => some registry
  | _ => none

/-- The exchange asked for an abort. -/
def asksAbort : ExecutorExchange EventStream → Bool
  | ⟨.abortStateImport _ _, _⟩ => true
  | _ => false

/-- The exchange began an execution without a state. -/
def startsCold : ExecutorExchange EventStream → Bool
  | ⟨.execute _ _ none _, outcome⟩ => RunOutcome.started outcome
  | _ => false

/-- The planned reuse is running. -/
def ReuseSucceeded (result : ExecutionResult EventStream) : Prop :=
  ∃ execution, result = .ok execution ∧ execution.metadata.executedPath = .reuse

/-- An exchange of a run that still holds its import: no abort, no other import, no
lookup and no cold execution. -/
structure Plain (exchange : ExecutorExchange EventStream) : Prop where
  asksAbort : asksAbort exchange = false
  obtainedImport : obtainedImport exchange = none
  readRegistry : readRegistry? exchange = none
  startsCold : startsCold exchange = false

/-- An exchange that neither aborts nor obtains an import. -/
structure Quiet (exchange : ExecutorExchange EventStream) : Prop where
  asksAbort : asksAbort exchange = false
  obtainedImport : obtainedImport exchange = none

/-- A continuation that has nothing to do with imports. -/
def QuietRuns (next : ExecutorM EventStream (ExecutionResult EventStream)) : Prop :=
  ∀ exchanges result, next.Runs exchanges result →
    (∀ exchange ∈ exchanges, Quiet exchange) ∧ ¬ ReuseSucceeded result

/-- What an abort helper exchanges: a lookup that fails, or a lookup and the abort. -/
inductive AbortAttempt (importTarget : StateImportTarget) (plan : PlacementPlan) :
    List (ExecutorExchange EventStream) → Prop
  | lost {registry : EngineRegistry} {error : EngineError}
      (unresolved : registry.adapterFor plan.target = .error error) :
      AbortAttempt importTarget plan [⟨.readRegistry, registry⟩]
  | asked {registry : EngineRegistry} {now : ℕ} {context : OperationContext}
      {outcome : RunOutcome (Except EngineError Unit)}
      {after : List (ExecutorExchange EventStream)}
      (resolved : registry.adapterFor plan.target = .ok ())
      (quiet : ∀ exchange ∈ after, Quiet exchange) :
      AbortAttempt importTarget plan
        ([⟨.readRegistry, registry⟩, ⟨.now, now⟩] ++
          ⟨.abortStateImport importTarget context, outcome⟩ :: after)

/-- What happens once an import is held: the reuse succeeds, or plain exchanges lead to
an abort helper. -/
inductive Held (importTarget : StateImportTarget) (plan : PlacementPlan) :
    List (ExecutorExchange EventStream) → ExecutionResult EventStream → Prop
  | reused {exchanges : List (ExecutorExchange EventStream)}
      {result : ExecutionResult EventStream} (plain : ∀ exchange ∈ exchanges, Plain exchange)
      (succeeded : ReuseSucceeded result) : Held importTarget plan exchanges result
  | aborted {before attempt : List (ExecutorExchange EventStream)}
      {result : ExecutionResult EventStream} (plain : ∀ exchange ∈ before, Plain exchange)
      (failed : ¬ ReuseSucceeded result) (attempted : AbortAttempt importTarget plan attempt) :
      Held importTarget plan (before ++ attempt) result

variable {importTarget : StateImportTarget} {plan : PlacementPlan} {request : CanonicalRequest}
  {context : OperationContext} {exchanges : List (ExecutorExchange EventStream)}
  {result : ExecutionResult EventStream}

/-- An error is no successful reuse. -/
theorem not_reuseSucceeded_error (error : PlanExecutionError) :
    ¬ ReuseSucceeded (.error error : ExecutionResult EventStream) := by
  rintro ⟨execution, h, -⟩
  cases h

/-- A cold execution is no successful reuse. -/
theorem not_reuseSucceeded_cold (stream : EventStream) (fallbackUsed : Bool)
    (materialization : Option MaterializationTiming) :
    ¬ ReuseSucceeded (.ok ⟨stream, ⟨.cold, fallbackUsed, materialization, none⟩⟩) := by
  rintro ⟨execution, h, hpath⟩
  cases h
  cases hpath

/-- An abort helper that runs at once. -/
theorem Held.of_attempt (failed : ¬ ReuseSucceeded result)
    (attempted : AbortAttempt importTarget plan exchanges) :
    Held importTarget plan exchanges result := by
  rw [← List.nil_append exchanges]
  exact .aborted (by simp) failed attempted

/-- A plain exchange before a held import leaves it held. -/
theorem Held.cons {exchange : ExecutorExchange EventStream} (hplain : Plain exchange)
    (h : Held importTarget plan exchanges result) :
    Held importTarget plan (exchange :: exchanges) result := by
  cases h with
  | reused plain succeeded =>
    exact .reused (List.forall_mem_cons.mpr ⟨hplain, plain⟩) succeeded
  | aborted plain failed attempted =>
    rw [← List.cons_append]
    exact .aborted (List.forall_mem_cons.mpr ⟨hplain, plain⟩) failed attempted

/-- Returning an error has nothing to do with imports. -/
theorem quietRuns_error (error : PlanExecutionError) :
    QuietRuns (pure (.error error) : ExecutorM EventStream (ExecutionResult EventStream)) := by
  intro exchanges result h
  obtain ⟨rfl, rfl⟩ := Dialogue.runs_pure.mp h
  exact ⟨by simp, not_reuseSucceeded_error error⟩

/-- A cold execution that is asked for has nothing to do with imports. -/
theorem quiet_execute (target : ExecutionTarget) (request : CanonicalRequest)
    (state : Option PreparedStateAttachment) (context : OperationContext)
    (outcome : RunOutcome (Except EngineError EventStream)) :
    Quiet (⟨.execute target request state context, outcome⟩ : ExecutorExchange EventStream) :=
  ⟨rfl, rfl⟩

/-- A fallback has nothing to do with imports. -/
theorem quietRuns_applyFallback (fallback : FallbackAction) (plan : PlacementPlan)
    (request : CanonicalRequest) (context : OperationContext) (cause : String)
    (materialization : Option MaterializationTiming) :
    QuietRuns (applyFallback fallback plan request context cause materialization :
      ExecutorM EventStream (ExecutionResult EventStream)) := by
  cases fallback with
  | replan => exact quietRuns_error _
  | fail => exact quietRuns_error _
  | coldOnSameTarget =>
    intro exchanges result h
    obtain ⟨registry, rest, rfl, hrest⟩ := Dialogue.runs_call_bind.mp h
    have hregistry : Quiet (⟨.readRegistry, registry⟩ : ExecutorExchange EventStream) := ⟨rfl, rfl⟩
    split at hrest
    · obtain ⟨rfl, rfl⟩ := Dialogue.runs_pure.mp hrest
      exact ⟨by simp [hregistry], not_reuseSucceeded_error _⟩
    · obtain ⟨outcome, rest, rfl, hthen⟩ := Dialogue.runs_call_bind.mp hrest
      have hexecute := quiet_execute plan.target request none context outcome
      split at hthen
      all_goals
        obtain ⟨rfl, rfl⟩ := Dialogue.runs_pure.mp hthen
        refine ⟨by simp [hregistry, hexecute], ?_⟩
      · exact not_reuseSucceeded_error _
      · exact not_reuseSucceeded_error _
      · exact not_reuseSucceeded_cold _ _ _

/-- An abort helper looks up the adapter, aborts, and goes on quietly. -/
theorem held_abortImport {cause : String}
    {next : ExecutorM EventStream (ExecutionResult EventStream)} (hnext : QuietRuns next)
    (h : (abortImport importTarget plan context cause next).Runs exchanges result) :
    Held importTarget plan exchanges result := by
  obtain ⟨registry, rest, rfl, hrest⟩ := Dialogue.runs_call_bind.mp h
  split at hrest
  next error hlookup =>
    obtain ⟨rfl, rfl⟩ := Dialogue.runs_pure.mp hrest
    exact .of_attempt (not_reuseSucceeded_error _) (.lost hlookup)
  next hlookup =>
    obtain ⟨now, rest, rfl, hthen⟩ := Dialogue.runs_call_bind.mp hrest
    obtain ⟨outcome, rest, rfl, hlast⟩ := Dialogue.runs_call_bind.mp hthen
    split at hlast
    · obtain ⟨hquiet, hfailed⟩ := hnext rest result hlast
      exact .of_attempt hfailed (.asked hlookup hquiet)
    all_goals
      obtain ⟨rfl, rfl⟩ := Dialogue.runs_pure.mp hlast
      exact .of_attempt (not_reuseSucceeded_error _) (.asked hlookup (by simp))

/-- The last step either succeeds or aborts. -/
theorem held_executeAttached {activationStarted : ℕ} {materialization : MaterializationTiming}
    {attachment : PreparedStateAttachment}
    (h : (executeAttached importTarget plan request context activationStarted materialization
      attachment).Runs exchanges result) : Held importTarget plan exchanges result := by
  obtain ⟨outcome, rest, rfl, hrest⟩ := Dialogue.runs_call_bind.mp h
  have hplain : Plain (⟨.execute plan.target request (some attachment) context, outcome⟩ :
      ExecutorExchange EventStream) := ⟨rfl, rfl, rfl, rfl⟩
  refine .cons hplain ?_
  split at hrest
  · obtain ⟨now, rest, rfl, hthen⟩ := Dialogue.runs_call_bind.mp hrest
    obtain ⟨rfl, rfl⟩ := Dialogue.runs_pure.mp hthen
    have hnow : Plain (⟨.now, now⟩ : ExecutorExchange EventStream) := ⟨rfl, rfl, rfl, rfl⟩
    exact .reused (by simp [hnow]) ⟨_, rfl, rfl⟩
  all_goals exact held_abortImport (quietRuns_error _) hrest

/-- A commit is followed by the last step or by an abort. -/
theorem held_commitImport {activationStarted : ℕ} {materialization : MaterializationTiming}
    {receipt : TransferReceipt}
    (h : (commitImport importTarget plan request context activationStarted materialization
      receipt).Runs exchanges result) : Held importTarget plan exchanges result := by
  obtain ⟨outcome, rest, rfl, hrest⟩ := Dialogue.runs_call_bind.mp h
  refine .cons ⟨rfl, rfl, rfl, rfl⟩ ?_
  split at hrest
  · exact held_executeAttached hrest
  · exact held_abortImport (quietRuns_error _) hrest
  · exact held_abortImport (quietRuns_applyFallback _ _ _ _ _ _) hrest
  · exact held_abortImport (quietRuns_error _) hrest

/-- A transfer is followed by the commit or by an abort. -/
theorem held_materializeImport {reuse : StateReusePlan} {activationStarted : ℕ}
    (h : (materializeImport importTarget reuse plan request context
      activationStarted).Runs exchanges result) : Held importTarget plan exchanges result := by
  obtain ⟨started, rest, rfl, hrest⟩ := Dialogue.runs_call_bind.mp h
  obtain ⟨outcome, rest, rfl, hthen⟩ := Dialogue.runs_call_bind.mp hrest
  refine .cons ⟨rfl, rfl, rfl, rfl⟩ (.cons ⟨rfl, rfl, rfl, rfl⟩ ?_)
  split at hthen
  · obtain ⟨now, rest, rfl, hlast⟩ := Dialogue.runs_call_bind.mp hthen
    exact .cons ⟨rfl, rfl, rfl, rfl⟩ (held_commitImport hlast)
  · exact held_abortImport (quietRuns_error _) hthen
  · exact held_abortImport (quietRuns_applyFallback _ _ _ _ _ _) hthen
  · exact held_abortImport (quietRuns_error _) hthen

/-- What an execution exchanges: nothing about imports, or an opening, the import, and
what follows while it is held. -/
inductive Followed (plan : PlacementPlan) :
    List (ExecutorExchange EventStream) → ExecutionResult EventStream → Prop
  | without {exchanges : List (ExecutorExchange EventStream)}
      {result : ExecutionResult EventStream} (quiet : ∀ exchange ∈ exchanges, Quiet exchange) :
      Followed plan exchanges result
  | holding {opening rest : List (ExecutorExchange EventStream)}
      {obtaining : ExecutorExchange EventStream} {importTarget : StateImportTarget}
      {result : ExecutionResult EventStream}
      (quiet : ∀ exchange ∈ opening, Quiet exchange ∧ startsCold exchange = false)
      (obtained : obtainedImport obtaining = some importTarget)
      (held : Held importTarget plan rest result) :
      Followed plan (opening ++ obtaining :: rest) result

/-- A quiet exchange may come before. -/
theorem Followed.cons {exchange : ExecutorExchange EventStream} (hquiet : Quiet exchange)
    (hcold : startsCold exchange = false) (h : Followed plan exchanges result) :
    Followed plan (exchange :: exchanges) result := by
  cases h with
  | without quiet => exact .without (List.forall_mem_cons.mpr ⟨hquiet, quiet⟩)
  | holding quiet obtained held =>
    rw [← List.cons_append]
    exact .holding (List.forall_mem_cons.mpr ⟨⟨hquiet, hcold⟩, quiet⟩) obtained held

/-- An execution that begins with the import. -/
theorem Followed.of_held {obtaining : ExecutorExchange EventStream}
    (obtained : obtainedImport obtaining = some importTarget)
    (held : Held importTarget plan exchanges result) :
    Followed plan (obtaining :: exchanges) result := by
  rw [← List.nil_append (obtaining :: exchanges)]
  exact .holding (by simp) obtained held

/-- A reuse path obtains at most the one import that it prepares. -/
theorem followed_prepareImport {reuse : StateReusePlan}
    (h : (prepareImport reuse plan request context).Runs exchanges result) :
    Followed plan exchanges result := by
  obtain ⟨started, rest, rfl, hrest⟩ := Dialogue.runs_call_bind.mp h
  obtain ⟨outcome, rest, rfl, hthen⟩ := Dialogue.runs_call_bind.mp hrest
  refine .cons ⟨rfl, rfl⟩ rfl ?_
  change RunOutcome (Except EngineError StateImportTarget) at outcome
  rcases outcome with error | error | (error | importTarget)
  · obtain ⟨rfl, rfl⟩ := Dialogue.runs_pure.mp hthen
    exact .without (List.forall_mem_singleton.mpr ⟨rfl, rfl⟩)
  · obtain ⟨rfl, rfl⟩ := Dialogue.runs_pure.mp hthen
    exact .without (List.forall_mem_singleton.mpr ⟨rfl, rfl⟩)
  · refine .cons ⟨rfl, rfl⟩ rfl ?_
    simp only [RunOutcome.result] at hthen
    split at hthen
    next hcase => cases hcase
    next =>
      obtain ⟨rfl, rfl⟩ := Dialogue.runs_pure.mp hthen
      exact .without (by simp)
    next => exact .without (quietRuns_applyFallback _ _ _ _ _ _ _ _ hthen).1
    next hcase => cases hcase
  · exact .of_held rfl (held_materializeImport hthen)

/-- A cold path has nothing to do with imports. -/
theorem followed_executeCold
    (h : (executeCold plan request context).Runs exchanges result) :
    Followed plan exchanges result := by
  obtain ⟨outcome, rest, rfl, hrest⟩ := Dialogue.runs_call_bind.mp h
  have hexecute := quiet_execute plan.target request none context outcome
  split at hrest
  all_goals
    obtain ⟨rfl, rfl⟩ := Dialogue.runs_pure.mp hrest
    exact .without (by simp [hexecute])

/-- Every execution has one of the two forms. -/
theorem followed_execute (h : (execute plan request context).Runs exchanges result) :
    Followed plan exchanges result := by
  obtain ⟨active, rest, rfl, hrest⟩ := Dialogue.runs_call_bind.mp h
  refine .cons ⟨rfl, rfl⟩ rfl ?_
  split at hrest
  · obtain ⟨rfl, rfl⟩ := Dialogue.runs_pure.mp hrest
    exact .without (by simp)
  · split at hrest
    · obtain ⟨rfl, rfl⟩ := Dialogue.runs_pure.mp hrest
      exact .without (by simp)
    · obtain ⟨registry, rest, rfl, hthen⟩ := Dialogue.runs_call_bind.mp hrest
      refine .cons ⟨rfl, rfl⟩ rfl ?_
      split at hthen
      · obtain ⟨rfl, rfl⟩ := Dialogue.runs_pure.mp hthen
        exact .without (by simp)
      · split at hthen
        · exact followed_executeCold hthen
        · exact followed_prepareImport hthen

end Locus.Planner
