import Locus.ModelIo.PipelineSpecs
import Locus.Runtime.InferStream
import Locus.Runtime.Selection

/-!
# One termination for each admitted request

Once a request is admitted, `infer` either fails or returns a stream that is dropped in the
end. On every way from the grant to that end the termination of the request is recorded once.
What planning, selection, the engines and the executor answer is the environment of a dialogue.
-/

namespace Locus.Runtime

open Locus.Core Locus.Engine Locus.Lib Locus.ModelIo Locus.Parser Locus.Planner

section Infer

/-- What `infer` asks after the grant. -/
inductive InferCall
  | outputPipeline
  | planningInput
  | selectPlan (input : PlanningInput)
  | adapterFor (target : ExecutionTarget)
  | acquireExecution (target : ExecutionTarget)
  | execute (plan : PlacementPlan)
  | ensureActive
  | cancelEngineRequest (request : RequestId)
  | recordTermination (reason : String)

/-- What may be answered. Planning and selection run under the context of the request. -/
def InferCall.Answer (Pipeline : Type) : InferCall → Type
  | outputPipeline => Except ModelIoError Pipeline
  | planningInput => Except ContextError (Except InferenceError PlanningInput)
  | selectPlan _ => Except ContextError (Except InferenceError PlacementSelection)
  | adapterFor _ => Except EngineError Unit
  | acquireExecution _ => Except EngineError Unit
  | execute _ => Except PlanExecutionError Unit
  | ensureActive => Except ContextError Unit
  | cancelEngineRequest _ => Unit
  | recordTermination _ => Unit

variable {Pipeline : Type}

/-- A conversation of `infer`. -/
abbrev InferM (Pipeline α : Type) := Dialogue (InferCall.Answer Pipeline) α

/-- Ask one question. -/
abbrev request (question : InferCall) : InferM Pipeline (question.Answer Pipeline) :=
  Dialogue.call question

/-- `record_traffic_termination` -/
def recordTrafficTermination (traffic : Bool) (reason : String) : InferM Pipeline Unit :=
  if traffic then request (.recordTermination reason) else pure ()

/-- The end of a request by its context. -/
def endedByContext {α : Type} (traffic : Bool) (error : ContextError) :
    InferM Pipeline (Except InferenceError α) := do
  recordTrafficTermination traffic (contextTerminationReason error)
  return .error (.context error)

/-- `normalize_admitted_error`, returned. -/
def normalizeAdmittedError {α : Type} (traffic : Bool) (error : InferenceError) :
    InferM Pipeline (Except InferenceError α) := do
  let active : Except ContextError Unit ← request .ensureActive
  match active with
  | .ok () => do
    recordTrafficTermination traffic "request_error"
    return .error error
  | .error contextError => endedByContext traffic contextError

/-- The end of `infer`: the plan is executed, and the stream is returned. -/
def inferExecution (traffic : Bool) (requestId : RequestId) (pipeline : Pipeline)
    (plan : PlacementPlan) :
    InferM Pipeline (Except InferenceError (CancelOnDropStream Pipeline)) := do
  let execution : Except PlanExecutionError Unit ← request (.execute plan)
  match execution with
  | .ok () => return .ok (.new pipeline requestId traffic)
  | .error error => do
    let active : Except ContextError Unit ← request .ensureActive
    match active with
    | .error contextError => do
      let _ : Unit ← request (.cancelEngineRequest requestId)
      recordTrafficTermination traffic (contextTerminationReason contextError)
      return .error (.execution error)
    | .ok () => do
      recordTrafficTermination traffic "engine_error"
      return .error (.execution error)

/-- The middle of `infer`: the engine of the plan is found and leased. -/
def inferLease (traffic : Bool) (requestId : RequestId) (pipeline : Pipeline)
    (plan : PlacementPlan) :
    InferM Pipeline (Except InferenceError (CancelOnDropStream Pipeline)) := do
  let adapter : Except EngineError Unit ← request (.adapterFor plan.target)
  match adapter with
  | .error error => normalizeAdmittedError traffic (.engine error)
  | .ok () => do
    let permit : Except EngineError Unit ← request (.acquireExecution plan.target)
    match permit with
    | .error error => normalizeAdmittedError traffic (.engine error)
    | .ok () => inferExecution traffic requestId pipeline plan

/-- `DefaultInferenceService::infer` after the grant. -/
def inferAdmitted (traffic : Bool) (requestId : RequestId) :
    InferM Pipeline (Except InferenceError (CancelOnDropStream Pipeline)) := do
  let pipeline : Except ModelIoError Pipeline ← request .outputPipeline
  match pipeline with
  | .error error => do
    recordTrafficTermination traffic "request_error"
    return .error (.modelIo error)
  | .ok pipeline => do
    let planned : Except ContextError (Except InferenceError PlanningInput) ←
      request .planningInput
    match planned with
    | .error error => endedByContext traffic error
    | .ok (.error error) => normalizeAdmittedError traffic error
    | .ok (.ok input) => do
      let selected : Except ContextError (Except InferenceError PlacementSelection) ←
        request (.selectPlan input)
      match selected with
      | .error error => endedByContext traffic error
      | .ok (.error error) => normalizeAdmittedError traffic error
      | .ok (.ok selection) => inferLease traffic requestId pipeline selection.plan

end Infer

section BeforeStream

variable {Pipeline α : Type}

/-- A termination is recorded. -/
def isTermination : InferCall → Bool
  | .recordTermination _ => true
  | _ => false

/-- How many terminations `infer` has to record: one if it fails. -/
def terminationsOf : Except InferenceError α → ℕ
  | .error _ => 1
  | .ok _ => 0

/-- A recorded error. -/
theorem counts_recorded (reason : String) (error : InferenceError) :
    Dialogue.Counts isTermination terminationsOf
      (recordTrafficTermination true reason >>= fun _ =>
        (pure (.error error) : InferM Pipeline (Except InferenceError α))) :=
  Dialogue.counts_call_pure rfl rfl

theorem counts_endedByContext (error : ContextError) :
    Dialogue.Counts isTermination terminationsOf
      (endedByContext true error : InferM Pipeline (Except InferenceError α)) :=
  counts_recorded _ _

theorem counts_normalizeAdmittedError (error : InferenceError) :
    Dialogue.Counts isTermination terminationsOf
      (normalizeAdmittedError true error : InferM Pipeline (Except InferenceError α)) := by
  refine Dialogue.Counts.skip rfl ?_
  rintro (contextError | ⟨⟩)
  · exact counts_endedByContext contextError
  · exact counts_recorded _ _

theorem counts_inferExecution (requestId : RequestId) (pipeline : Pipeline)
    (plan : PlacementPlan) :
    Dialogue.Counts isTermination terminationsOf (inferExecution true requestId pipeline plan) := by
  refine Dialogue.Counts.skip rfl ?_
  rintro (error | ⟨⟩)
  · refine Dialogue.Counts.skip rfl ?_
    rintro (contextError | ⟨⟩)
    · exact Dialogue.Counts.skip rfl fun _ => counts_recorded _ _
    · exact counts_recorded _ _
  · exact Dialogue.counts_pure rfl

theorem counts_inferLease (requestId : RequestId) (pipeline : Pipeline) (plan : PlacementPlan) :
    Dialogue.Counts isTermination terminationsOf (inferLease true requestId pipeline plan) := by
  refine Dialogue.Counts.skip rfl ?_
  rintro (error | ⟨⟩)
  · exact counts_normalizeAdmittedError _
  · refine Dialogue.Counts.skip rfl ?_
    rintro (error | ⟨⟩)
    · exact counts_normalizeAdmittedError _
    · exact counts_inferExecution requestId pipeline plan

/-- `infer` records one termination if it fails and none if it returns a stream. -/
theorem counts_inferAdmitted (requestId : RequestId) :
    Dialogue.Counts isTermination terminationsOf
      (inferAdmitted true requestId :
        InferM Pipeline (Except InferenceError (CancelOnDropStream Pipeline))) := by
  refine Dialogue.Counts.skip rfl ?_
  rintro (error | pipeline)
  · exact counts_recorded _ _
  · refine Dialogue.Counts.skip rfl ?_
    rintro (error | error | input)
    · exact counts_endedByContext error
    · exact counts_normalizeAdmittedError error
    · refine Dialogue.Counts.skip rfl ?_
      rintro (error | error | selection)
      · exact counts_endedByContext error
      · exact counts_normalizeAdmittedError error
      · exact counts_inferLease requestId pipeline selection.plan

/-- The stream that `infer` returns is new. -/
def StartsNew (requestId : RequestId) :
    Except InferenceError (CancelOnDropStream Pipeline) → Prop
  | .error _ => True
  | .ok stream => ∃ pipeline, stream = .new pipeline requestId true

theorem returns_normalizeAdmittedError (requestId : RequestId) (error : InferenceError) :
    Dialogue.Returns (StartsNew requestId)
      (normalizeAdmittedError true error :
        InferM Pipeline (Except InferenceError (CancelOnDropStream Pipeline))) := by
  refine Dialogue.Returns.bind ?_
  rintro (contextError | ⟨⟩)
  · exact Dialogue.Returns.bind fun _ => Dialogue.returns_pure trivial
  · exact Dialogue.Returns.bind fun _ => Dialogue.returns_pure trivial

theorem returns_inferLease (requestId : RequestId) (pipeline : Pipeline) (plan : PlacementPlan) :
    Dialogue.Returns (StartsNew requestId) (inferLease true requestId pipeline plan) := by
  refine Dialogue.Returns.bind ?_
  rintro (error | ⟨⟩)
  · exact returns_normalizeAdmittedError requestId _
  · refine Dialogue.Returns.bind ?_
    rintro (error | ⟨⟩)
    · exact returns_normalizeAdmittedError requestId _
    · refine Dialogue.Returns.bind ?_
      rintro (error | ⟨⟩)
      · refine Dialogue.Returns.bind ?_
        rintro (contextError | ⟨⟩)
        · exact Dialogue.Returns.bind fun _ =>
            Dialogue.Returns.bind fun _ => Dialogue.returns_pure trivial
        · exact Dialogue.Returns.bind fun _ => Dialogue.returns_pure trivial
      · exact Dialogue.returns_pure ⟨pipeline, rfl⟩

theorem returns_inferAdmitted (requestId : RequestId) :
    Dialogue.Returns (StartsNew requestId)
      (inferAdmitted true requestId :
        InferM Pipeline (Except InferenceError (CancelOnDropStream Pipeline))) := by
  refine Dialogue.Returns.bind ?_
  rintro (error | pipeline)
  · exact Dialogue.Returns.bind fun _ => Dialogue.returns_pure trivial
  · refine Dialogue.Returns.bind ?_
    rintro (error | error | input)
    · exact Dialogue.Returns.bind fun _ => Dialogue.returns_pure trivial
    · exact returns_normalizeAdmittedError requestId error
    · refine Dialogue.Returns.bind ?_
      rintro (error | error | selection)
      · exact Dialogue.Returns.bind fun _ => Dialogue.returns_pure trivial
      · exact returns_normalizeAdmittedError requestId error
      · exact returns_inferLease requestId pipeline selection.plan

end BeforeStream

section Stream

variable {Pipeline : Type} {process : PipelineProcess Pipeline}
  {stream next : CancelOnDropStream Pipeline} {label : StreamLabel}

/-- A pipeline that reports the end of its output with the last engine event, and with no other
one, and reports nothing else with that. -/
def FinishesOnce (process : PipelineProcess Pipeline) : Prop :=
  ∀ pipeline event next output, process pipeline event = .ok (next, output) →
    if (terminalReason event).isSome then ∃ last, output = [last] ∧ isFinished last = true
    else ∀ other ∈ output, isFinished other = false

/-- The terminations and flags that belong to a state of the body. -/
def StreamBody.Accounts (terminations : ℕ) (completed terminalError : Bool) :
    StreamBody Pipeline → Prop
  | .awaitingEvent _ | .awaitingCalibrator _ _ =>
    terminations = 0 ∧ completed = false ∧ terminalError = false
  | .yielding _ _ rest false =>
    terminations = 0 ∧ completed = false ∧ terminalError = false ∧
      ∀ event ∈ rest, isFinished event = false
  | .yielding _ _ rest true => terminations = 1 ∧ completed = true ∧ rest = []
  | .failing _ => terminations = 1 ∧ terminalError = true
  | .ended => terminations = 1 ∧ completed = true

/-- The account of a stream: a dropped one has one termination, another one has what belongs to
the state of its body. -/
structure Accounted (stream : CancelOnDropStream Pipeline) : Prop where
  traffic : stream.traffic = true
  dropped : stream.dropped = true → stream.terminations.length = 1
  open_ : stream.dropped = false → stream.inner.Accounts stream.terminations.length
    stream.completed stream.terminalError

/-- What the guard knows after a turn of the body. -/
def StreamBody.AccountsAfter (terminations : ℕ) (completed terminalError : Bool)
    (body : StreamBody Pipeline) : Prop :=
  body.Accounts terminations (completed || body.polled.completes)
    (terminalError || body.polled.fails)

/-- Delivering the events of a batch that does not end the output. -/
theorem accounts_deliver (pipeline : Pipeline) {events : List ModelEvent}
    (h : ∀ event ∈ events, isFinished event = false) :
    (StreamBody.deliver pipeline false events).AccountsAfter 0 false false := by
  cases events with
  | nil => exact ⟨rfl, rfl, rfl⟩
  | cons event rest =>
    have hfirst : isFinished event = false := h event List.mem_cons_self
    exact ⟨rfl, hfirst, rfl, fun other hother => h other (List.mem_cons_of_mem _ hother)⟩

/-- Processing an event records a termination exactly if it ends the stream. -/
theorem accounts_processed (hfinishes : FinishesOnce process) (pipeline : Pipeline)
    (event : EngineEvent) :
    (StreamBody.processed process pipeline event).1.AccountsAfter
      (StreamBody.processed process pipeline event).2.length false false := by
  unfold StreamBody.processed
  split
  next => exact ⟨rfl, rfl⟩
  next pipeline' output hprocess =>
    have houtput := hfinishes pipeline event pipeline' output hprocess
    cases hreason : terminalReason event with
    | none =>
      rw [hreason, if_neg (by simp)] at houtput
      exact accounts_deliver pipeline' houtput
    | some reason =>
      rw [hreason, if_pos (by simp)] at houtput
      obtain ⟨last, rfl, hlast⟩ := houtput
      exact ⟨rfl, hlast, rfl⟩

section Turns

variable {body' : StreamBody Pipeline} {input : StreamInput} {reasons : List String}

/-- What a turn makes of an event keeps the account. -/
theorem accounts_of_processed (hfinishes : FinishesOnce process) {pipeline : Pipeline}
    {event : EngineEvent}
    (h : some (StreamBody.processed process pipeline event) = some (body', reasons)) :
    body'.AccountsAfter reasons.length false false := by
  have hprocessed := accounts_processed hfinishes pipeline event
  have heq : StreamBody.processed process pipeline event = (body', reasons) := Option.some.inj h
  rwa [heq] at hprocessed

/-- A turn of the body that waits for an event. -/
theorem accounts_awaitingEvent (hfinishes : FinishesOnce process) {pipeline : Pipeline}
    (hstep : (StreamBody.awaitingEvent pipeline).step process input = some (body', reasons)) :
    body'.AccountsAfter reasons.length false false := by
  cases input with
  | event answer =>
    match answer with
    | .ok none =>
      cases hstep
      exact ⟨rfl, rfl⟩
    | .error error =>
      cases hstep
      exact ⟨rfl, rfl⟩
    | .ok (some (.error error)) =>
      cases hstep
      exact ⟨rfl, rfl⟩
    | .ok (some (.ok event)) =>
      cases event with
      | finished requestId reason usage =>
        cases hstep
        exact ⟨rfl, rfl, rfl⟩
      | _ => exact accounts_of_processed hfinishes hstep
  | calibrated answer => cases hstep
  | poll => cases hstep

/-- A turn of the body that waits for the calibrator. -/
theorem accounts_awaitingCalibrator (hfinishes : FinishesOnce process) {pipeline : Pipeline}
    {event : EngineEvent}
    (hstep : (StreamBody.awaitingCalibrator pipeline event).step process input =
      some (body', reasons)) :
    body'.AccountsAfter reasons.length false false := by
  cases input with
  | event answer => cases hstep
  | calibrated answer =>
    match answer with
    | .ok () => exact accounts_of_processed hfinishes hstep
    | .error error =>
      cases hstep
      exact ⟨rfl, rfl⟩
  | poll => cases hstep

/-- One turn of the body keeps the account. -/
theorem accounts_step (hfinishes : FinishesOnce process) {body : StreamBody Pipeline}
    {terminations : ℕ} {completed terminalError : Bool}
    (haccounts : body.Accounts terminations completed terminalError)
    (hstep : body.step process input = some (body', reasons)) :
    body'.AccountsAfter (terminations + reasons.length) completed terminalError := by
  cases body with
  | awaitingEvent pipeline =>
    obtain ⟨rfl, rfl, rfl⟩ := haccounts
    rw [Nat.zero_add]
    exact accounts_awaitingEvent hfinishes hstep
  | awaitingCalibrator pipeline event =>
    obtain ⟨rfl, rfl, rfl⟩ := haccounts
    rw [Nat.zero_add]
    exact accounts_awaitingCalibrator hfinishes hstep
  | yielding pipeline event rest terminal =>
    cases input with
    | event answer => cases hstep
    | calibrated answer => cases hstep
    | poll =>
      cases hstep
      cases terminal with
      | false =>
        obtain ⟨rfl, rfl, rfl, hrest⟩ := haccounts
        exact accounts_deliver pipeline hrest
      | true =>
        obtain ⟨rfl, rfl, rfl⟩ := haccounts
        exact ⟨rfl, rfl⟩
  | failing error =>
    obtain ⟨rfl, rfl⟩ := haccounts
    cases input with
    | event answer => cases hstep
    | calibrated answer => cases hstep
    | poll =>
      cases hstep
      exact ⟨rfl, Bool.or_true _⟩
  | ended =>
    obtain ⟨rfl, rfl⟩ := haccounts
    cases input with
    | event answer => cases hstep
    | calibrated answer => cases hstep
    | poll =>
      cases hstep
      exact ⟨rfl, rfl⟩

end Turns

/-- A termination is missing exactly if the guard has seen neither an end nor an error. -/
theorem terminations_of_accounts {body : StreamBody Pipeline} {terminations : ℕ}
    {completed terminalError : Bool} (h : body.Accounts terminations completed terminalError) :
    terminations = if completed || terminalError then 1 else 0 := by
  cases body with
  | awaitingEvent pipeline =>
    obtain ⟨rfl, rfl, rfl⟩ := h
    rfl
  | awaitingCalibrator pipeline event =>
    obtain ⟨rfl, rfl, rfl⟩ := h
    rfl
  | yielding pipeline event rest terminal =>
    cases terminal with
    | false =>
      obtain ⟨rfl, rfl, rfl, -⟩ := h
      rfl
    | true =>
      obtain ⟨rfl, rfl, -⟩ := h
      rfl
  | failing error =>
    obtain ⟨rfl, rfl⟩ := h
    simp
  | ended =>
    obtain ⟨rfl, rfl⟩ := h
    rfl

/-- A dropped stream has one termination. -/
theorem Accounted.drop (h : Accounted stream) (hopen : stream.dropped = false) (runtime : Bool) :
    (stream.drop runtime).terminations.length = 1 := by
  have hcount := terminations_of_accounts (h.open_ hopen)
  unfold CancelOnDropStream.drop
  cases hcompleted : stream.completed with
  | true => simpa [hcompleted] using hcount
  | false =>
    cases herror : stream.terminalError with
    | true => simpa [herror] using hcount
    | false =>
      have hnone : stream.terminations.length = 0 := by simpa [hcompleted, herror] using hcount
      simp [CancelOnDropStream.record, h.traffic, hnone]

/-- Every step keeps the account. -/
theorem accounted_step (hfinishes : FinishesOnce process) (h : Accounted stream)
    (hstep : stream.step process label = some next) : Accounted next := by
  obtain ⟨hopen, ⟨input, inner, reasons, rfl, hinner, rfl⟩ | ⟨rfl, rfl⟩ | ⟨runtime, rfl, rfl⟩⟩ :=
    CancelOnDropStream.step_cases hstep
  · have haccounts := accounts_step hfinishes (h.open_ hopen) hinner
    have hlength : (CancelOnDropStream.record { stream with inner } reasons).terminations.length =
        stream.terminations.length + reasons.length := by
      simp [CancelOnDropStream.record, h.traffic]
    refine ⟨?_, ?_, ?_⟩
    · rw [CancelOnDropStream.note_traffic]
      exact h.traffic
    · rw [CancelOnDropStream.note_dropped]
      intro hdropped
      cases hopen.symm.trans hdropped
    · intro _
      rw [CancelOnDropStream.note_inner, CancelOnDropStream.note_terminations, hlength,
        CancelOnDropStream.note_completed, CancelOnDropStream.note_terminalError]
      exact haccounts
  · exact ⟨h.traffic, h.dropped, h.open_⟩
  · refine ⟨?_, fun _ => h.drop hopen runtime, ?_⟩
    · rw [CancelOnDropStream.drop_traffic]
      exact h.traffic
    · rw [CancelOnDropStream.drop_dropped]
      intro hnot
      cases hnot

/-- A new stream has no terminations yet. -/
theorem accounted_new (pipeline : Pipeline) (requestId : RequestId) :
    Accounted (CancelOnDropStream.new pipeline requestId true) where
  traffic := rfl
  dropped h := by cases h
  open_ _ := ⟨rfl, rfl, rfl⟩

end Stream

section Basic

variable {serde : Serde}

/-- A history without an end. -/
def Unfinished (_ : BasicOutputPipeline) (history : List ModelEvent) : Prop :=
  ∀ event ∈ history, isFinished event = false

theorem Unfinished.append {pipeline next : BasicOutputPipeline} {history output : List ModelEvent}
    (h : Unfinished pipeline history) (houtput : ∀ event ∈ output, isFinished event = false) :
    Unfinished next (history ++ output) := by
  intro event hmem
  rcases List.mem_append.mp hmem with hmem | hmem
  · exact h event hmem
  · exact houtput event hmem

/-- The segments of the parsers do not end the output. -/
theorem unfinished_keptBySegments : KeptBySegments serde Unfinished where
  parsers _ _ h := h
  reasoning _ _ h := h.append (by simp [isFinished])
  segment {pipeline next history output requestId segment} h hsegment := by
    cases segment with
    | text text =>
      cases hsegment
      exact h.append (by simp [isFinished])
    | call name arguments =>
      obtain ⟨first, second, started, appended, completed, hstart, happend, hcomplete, rfl⟩ :=
        of_processToolSegment_call hsegment
      obtain ⟨-, -, -, rfl⟩ := of_startToolCall hstart
      obtain ⟨-, -, -, rfl⟩ := of_appendToolArguments happend
      obtain ⟨-, -, -, -, rfl⟩ := of_completeToolCall hcomplete
      exact h.append (by simp [isFinished])

/-- An event that does not end the request does not end the output. -/
theorem unfinished_process {pipeline next : BasicOutputPipeline} {event : EngineEvent}
    {output : List ModelEvent} (hevent : terminalReason event = none)
    (h : pipeline.process serde event = .ok (next, output)) : Unfinished next output := by
  have hempty : Unfinished pipeline [] := by simp [Unfinished]
  have hone {other : ModelEvent} (hother : isFinished other = false) :
      Unfinished pipeline [other] := by simpa [Unfinished] using hother
  cases event with
  | accepted requestId =>
    cases h
    exact hone rfl
  | tokenDelta requestId sequenceNumber tokenIds =>
    simp only [BasicOutputPipeline.process] at h
    split at h
    next => cases h
    next => exact unfinished_keptBySegments.processTextDelta hempty h
  | textDelta requestId sequenceNumber text =>
    exact unfinished_keptBySegments.processTextDelta hempty h
  | reasoningDelta requestId sequenceNumber text =>
    simp only [BasicOutputPipeline.process] at h
    split at h
    next => cases h
    next =>
      cases h
      exact hone rfl
  | toolCallStarted requestId sequenceNumber callId name =>
    simp only [BasicOutputPipeline.process] at h
    split at h
    next => cases h
    next =>
      obtain ⟨-, -, -, rfl⟩ := of_startToolCall h
      exact hone rfl
  | toolCallArgumentsDelta requestId sequenceNumber callId delta =>
    obtain ⟨-, -, -, rfl⟩ := of_appendToolArguments h
    exact hone rfl
  | toolCallCompleted requestId sequenceNumber callId =>
    obtain ⟨-, -, -, -, rfl⟩ := of_completeToolCall h
    exact hone rfl
  | usageUpdate requestId usage finalUpdate =>
    cases h
    exact hone rfl
  | finished requestId reason usage => cases reason <;> cases hevent

/-- The output pipeline of `BasicModelIo` reports the end once, with the last engine event. -/
theorem finishesOnce_basic : FinishesOnce (BasicOutputPipeline.process serde) := by
  intro pipeline event next output hprocess
  cases hreason : terminalReason event with
  | none =>
    rw [if_neg (by simp)]
    exact unfinished_process hreason hprocess
  | some reason =>
    rw [if_pos (by simp)]
    cases event with
    | finished requestId reason usage =>
      obtain ⟨-, -, rfl⟩ := of_finishOutput hprocess
      exact ⟨_, rfl, rfl⟩
    | _ => cases hreason

/-- From the grant until `infer` has failed or its stream is dropped, one termination is
recorded. -/
theorem terminates_once {requestId : RequestId}
    {exchanges : List (Exchange (InferCall.Answer BasicOutputPipeline))}
    {result : Except InferenceError (CancelOnDropStream BasicOutputPipeline)}
    (hrun : (inferAdmitted true requestId).Runs exchanges result) :
    match result with
    | .error _ => exchanges.countP (fun exchange => isTermination exchange.1) = 1
    | .ok stream => ∀ labels last,
        Run (stepRel (CancelOnDropStream.step (BasicOutputPipeline.process serde))) stream labels
          last → last.dropped = true →
          exchanges.countP (fun exchange => isTermination exchange.1) +
            last.terminations.length = 1 := by
  have hcount := counts_inferAdmitted requestId exchanges result hrun
  have hnew := returns_inferAdmitted requestId exchanges result hrun
  cases result with
  | error error => exact hcount
  | ok stream =>
    intro labels last hstream hdropped
    obtain ⟨pipeline, rfl⟩ := hnew
    have haccounted := Run.invariant Accounted
      (fun _ _ _ h hstep => accounted_step finishesOnce_basic h hstep) hstream
      (accounted_new pipeline requestId)
    rw [hcount, haccounted.dropped hdropped]
    rfl

/-- Every step before the stream succeeds. -/
def servedExchanges : List (Exchange (InferCall.Answer BasicOutputPipeline)) :=
  [⟨.outputPipeline, .ok plainPipeline⟩, ⟨.planningInput, .ok (.ok idleInput)⟩,
    ⟨.selectPlan idleInput, .ok (.ok warmSelection)⟩, ⟨.adapterFor sampleTarget, .ok ()⟩,
    ⟨.acquireExecution sampleTarget, .ok ()⟩, ⟨.execute warmSelection.plan, .ok ()⟩]

theorem runs_servedExchanges : (inferAdmitted true "request").Runs servedExchanges
    (.ok (.new plainPipeline "request" true)) :=
  .ask _ (.ask _ (.ask _ (.ask _ (.ask _ (.ask _ (.done _))))))

/-- The engine finishes at once, and the consumer drops the stream after that. -/
def finishedLabels : List StreamLabel :=
  [.input (.event (.ok (some (.ok (.finished "request" .stop ⟨3, 0⟩))))),
    .input (.calibrated (.ok ())), .drop true]

/-- Then the request is recorded once, as completed. -/
theorem terminates_once_finished : ∃ last,
    Run (stepRel (CancelOnDropStream.step (BasicOutputPipeline.process sampleSerde)))
      (.new plainPipeline "request" true) finishedLabels last ∧
    last.terminations = ["completed"] ∧
    servedExchanges.countP (fun exchange => isTermination exchange.1) +
      last.terminations.length = 1 := by
  have hrun := Run.of_foldlM (rfl : finishedLabels.foldlM
    (CancelOnDropStream.step (BasicOutputPipeline.process sampleSerde))
    (.new plainPipeline "request" true) = some _)
  exact ⟨_, hrun, rfl, terminates_once runs_servedExchanges _ _ hrun rfl⟩

end Basic

end Locus.Runtime
