import Locus.Lib.Runs
import Locus.Runtime.PlanningInput

/-!
# The stream of an admitted request

`infer` returns a stream. Its body waits for engine events, passes them through the output
pipeline and yields what comes out; a guard around it watches what the consumer has polled and
cancels the request when it is dropped too early. The engine, the calibrator and the consumer
decide what happens next, so that a run is any sequence of their moves. The times that go into
an observation of the calibrator are left out.
-/

namespace Locus.Runtime

open Locus.Core Locus.Engine Locus.Lib Locus.ModelIo

/-- A `ModelOutputPipeline`: what its `process` makes of an engine event. -/
abbrev PipelineProcess (Pipeline : Type) :=
  Pipeline → EngineEvent → Except ModelIoError (Pipeline × List ModelEvent)

/-- `context_termination_reason` -/
def contextTerminationReason : ContextError → String
  | .cancelled => "cancelled"
  | .deadlineExceeded => "deadline"

/-- The reason under which an event ends a request. -/
def terminalReason : EngineEvent → Option String
  | .finished _ .cancelled _ => some "cancelled"
  | .finished _ .error _ => some "engine_error"
  | .finished _ _ _ => some "completed"
  | _ => none

section Body

variable {Pipeline : Type}

/-- Where the stream body is suspended: it waits for the engine or for the calibrator, or it has
yielded an item and was not polled since, or it has ended. -/
inductive StreamBody (Pipeline : Type)
  | awaitingEvent (pipeline : Pipeline)
  | awaitingCalibrator (pipeline : Pipeline) (event : EngineEvent)
  | yielding (pipeline : Pipeline) (event : ModelEvent) (rest : List ModelEvent) (terminal : Bool)
  | failing (error : InferenceError)
  | ended

/-- What the body waits for: an engine event or the calibrator, both under the context of the
request, or the next poll. That the calibrator fails is only logged. -/
inductive StreamInput
  | event (answer : Except ContextError (Option (Except EngineError EngineEvent)))
  | calibrated (answer : Except ContextError Unit)
  | poll

/-- The loop over the processed events. -/
def StreamBody.deliver (pipeline : Pipeline) (terminal : Bool) : List ModelEvent →
    StreamBody Pipeline
  | [] => if terminal then .ended else .awaitingEvent pipeline
  | event :: rest => .yielding pipeline event rest terminal

/-- An event goes through the pipeline. With the new state come the reasons of the terminations
that are recorded. -/
def StreamBody.processed (process : PipelineProcess Pipeline) (pipeline : Pipeline)
    (event : EngineEvent) : StreamBody Pipeline × List String :=
  match process pipeline event with
  | .error error => (.failing (.modelIo error), ["request_error"])
  | .ok (pipeline, processed) =>
    (deliver pipeline (terminalReason event).isSome processed, (terminalReason event).toList)

/-- One turn of the stream body of `infer`. -/
def StreamBody.step (process : PipelineProcess Pipeline) :
    StreamBody Pipeline → StreamInput → Option (StreamBody Pipeline × List String)
  | .awaitingEvent pipeline, .event answer =>
    match answer with
    | .ok none => some (.failing (.engine (.execution
        "engine stream ended without a terminal event")), ["engine_error"])
    | .error error => some (.failing (.context error), [contextTerminationReason error])
    | .ok (some (.error error)) => some (.failing (.engine error), ["engine_error"])
    | .ok (some (.ok event)) =>
      match event with
      | .finished _ _ _ => some (.awaitingCalibrator pipeline event, [])
      | _ => some (processed process pipeline event)
  | .awaitingCalibrator pipeline event, .calibrated answer =>
    match answer with
    | .ok () => some (processed process pipeline event)
    | .error error => some (.failing (.context error), [contextTerminationReason error])
  | .yielding pipeline _ rest terminal, .poll => some (deliver pipeline terminal rest, [])
  | .failing _, .poll => some (.ended, [])
  | .ended, .poll => some (.ended, [])
  | _, _ => none

/-- What a poll returns. -/
inductive Poll
  | pending
  | ready (item : Option (Except InferenceError ModelEvent))

/-- What the poll returns that brought the body here. -/
def StreamBody.polled : StreamBody Pipeline → Poll
  | .awaitingEvent _ | .awaitingCalibrator _ _ => .pending
  | .yielding _ event _ _ => .ready (some (.ok event))
  | .failing error => .ready (some (.error error))
  | .ended => .ready none

end Body

section Guard

variable {Pipeline : Type}

/-- The event that ends a stream. -/
def isFinished : ModelEvent → Bool
  | .finished _ _ _ => true
  | _ => false

/-- `CancelOnDropStream`, with what can be seen of it: whether it was dropped, the items that were
yielded, the terminations that were recorded, whether the cancellation token of the request is
cancelled, and the requests for which `adapter.cancel` was issued. -/
structure CancelOnDropStream (Pipeline : Type) where
  inner : StreamBody Pipeline
  requestId : RequestId
  traffic : Bool
  completed : Bool := false
  terminalError : Bool := false
  dropped : Bool := false
  yielded : List (Except InferenceError ModelEvent) := []
  terminations : List String := []
  cancelled : Bool := false
  engineCancels : List RequestId := []

/-- The stream that `infer` returns. -/
def CancelOnDropStream.new (pipeline : Pipeline) (requestId : RequestId) (traffic : Bool) :
    CancelOnDropStream Pipeline where
  inner := .awaitingEvent pipeline
  requestId := requestId
  traffic := traffic

/-- `record_traffic_termination`, for each reason. -/
def CancelOnDropStream.record (stream : CancelOnDropStream Pipeline) (reasons : List String) :
    CancelOnDropStream Pipeline :=
  { stream with
    terminations := stream.terminations ++ if stream.traffic then reasons else [] }

/-- `poll_next`: what the guard notes of a poll. -/
def CancelOnDropStream.note (stream : CancelOnDropStream Pipeline) :
    Poll → CancelOnDropStream Pipeline
  | .pending => stream
  | .ready none => { stream with completed := true }
  | .ready (some (.ok event)) => { stream with
      completed := stream.completed || isFinished event
      yielded := stream.yielded ++ [.ok event] }
  | .ready (some (.error error)) => { stream with
      terminalError := true
      yielded := stream.yielded ++ [.error error] }

/-- `CancelOnDropStream::drop`. A runtime may be current or not. -/
def CancelOnDropStream.drop (stream : CancelOnDropStream Pipeline) (runtime : Bool) :
    CancelOnDropStream Pipeline :=
  if stream.completed then { stream with dropped := true }
  else
    let recorded := if stream.terminalError then stream else stream.record ["client_cancelled"]
    { recorded with
      dropped := true
      cancelled := true
      engineCancels := stream.engineCancels ++ if runtime then [stream.requestId] else [] }

/-- What happens to a stream: its body moves on, someone cancels the request, or the consumer
drops it. -/
inductive StreamLabel
  | input (input : StreamInput)
  | cancel
  | drop (runtime : Bool)

/-- One step of a stream that was not dropped. -/
def CancelOnDropStream.step (process : PipelineProcess Pipeline)
    (stream : CancelOnDropStream Pipeline) (label : StreamLabel) :
    Option (CancelOnDropStream Pipeline) :=
  if stream.dropped then none
  else
    match label with
    | .input input => (stream.inner.step process input).map fun (inner, reasons) =>
        ({ stream with inner }.record reasons).note inner.polled
    | .cancel => some { stream with cancelled := true }
    | .drop runtime => some (stream.drop runtime)

section Note

variable (stream : CancelOnDropStream Pipeline) (poll : Poll)

/-- Whether a poll completes the stream. -/
def Poll.completes : Poll → Bool
  | .pending => false
  | .ready none => true
  | .ready (some (.ok event)) => isFinished event
  | .ready (some (.error _)) => false

/-- Whether a poll fails. -/
def Poll.fails : Poll → Bool
  | .ready (some (.error _)) => true
  | _ => false

@[simp] theorem CancelOnDropStream.note_inner : (stream.note poll).inner = stream.inner := by
  rcases poll with _ | _ | _ | _ <;> rfl

@[simp] theorem CancelOnDropStream.note_traffic : (stream.note poll).traffic = stream.traffic := by
  rcases poll with _ | _ | _ | _ <;> rfl

@[simp] theorem CancelOnDropStream.note_dropped : (stream.note poll).dropped = stream.dropped := by
  rcases poll with _ | _ | _ | _ <;> rfl

@[simp] theorem CancelOnDropStream.note_terminations :
    (stream.note poll).terminations = stream.terminations := by
  rcases poll with _ | _ | _ | _ <;> rfl

@[simp] theorem CancelOnDropStream.note_requestId :
    (stream.note poll).requestId = stream.requestId := by
  rcases poll with _ | _ | _ | _ <;> rfl

@[simp] theorem CancelOnDropStream.note_engineCancels :
    (stream.note poll).engineCancels = stream.engineCancels := by
  rcases poll with _ | _ | _ | _ <;> rfl

@[simp] theorem CancelOnDropStream.note_completed :
    (stream.note poll).completed = (stream.completed || poll.completes) := by
  rcases poll with _ | _ | _ | _ <;> simp [note, Poll.completes]

@[simp] theorem CancelOnDropStream.note_terminalError :
    (stream.note poll).terminalError = (stream.terminalError || poll.fails) := by
  rcases poll with _ | _ | _ | _ <;> simp [note, Poll.fails]

end Note

@[simp] theorem CancelOnDropStream.drop_dropped (stream : CancelOnDropStream Pipeline)
    (runtime : Bool) : (stream.drop runtime).dropped = true := by
  unfold drop
  split_ifs <;> rfl

@[simp] theorem CancelOnDropStream.drop_traffic (stream : CancelOnDropStream Pipeline)
    (runtime : Bool) : (stream.drop runtime).traffic = stream.traffic := by
  unfold drop record
  split_ifs <;> rfl

/-- What a step does: the body takes a turn, the request is cancelled, or the stream is
dropped. -/
theorem CancelOnDropStream.step_cases {process : PipelineProcess Pipeline}
    {stream next : CancelOnDropStream Pipeline} {label : StreamLabel}
    (h : stream.step process label = some next) :
    stream.dropped = false ∧
    ((∃ input inner reasons, label = .input input ∧
      stream.inner.step process input = some (inner, reasons) ∧
      next = ({ stream with inner }.record reasons).note inner.polled) ∨
    (label = .cancel ∧ next = { stream with cancelled := true }) ∨
    ∃ runtime, label = .drop runtime ∧ next = stream.drop runtime) := by
  unfold step at h
  split_ifs at h with hdropped
  refine ⟨by simpa using hdropped, ?_⟩
  cases label with
  | input input =>
    obtain ⟨⟨inner, reasons⟩, hinner, hnext⟩ := Option.map_eq_some_iff.mp h
    exact .inl ⟨input, inner, reasons, rfl, hinner, hnext.symm⟩
  | cancel => exact .inr (.inl ⟨rfl, (Option.some.inj h).symm⟩)
  | drop runtime => exact .inr (.inr ⟨runtime, rfl, (Option.some.inj h).symm⟩)

end Guard

/-- The output pipeline of a request without parsers, whose decoder knows no tokens. -/
def plainPipeline : BasicOutputPipeline := outputPipeline sampleDecoder none none sampleContract

end Locus.Runtime
