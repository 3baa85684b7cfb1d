import Locus.Runtime.InferStream

/-!
# Cancelling the engine when a stream is dropped

A stream that is dropped before it has yielded the end of the output should cancel its request.
The guard takes the end of the stream for the end of the output, but after an error the stream
ends without one. So the request is cancelled exactly if the consumer has not polled the stream
to its end.
-/

namespace Locus.Runtime

open Locus.Core Locus.Engine Locus.Lib Locus.ModelIo Locus.Parser

variable {Pipeline : Type} {process : PipelineProcess Pipeline} {requestId : RequestId}
  {stream next : CancelOnDropStream Pipeline} {label : StreamLabel}

/-- The end of the output was yielded. -/
def YieldedFinished (stream : CancelOnDropStream Pipeline) : Prop :=
  ∃ event, .ok event ∈ stream.yielded ∧ isFinished event = true

/-- The consumer has been told that there is nothing left. -/
def PolledToEnd (stream : CancelOnDropStream Pipeline) : Prop := stream.inner = .ended

/-- What the guard knows of the stream. -/
structure Watched (requestId : RequestId) (stream : CancelOnDropStream Pipeline) : Prop where
  requestId_eq : stream.requestId = requestId
  engineCancels : stream.dropped = false → stream.engineCancels = []
  completed_iff : stream.completed = true ↔ PolledToEnd stream ∨ YieldedFinished stream

/-- A stream that has ended stays at its end. -/
theorem ended_step {input : StreamInput} {body : StreamBody Pipeline} {reasons : List String}
    (h : StreamBody.step process .ended input = some (body, reasons)) : body = .ended := by
  cases input with
  | event answer => cases h
  | calibrated answer => cases h
  | poll =>
    cases h
    rfl

/-- The turn of the body that brought it here has yielded the end of the output. -/
def StreamBody.FinishedNow (body : StreamBody Pipeline) : Prop :=
  ∃ event, body.polled = .ready (some (.ok event)) ∧ isFinished event = true

/-- A poll completes the stream if it tells of its end or yields the end of the output. -/
theorem completes_iff (body : StreamBody Pipeline) :
    body.polled.completes = true ↔ body = .ended ∨ body.FinishedNow := by
  cases body with
  | awaitingEvent pipeline => simp [StreamBody.FinishedNow, StreamBody.polled, Poll.completes]
  | awaitingCalibrator pipeline event =>
    simp [StreamBody.FinishedNow, StreamBody.polled, Poll.completes]
  | yielding pipeline event rest terminal =>
    simp [StreamBody.FinishedNow, StreamBody.polled, Poll.completes]
  | failing error => simp [StreamBody.FinishedNow, StreamBody.polled, Poll.completes]
  | ended => simp [StreamBody.polled, Poll.completes]

/-- The end of the output was yielded before, or it is yielded by this poll. -/
theorem yieldedFinished_note (stream : CancelOnDropStream Pipeline) (body : StreamBody Pipeline) :
    YieldedFinished (stream.note body.polled) ↔ YieldedFinished stream ∨ body.FinishedNow := by
  unfold YieldedFinished StreamBody.FinishedNow
  cases body with
  | awaitingEvent pipeline => simp [StreamBody.polled, CancelOnDropStream.note]
  | awaitingCalibrator pipeline event => simp [StreamBody.polled, CancelOnDropStream.note]
  | yielding pipeline event rest terminal =>
    simp [StreamBody.polled, CancelOnDropStream.note, or_and_right, exists_or]
  | failing error => simp [StreamBody.polled, CancelOnDropStream.note]
  | ended => simp [StreamBody.polled, CancelOnDropStream.note]

/-- Every step keeps what the guard knows. -/
theorem watched_step (h : Watched requestId stream)
    (hstep : stream.step process label = some next) (hnext : next.dropped = false) :
    Watched requestId next := by
  obtain ⟨hopen, ⟨input, inner, reasons, rfl, hinner, rfl⟩ | ⟨rfl, rfl⟩ | ⟨runtime, rfl, rfl⟩⟩ :=
    CancelOnDropStream.step_cases hstep
  · have hstays : PolledToEnd stream → inner = .ended := by
      intro hended
      rw [hended] at hinner
      exact ended_step hinner
    refine ⟨?_, ?_, ?_⟩
    · rw [CancelOnDropStream.note_requestId]
      exact h.requestId_eq
    · rw [CancelOnDropStream.note_engineCancels]
      intro _
      exact h.engineCancels hopen
    · rw [CancelOnDropStream.note_completed, Bool.or_eq_true, completes_iff,
        yieldedFinished_note, PolledToEnd, CancelOnDropStream.note_inner]
      have hbefore : stream.completed = true ↔ PolledToEnd stream ∨ YieldedFinished stream :=
        h.completed_iff
      change (stream.completed = true ∨ inner = .ended ∨ inner.FinishedNow) ↔
        inner = .ended ∨ YieldedFinished stream ∨ inner.FinishedNow
      rw [hbefore]
      tauto
  · exact ⟨h.requestId_eq, h.engineCancels, h.completed_iff⟩
  · rw [CancelOnDropStream.drop_dropped] at hnext
    cases hnext

/-- The guard knows everything of a new stream. -/
theorem watched_new (pipeline : Pipeline) (requestId : RequestId) (traffic : Bool) :
    Watched requestId (CancelOnDropStream.new pipeline requestId traffic) where
  requestId_eq := rfl
  engineCancels _ := rfl
  completed_iff := by simp [CancelOnDropStream.new, PolledToEnd, YieldedFinished]

/-- In every run the guard knows what the consumer has polled. -/
theorem watched_of_run {pipeline : Pipeline} {traffic : Bool} {labels : List StreamLabel}
    (hrun : Run (stepRel (CancelOnDropStream.step process)) (.new pipeline requestId traffic)
      labels stream) (hopen : stream.dropped = false) : Watched requestId stream := by
  refine Run.invariant (fun stream : CancelOnDropStream Pipeline =>
    stream.dropped = false → Watched requestId stream) ?_ hrun
    (fun _ => watched_new pipeline requestId traffic) hopen
  intro stream label next hwatched hstep hnext
  have hbefore := (CancelOnDropStream.step_cases hstep).1
  exact watched_step (hwatched hbefore) hstep hnext

/-- A stream that is dropped before it has yielded the end of the output cancels its request at
the token and at the engine, exactly if it was not polled to its end. -/
theorem cancels_iff {pipeline : Pipeline} {traffic : Bool} {labels : List StreamLabel}
    (hrun : Run (stepRel (CancelOnDropStream.step process)) (.new pipeline requestId traffic)
      labels stream) (hdrop : stream.step process (.drop true) = some next)
    (hunfinished : ¬ YieldedFinished stream) :
    next.cancelled = true ∧ requestId ∈ next.engineCancels ↔ ¬ PolledToEnd stream := by
  obtain ⟨hopen, ⟨input, inner, reasons, hlabel, -, -⟩ | ⟨hlabel, -⟩ | ⟨runtime, hlabel, rfl⟩⟩ :=
    CancelOnDropStream.step_cases hdrop
  · cases hlabel
  · cases hlabel
  · cases hlabel
    have hwatched := watched_of_run hrun hopen
    have hcompleted : stream.completed = true ↔ PolledToEnd stream := by
      rw [hwatched.completed_iff, or_iff_left hunfinished]
    rw [← hcompleted, CancelOnDropStream.drop]
    have hnone := hwatched.engineCancels hopen
    cases hend : stream.completed with
    | true => simp [hnone]
    | false => simp [hwatched.requestId_eq]

/-- The engine sends tokens that the pipeline cannot decode. -/
def undecodable : StreamLabel := .input (.event (.ok (some (.ok (.tokenDelta "request" 0 [7])))))

/-- The consumer drops the stream when it sees the error. -/
theorem cancels_iff_undecodable : ∃ stream next,
    Run (stepRel (CancelOnDropStream.step (BasicOutputPipeline.process sampleSerde)))
      (.new plainPipeline "request" true) [undecodable] stream ∧
    stream.step (BasicOutputPipeline.process sampleSerde) (.drop true) = some next ∧
    next.cancelled = true ∧ "request" ∈ next.engineCancels := by
  have hrun := Run.of_foldlM (rfl : [undecodable].foldlM
    (CancelOnDropStream.step (BasicOutputPipeline.process sampleSerde))
    (.new plainPipeline "request" true) = some _)
  refine ⟨_, _, hrun, rfl, (cancels_iff hrun rfl ?_).mpr ?_⟩
  · rintro ⟨event, hmem, -⟩
    cases List.mem_singleton.mp hmem
  · intro hended
    cases hended

/-- The consumer polls once more before it drops the stream. Then nothing is cancelled while the
engine goes on. -/
theorem not_cancels_polledToEnd : ∃ next,
    Run (stepRel (CancelOnDropStream.step (BasicOutputPipeline.process sampleSerde)))
      (.new plainPipeline "request" true) [undecodable, .input .poll, .drop true] next ∧
    next.dropped = true ∧ ¬ YieldedFinished next ∧
    next.cancelled = false ∧ next.engineCancels = [] := by
  have hrun := Run.of_foldlM (rfl : [undecodable, .input .poll, .drop true].foldlM
    (CancelOnDropStream.step (BasicOutputPipeline.process sampleSerde))
    (.new plainPipeline "request" true) = some _)
  refine ⟨_, hrun, rfl, ?_, rfl, rfl⟩
  rintro ⟨event, hmem, -⟩
  cases List.mem_singleton.mp hmem

end Locus.Runtime
