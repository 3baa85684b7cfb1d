import Locus.Lib.Fallible
import Locus.ModelIo.Pipeline

/-!
# What the pipeline does

One lemma for each function of the pipeline that touches calls: what it checked and what it
left behind if it succeeded.
-/

namespace Locus.ModelIo

open Locus.Core Locus.Lib Locus.Parser BasicOutputPipeline

variable {serde : Serde} {pipeline next : BasicOutputPipeline} {output : List ModelEvent}
  {requestId : RequestId} {callId name : String} {delta arguments : Text}
  {reason : EngineFinishReason} {usage : Usage}

/-- A call is started if it is requested, selected and not open. -/
theorem of_startToolCall
    (h : pipeline.startToolCall requestId callId name = .ok (next, output)) :
    pipeline.contract.requested name = true ∧ pipeline.contract.selected name = true ∧
    next = { pipeline with
      sawToolCall := true
      toolArguments := pipeline.toolArguments.insert callId [] } ∧
    output = [.toolCallStarted requestId callId name] := by
  unfold startToolCall at h
  split at h
  next => cases h
  next hallowed =>
    split at h
    next => cases h
    next =>
      cases h
      simp only [Bool.or_eq_true, Bool.not_eq_true', not_or, Bool.not_eq_false] at hallowed
      exact ⟨hallowed.1, hallowed.2, rfl, rfl⟩

/-- Arguments are added to an open call. -/
theorem of_appendToolArguments
    (h : pipeline.appendToolArguments requestId callId delta = .ok (next, output)) :
    ∃ arguments, pipeline.toolArguments[callId]? = some arguments ∧
      next = { pipeline with
        toolArguments := pipeline.toolArguments.insert callId (arguments ++ delta) } ∧
      output = [.toolCallArgumentsDelta requestId callId delta] := by
  unfold appendToolArguments at h
  split at h
  next => cases h
  next arguments hopen =>
    cases h
    exact ⟨arguments, hopen, rfl, rfl⟩

/-- An open call is completed if its arguments are a JSON object. -/
theorem of_completeToolCall
    (h : pipeline.completeToolCall serde requestId callId = .ok (next, output)) :
    ∃ arguments, pipeline.toolArguments[callId]? = some arguments ∧ serde.IsObject arguments ∧
      next = { pipeline with toolArguments := pipeline.toolArguments.erase callId } ∧
      output = [.toolCallCompleted requestId callId arguments] := by
  unfold completeToolCall at h
  split at h
  next => cases h
  next arguments hopen =>
    split at h
    next => cases h
    next value hvalue =>
      split at h
      next => cases h
      next hobject =>
        cases h
        obtain ⟨object, hobject⟩ : ∃ object, serde.asObject value = some object := by
          simpa [Option.isNone_iff_eq_none, Option.ne_none_iff_exists'] using hobject
        exact ⟨arguments, hopen, ⟨value, object, hvalue, hobject⟩, rfl, rfl⟩

/-- A parsed call is started, filled and completed at once. -/
theorem of_processToolSegment_call
    (h : pipeline.processToolSegment serde requestId (.call name arguments) = .ok (next, output)) :
    ∃ first second started appended completed,
      startToolCall { pipeline with nextToolIndex := pipeline.nextToolIndex + 1 } requestId
        (pipeline.nextCallId requestId) name = .ok (first, started) ∧
      first.appendToolArguments requestId (pipeline.nextCallId requestId) arguments =
        .ok (second, appended) ∧
      second.completeToolCall serde requestId (pipeline.nextCallId requestId) =
        .ok (next, completed) ∧
      output = started ++ appended ++ completed := by
  obtain ⟨⟨first, started⟩, hstart, h⟩ := bind_eq_ok h
  obtain ⟨⟨second, appended⟩, happend, h⟩ := bind_eq_ok h
  obtain ⟨⟨third, completed⟩, hcomplete, h⟩ := bind_eq_ok h
  cases h
  exact ⟨first, second, started, appended, completed, hstart, happend, hcomplete, rfl⟩

/-- Structured output that passes the check is a JSON object. -/
theorem isObject_of_validateStructuredOutput
    (h : pipeline.validateStructuredOutput serde = .ok ()) : serde.IsObject pipeline.text := by
  unfold validateStructuredOutput at h
  split at h
  next => cases h
  next value hvalue =>
    split at h
    next => cases h
    next hobject =>
      obtain ⟨object, hobject⟩ : ∃ object, serde.asObject value = some object := by
        simpa [Option.isNone_iff_eq_none, Option.ne_none_iff_exists'] using hobject
      exact ⟨value, object, hvalue, hobject⟩

/-- What the last check guarantees. -/
theorem of_validateCompletedOutput (h : pipeline.validateCompletedOutput serde = .ok ()) :
    (pipeline.contract.requiresJson = true → serde.IsObject pipeline.text) ∧
    pipeline.toolArguments.isEmpty = true ∧
    (pipeline.contract.requiresCall = true → pipeline.sawToolCall = true) := by
  unfold validateCompletedOutput at h
  obtain ⟨hjson, h⟩ := optional_eq_ok h
  obtain ⟨hopen, h⟩ := guard_eq_ok h
  refine ⟨fun hrequired => isObject_of_validateStructuredOutput (hjson hrequired),
    by simpa using hopen, fun hrequired => ?_⟩
  split at h
  next => cases h
  next hsaw => simpa [hrequired] using hsaw

/-- What the last event of a successful sequence is. -/
theorem of_finishOutput
    (h : pipeline.finishOutput serde requestId reason usage = .ok (next, output)) :
    next = pipeline ∧ pipeline.validateCompletedOutput serde = .ok () ∧
      output = [.finished requestId (pipeline.reportedReason reason) usage] := by
  unfold finishOutput at h
  obtain ⟨_, -, h⟩ := bind_eq_ok h
  obtain ⟨_, hvalid, h⟩ := bind_eq_ok h
  obtain ⟨-, h⟩ := guard_eq_ok h
  cases h
  exact ⟨rfl, hvalid, rfl⟩

/-- A property of the pipeline and its history that reasoning and the segments of the tool
parser keep, whatever the parsers hold. -/
structure KeptBySegments (serde : Serde)
    (Inv : BasicOutputPipeline → List ModelEvent → Prop) : Prop where
  parsers {pipeline : BasicOutputPipeline} {history : List ModelEvent}
    (reasoningParser : Option TaggedReasoningParserState)
    (toolParser : Option TaggedJsonToolParserState) : Inv pipeline history →
    Inv { pipeline with reasoningParser, toolParser } history
  reasoning {pipeline : BasicOutputPipeline} {history : List ModelEvent} (requestId : RequestId)
    (text : Text) : Inv pipeline history →
    Inv pipeline (history ++ [.reasoningDelta requestId text])
  segment {pipeline next : BasicOutputPipeline} {history output : List ModelEvent}
    {requestId : RequestId} {segment : ToolSegment} : Inv pipeline history →
    pipeline.processToolSegment serde requestId segment = .ok (next, output) →
    Inv next (history ++ output)

namespace KeptBySegments

variable {Inv : BasicOutputPipeline → List ModelEvent → Prop} {history : List ModelEvent}
  {text : Text}

/-- Such a property is kept by visible text. -/
theorem processVisibleText (hkept : KeptBySegments serde Inv) (hinv : Inv pipeline history)
    (h : pipeline.processVisibleText serde requestId text = .ok (next, output)) :
    Inv next (history ++ output) := by
  unfold BasicOutputPipeline.processVisibleText at h
  split at h
  next =>
    split at h
    next => cases h
    next parser segments hpush =>
      exact pushAll_induction hkept.segment
        (hkept.parsers pipeline.reasoningParser (some parser) hinv) h
  next => exact pushAll_induction hkept.segment hinv h

/-- Such a property is kept by the segments of the reasoning parser. -/
theorem processReasoningSegment {segment : ReasoningSegment} (hkept : KeptBySegments serde Inv)
    (hinv : Inv pipeline history)
    (h : pipeline.processReasoningSegment serde requestId segment = .ok (next, output)) :
    Inv next (history ++ output) := by
  cases segment with
  | reasoning text =>
    cases h
    exact hkept.reasoning requestId text hinv
  | text text => exact hkept.processVisibleText hinv h

/-- Such a property is kept by all text. -/
theorem processTextDelta (hkept : KeptBySegments serde Inv) (hinv : Inv pipeline history)
    (h : pipeline.processTextDelta serde requestId text = .ok (next, output)) :
    Inv next (history ++ output) := by
  unfold BasicOutputPipeline.processTextDelta at h
  split at h
  next =>
    split at h
    next => cases h
    next parser segments hpush =>
      exact pushAll_induction hkept.processReasoningSegment
        (hkept.parsers (some parser) pipeline.toolParser hinv) h
  next => exact pushAll_induction hkept.processReasoningSegment hinv h

end KeptBySegments

end Locus.ModelIo
