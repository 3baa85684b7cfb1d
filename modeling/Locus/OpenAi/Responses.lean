import Locus.Lib.Emit
import Locus.Lib.Fallible
import Locus.OpenAi.Output
import Std.Data.TreeMap

/-!
# The Responses protocol

`responses_sse` streams a response as it is produced, `collect_response` returns it at the
end. The stream numbers the items as they begin and keeps the numbers in its own variables.
-/

namespace Locus.OpenAi

open Std (TreeMap)
open Locus.Core Locus.Lib Locus.ModelIo Locus.Parser

/-- The body of an error, as `api_error_from_inference` gives it. -/
structure ApiError where
  message : String
  errorType : String
  param : Option String
  code : Option String
  deriving DecidableEq

/-- The events of a response stream. An index that is missing is `null`. -/
inductive ResponseEvent
  | created (response : ResponseValue)
  | outputItemAdded (outputIndex : ℕ) (item : OutputItem)
  | contentPartAdded (itemId : String) (outputIndex contentIndex : ℕ) (text : Text)
  | outputTextDelta (itemId : String) (outputIndex : Option ℕ) (contentIndex : ℕ) (delta : Text)
  | reasoningSummaryTextDelta (itemId : String) (delta : Text)
  | functionCallArgumentsDelta (itemId : String) (outputIndex : Option ℕ) (delta : Text)
  | functionCallArgumentsDone (itemId : String) (outputIndex : Option ℕ) (arguments : Text)
  | outputTextDone (itemId : String) (outputIndex : Option ℕ) (contentIndex : ℕ) (text : Text)
  | contentPartDone (itemId : String) (outputIndex : Option ℕ) (contentIndex : ℕ) (text : Text)
  | reasoningSummaryTextDone (itemId : String) (text : Text)
  | outputItemDone (outputIndex : Option ℕ) (item : OutputItem)
  | completed (response : ResponseValue)
  | error (error : ApiError)
  deriving DecidableEq

/-- The variables of `responses_sse`. -/
structure ResponsesState where
  output : OutputAccumulator := {}
  textStarted : Bool := false
  reasoningStarted : Bool := false
  nextOutputIndex : ℕ := 0
  textOutputIndex : Option ℕ := none
  reasoningOutputIndex : Option ℕ := none
  toolOutputIndices : TreeMap String ℕ := ∅

variable (requestId model : String)

namespace ResponsesState

/-- The item of a call that has just started. -/
def startedCall (callId name : String) : OutputItem :=
  .functionCall callId callId name [] "in_progress"

/-- The `match` of `responses_sse`: the events before the accumulator is updated. -/
def react (state : ResponsesState) : ModelEvent → ResponsesState × List ResponseEvent
  | .accepted _ => (state, [.created (responseShell requestId model "in_progress")])
  | .textDelta _ text =>
    if state.textStarted then
      (state, [.outputTextDelta (messageId requestId) state.textOutputIndex 0 text])
    else
      let outputIndex := state.nextOutputIndex
      ({ state with
          textStarted := true
          nextOutputIndex := outputIndex + 1
          textOutputIndex := some outputIndex },
        [.outputItemAdded outputIndex (messageItem requestId "in_progress" []),
          .contentPartAdded (messageId requestId) outputIndex 0 [],
          .outputTextDelta (messageId requestId) (some outputIndex) 0 text])
  | .reasoningDelta _ text =>
    if state.reasoningStarted then
      (state, [.reasoningSummaryTextDelta (reasoningId requestId) text])
    else
      let outputIndex := state.nextOutputIndex
      ({ state with
          reasoningStarted := true
          nextOutputIndex := outputIndex + 1
          reasoningOutputIndex := some outputIndex },
        [.outputItemAdded outputIndex (reasoningItem requestId "in_progress" []),
          .reasoningSummaryTextDelta (reasoningId requestId) text])
  | .toolCallStarted _ callId name =>
    let index := state.nextOutputIndex
    ({ state with
        nextOutputIndex := index + 1
        toolOutputIndices := state.toolOutputIndices.insert callId index },
      [.outputItemAdded index (startedCall callId name)])
  | .toolCallArgumentsDelta _ callId delta =>
    (state, [.functionCallArgumentsDelta callId state.toolOutputIndices[callId]? delta])
  | .toolCallCompleted _ callId arguments =>
    (state, [.functionCallArgumentsDone callId state.toolOutputIndices[callId]? arguments])
  | .finished _ _ _ =>
    (state,
      (if state.textStarted then
        [.outputTextDone (messageId requestId) state.textOutputIndex 0 state.output.text,
          .contentPartDone (messageId requestId) state.textOutputIndex 0 state.output.text,
          .outputItemDone state.textOutputIndex
            (messageItem requestId "completed" state.output.text)]
      else []) ++
      if state.reasoningStarted then
        [.reasoningSummaryTextDone (reasoningId requestId) state.output.reasoning,
          .outputItemDone state.reasoningOutputIndex
            (reasoningItem requestId "completed" state.output.reasoning)]
      else [])
  | .usage _ _ _ => (state, [])

/-- The event after a completed call, for the tool that was started last. -/
def lastToolDone (state : ResponsesState) : ModelEvent → List ResponseEvent
  | .toolCallCompleted _ _ _ =>
    match state.output.tools.getLast? with
    | none => []
    | some tool =>
      [.outputItemDone state.toolOutputIndices[tool.callId]? (tool.value "completed")]
  | _ => []

/-- The variables after an event. -/
def next (state : ResponsesState) (event : ModelEvent) : ResponsesState :=
  let reacted := (state.react requestId model event).1
  { reacted with output := reacted.output.apply event }

/-- What is sent for an event, except for the last one. -/
def sent (state : ResponsesState) (event : ModelEvent) : List ResponseEvent :=
  (state.react requestId model event).2 ++ (state.next requestId model event).lastToolDone event

/-- One turn of the loop of `responses_sse`. -/
def step (state : ResponsesState) (result : Except ApiError ModelEvent) :
    Except (List ResponseEvent) (ResponsesState × List ResponseEvent) :=
  match result with
  | .error error => .error [.error error]
  | .ok event =>
    let after := state.next requestId model event
    match event with
    | .finished _ _ _ =>
      .error (state.sent requestId model event ++
        [.completed (after.output.responseValue requestId model)])
    | _ => .ok (after, state.sent requestId model event)

end ResponsesState

/-- `responses_sse` -/
def responsesSse (stream : List (Except ApiError ModelEvent)) : List ResponseEvent :=
  emitAll (ResponsesState.step requestId model) {} stream

/-- The loop of the collectors. -/
def collect (stream : List (Except ApiError ModelEvent)) : Except ApiError OutputAccumulator :=
  stream.foldlM (fun output result => result.map output.apply) {}

/-- `collect_response` -/
def collectResponse (stream : List (Except ApiError ModelEvent)) :
    Except ApiError ResponseValue :=
  (collect stream).map fun output => output.responseValue requestId model

/-- A stream without errors is collected. -/
theorem collect_map_ok (events : List ModelEvent) :
    collect (events.map .ok) = .ok (OutputAccumulator.after events) :=
  foldlM_map_ok _ events _

end Locus.OpenAi
