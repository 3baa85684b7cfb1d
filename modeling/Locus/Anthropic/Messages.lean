import Locus.Lib.Emit
import Locus.ModelIo.Pipeline

/-!
# The Messages protocol

`messages_sse` streams a message block by block, `collect_message` returns it at the end.
The stream keeps one active block and breaks off when an event does not belong to it; the
collector adds to its last block and skips what does not belong there. Indices are natural
numbers.
-/

namespace Locus.Anthropic

open Locus.Core Locus.Lib Locus.ModelIo Locus.Parser

structure ApiError where
  status : ℕ
  errorType : String
  message : String
  requestId : Option String := none
  deriving DecidableEq

/-- `ApiError::with_request_id` -/
def ApiError.withRequestId (error : ApiError) (requestId : String) : ApiError :=
  { error with requestId := some requestId }

/-- The errors that the encoders make themselves. -/
def apiError (message : String) : ApiError :=
  ⟨500, "api_error", message, none⟩

/-- `parse_tool_input` -/
def parseToolInput (serde : Serde) (arguments : Text) : Except ApiError serde.Value :=
  match serde.fromStr arguments with
  | .error _ => .error (apiError "tool input was not valid JSON")
  | .ok value =>
    if (serde.asObject value).isSome then .ok value
    else .error (apiError "tool input must be a JSON object")

/-- `anthropic_stop_reason` -/
def anthropicStopReason : Option ModelFinishReason → String
  | some .length => "max_tokens"
  | some .toolCall => "tool_use"
  | some .contentFilter => "refusal"
  | _ => "end_turn"

/-- The reasons for which there is no message. -/
def isFailure : ModelFinishReason → Bool
  | .cancelled | .error => true
  | _ => false

inductive OutputBlock
  | text (text : Text)
  | tool (id name : String) (arguments : Text)
  deriving DecidableEq

/-- A block of the collected message. -/
inductive ContentValue (serde : Serde)
  | text (text : Text)
  | toolUse (id name : String) (input : serde.Value)

structure MessageAccumulator where
  content : List OutputBlock := []
  usage : Usage := ⟨0, 0⟩
  finish : Option ModelFinishReason := none

namespace MessageAccumulator

/-- `MessageAccumulator::apply` -/
def apply (output : MessageAccumulator) : ModelEvent → MessageAccumulator
  | .textDelta _ text => { output with
      content :=
        match output.content.getLast? with
        | some (.text current) => output.content.dropLast ++ [.text (current ++ text)]
        | _ => output.content ++ [.text text] }
  | .toolCallStarted _ callId name =>
    { output with content := output.content ++ [.tool callId name []] }
  | .toolCallArgumentsDelta _ callId delta => { output with
      content :=
        match output.content.getLast? with
        | some (.tool id name arguments) =>
          if id = callId then output.content.dropLast ++ [.tool id name (arguments ++ delta)]
          else output.content
        | _ => output.content }
  | .usage _ usage _ => { output with usage }
  | .finished _ reason usage => { output with finish := some reason, usage }
  | .accepted _ | .reasoningDelta _ _ | .toolCallCompleted _ _ _ => output

/-- The accumulator after a sequence of events. -/
def after (events : List ModelEvent) : MessageAccumulator :=
  events.foldl apply {}

end MessageAccumulator

/-- A block of the collected message, if the input of a call is an object. -/
def OutputBlock.value (serde : Serde) : OutputBlock → Except ApiError (ContentValue serde)
  | .text content => .ok (.text content)
  | .tool id name arguments => (parseToolInput serde arguments).map (.toolUse id name)

/-- `MessageAccumulator::content_value` -/
def MessageAccumulator.contentValue (serde : Serde) (output : MessageAccumulator) :
    Except ApiError (List (ContentValue serde)) :=
  output.content.mapM (OutputBlock.value serde)

/-- The body of a message. -/
structure MessageValue (serde : Serde) where
  id : String
  content : List (ContentValue serde)
  model : String
  stopReason : String
  usage : Usage

/-- The loop of `collect_message`. -/
def collect (stream : List (Except ApiError ModelEvent)) : Except ApiError MessageAccumulator :=
  stream.foldlM (fun output result => result.map output.apply) {}

/-- `collect_message` -/
def collectMessage (serde : Serde) (requestId model : String)
    (stream : List (Except ApiError ModelEvent)) : Except ApiError (MessageValue serde) :=
  match collect stream with
  | .error error => .error (error.withRequestId requestId)
  | .ok output =>
    if output.finish.any isFailure then
      .error ((apiError "model execution did not complete successfully").withRequestId requestId)
    else
      match output.contentValue serde with
      | .error error => .error (error.withRequestId requestId)
      | .ok content =>
        .ok ⟨requestId, content, model, anthropicStopReason output.finish, output.usage⟩

/-- A block as it begins. -/
inductive StartedBlock
  | text
  | toolUse (id name : String)
  deriving DecidableEq

inductive BlockDelta
  | textDelta (text : Text)
  | inputJsonDelta (partialJson : Text)
  deriving DecidableEq

/-- The events of a message stream. -/
inductive MessageEvent
  | messageStart (id model : String) (usage : Usage)
  | contentBlockStart (index : ℕ) (block : StartedBlock)
  | contentBlockDelta (index : ℕ) (delta : BlockDelta)
  | contentBlockStop (index : ℕ)
  | messageDelta (stopReason : String) (outputTokens : UInt64)
  | messageStop
  | error (errorType message : String)
  deriving DecidableEq

/-- `stream_error` -/
def streamError (error : ApiError) : MessageEvent :=
  .error error.errorType error.message

inductive ActiveBlock
  | text (index : ℕ)
  | tool (index : ℕ) (id : String) (arguments : Text)
  deriving DecidableEq

structure StreamState where
  started : Bool := false
  nextIndex : ℕ := 0
  active : Option ActiveBlock := none
  usage : Usage := ⟨0, 0⟩

/-- A turn of the loop: it breaks off with its last events, or it goes on. -/
abbrev Turn := Except (List MessageEvent) (StreamState × List MessageEvent)

namespace StreamState

variable (serde : Serde)

/-- `StreamState::close_active` -/
def closeActive (state : StreamState) : Except ApiError (StreamState × List MessageEvent) :=
  match state.active with
  | none => .ok (state, [])
  | some (.text index) => .ok ({ state with active := none }, [.contentBlockStop index])
  | some (.tool index _ arguments) =>
    match parseToolInput serde arguments with
    | .error error => .error error
    | .ok _ => .ok ({ state with active := none }, [.contentBlockStop index])

/-- Close the active block and go on, or break off. -/
def closing (state : StreamState) (goOn : StreamState → List MessageEvent → Turn) : Turn :=
  match state.closeActive serde with
  | .error error => .error [streamError error]
  | .ok (closed, events) => goOn closed events

/-- Open a block under the next index. -/
def openBlock (state : StreamState) (active : ℕ → ActiveBlock) (block : StartedBlock)
    (events : List MessageEvent) : StreamState × List MessageEvent :=
  let index := state.nextIndex
  ({ state with nextIndex := index + 1, active := some (active index) },
    events ++ [.contentBlockStart index block])

/-- The index of a delta of text. -/
def textIndex (state : StreamState) : ℕ :=
  match state.active with
  | some (.text index) => index
  | _ => 0

/-- Send a delta of text. -/
def sendText (text : Text) (opened : StreamState × List MessageEvent) : Turn :=
  .ok (opened.1, opened.2 ++ [.contentBlockDelta opened.1.textIndex (.textDelta text)])

/-- The `match` of `messages_sse`. -/
def react (state : StreamState) : ModelEvent → Turn
  | .accepted _ | .reasoningDelta _ _ => .ok (state, [])
  | .textDelta _ text =>
    match state.active with
    | some (.text _) => sendText text (state, [])
    | _ => state.closing serde fun closed events =>
        sendText text (closed.openBlock .text .text events)
  | .toolCallStarted _ callId name =>
    state.closing serde fun closed events =>
      .ok (closed.openBlock (.tool · callId []) (.toolUse callId name) events)
  | .toolCallArgumentsDelta _ callId delta =>
    match state.active with
    | some (.tool index id arguments) =>
      if id ≠ callId then
        .error [streamError (apiError "tool delta did not match the active tool block")]
      else
        .ok ({ state with active := some (.tool index id (arguments ++ delta)) },
          [.contentBlockDelta index (.inputJsonDelta delta)])
    | _ => .error [streamError (apiError "tool delta arrived without an active tool block")]
  | .toolCallCompleted _ callId _ =>
    let mismatch : Turn :=
      .error [streamError (apiError "tool completion did not match the active tool block")]
    match state.active with
    | some (.tool _ id _) =>
      if id = callId then state.closing serde fun closed events => .ok (closed, events)
      else mismatch
    | _ => mismatch
  | .usage _ usage _ => .ok ({ state with usage }, [])
  | .finished _ reason usage =>
    { state with usage }.closing serde fun closed events =>
      if isFailure reason then
        .error (events ++
          [streamError (apiError "model execution did not complete successfully")])
      else
        .error (events ++
          [MessageEvent.messageDelta (anthropicStopReason (some reason)) closed.usage.outputTokens,
            .messageStop])

/-- Send these events first. -/
def sendFirst (events : List MessageEvent) : Turn → Turn
  | .error last => .error (events ++ last)
  | .ok (state, sent) => .ok (state, events ++ sent)

/-- One turn of the loop of `messages_sse`. -/
def step (requestId model : String) (state : StreamState) (result : Except ApiError ModelEvent) :
    Turn :=
  match result with
  | .error error => .error [streamError error]
  | .ok event =>
    let opening := if state.started then [] else [.messageStart requestId model ⟨0, 0⟩]
    sendFirst opening ({ state with started := true }.react serde event)

end StreamState

/-- `messages_sse` -/
def messagesSse (serde : Serde) (requestId model : String)
    (stream : List (Except ApiError ModelEvent)) : List MessageEvent :=
  emitAll (StreamState.step serde requestId model) {} stream

end Locus.Anthropic
