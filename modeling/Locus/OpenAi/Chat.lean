import Locus.OpenAi.Responses

/-!
# The Chat Completions protocol

`chat_sse` streams a message as chunks, `collect_chat` returns it at the end. The stream
finds the index of a call in the accumulator, which it updates after each chunk. A client
puts the chunks together again; its rules are those of the protocol.
-/

namespace Locus.OpenAi

open Locus.Core Locus.Lib Locus.ModelIo Locus.Parser

/-- A call in a message or in a chunk. Fields that are missing are `none`. -/
structure ChatToolCall where
  index : ℕ
  id : Option String := none
  type : Option String := none
  name : Option String := none
  arguments : Text
  deriving DecidableEq

structure ChatDelta where
  role : Option String := none
  content : Option Text := none
  reasoningContent : Option Text := none
  toolCalls : List ChatToolCall := []
  deriving DecidableEq

/-- The events of a chat stream. Chunks stand without their time of creation. -/
inductive ChatEvent
  | chunk (id model : String) (delta : ChatDelta) (finishReason : Option String)
  | error (error : ApiError)
  | done
  deriving DecidableEq

structure ChatMessage where
  role : String
  content : Option Text
  reasoningContent : Option Text
  toolCalls : List ChatToolCall
  deriving DecidableEq

/-- The body of a completion, without its time of creation. -/
structure ChatCompletion where
  id : String
  model : String
  message : ChatMessage
  finishReason : String
  usage : UsageValue
  deriving DecidableEq

/-- `chat_finish_reason` -/
def chatFinishReason : Option ModelFinishReason → String
  | some .length => "length"
  | some .toolCall => "tool_calls"
  | some .contentFilter => "content_filter"
  | some .cancelled | some .error => "error"
  | _ => "stop"

/-- A call of the collected message. -/
def chatToolCall (index : ℕ) (tool : ToolOutput) : ChatToolCall :=
  ⟨index, some tool.callId, some "function", some tool.name, tool.arguments⟩

variable (requestId model : String)

/-- `collect_chat` -/
def collectChat (stream : List (Except ApiError ModelEvent)) : Except ApiError ChatCompletion :=
  (collect stream).map fun output =>
    { id := requestId
      model := model
      message :=
        { role := "assistant"
          content := if output.text = [] then none else some output.text
          reasoningContent := if output.reasoning = [] then none else some output.reasoning
          toolCalls := output.tools.mapIdx chatToolCall }
      finishReason := chatFinishReason output.finish
      usage := usageValue output.usage }

/-- The variables of `chat_sse`. -/
structure ChatState where
  output : OutputAccumulator := {}
  roleSent : Bool := false

namespace ChatState

/-- The chunk with the role, for the first `Accepted`. -/
def roleChunk (state : ChatState) : ModelEvent → List ChatEvent
  | .accepted _ =>
    if state.roleSent then []
    else [.chunk requestId model { role := some "assistant", content := some [] } none]
  | _ => []

/-- The `match` of `chat_sse`. -/
def contentChunk (state : ChatState) : ModelEvent → List ChatEvent
  | .textDelta _ text => [.chunk requestId model { content := some text } none]
  | .reasoningDelta _ text => [.chunk requestId model { reasoningContent := some text } none]
  | .toolCallStarted _ callId name =>
    [.chunk requestId model
      { toolCalls := [⟨state.output.tools.length, some callId, some "function", some name, []⟩] }
      none]
  | .toolCallArgumentsDelta _ callId delta =>
    let index := state.output.tools.findIdx? fun tool => decide (tool.callId = callId)
    [.chunk requestId model
      { toolCalls := [{ index := index.getD 0, arguments := delta }] } none]
  | .finished _ reason _ => [.chunk requestId model {} (some (chatFinishReason (some reason)))]
  | _ => []

/-- What is sent for an event, except for the end of the stream. -/
def sent (state : ChatState) (event : ModelEvent) : List ChatEvent :=
  state.roleChunk requestId model event ++ state.contentChunk requestId model event

/-- The variables after an event. -/
def next (state : ChatState) (event : ModelEvent) : ChatState where
  output := state.output.apply event
  roleSent :=
    match event with
    | .accepted _ => true
    | _ => state.roleSent

/-- One turn of the loop of `chat_sse`. -/
def step (state : ChatState) (result : Except ApiError ModelEvent) :
    Except (List ChatEvent) (ChatState × List ChatEvent) :=
  match result with
  | .error error => .error [.error error]
  | .ok event =>
    match event with
    | .finished _ _ _ => .error (state.sent requestId model event ++ [.done])
    | _ => .ok (state.next event, state.sent requestId model event)

end ChatState

/-- `chat_sse` -/
def chatSse (stream : List (Except ApiError ModelEvent)) : List ChatEvent :=
  emitAll (ChatState.step requestId model) {} stream

/-- The message as a client has put it together so far. -/
structure ChatClient where
  role : Option String := none
  content : Text := []
  reasoningContent : Text := []
  toolCalls : List ChatToolCall := []
  finishReason : Option String := none
  deriving DecidableEq

/-- Add a part of a call to the call with the same index, or begin a new call. -/
def mergeToolCall (calls : List ChatToolCall) (part : ChatToolCall) : List ChatToolCall :=
  if calls.any fun call => decide (call.index = part.index) then
    calls.map fun call =>
      if call.index = part.index then
        { call with
          id := call.id.or part.id
          type := call.type.or part.type
          name := call.name.or part.name
          arguments := call.arguments ++ part.arguments }
      else call
  else calls ++ [part]

/-- What a client makes of an event. -/
def ChatClient.read (client : ChatClient) : ChatEvent → ChatClient
  | .chunk _ _ delta finishReason =>
    { role := client.role.or delta.role
      content := client.content ++ delta.content.getD []
      reasoningContent := client.reasoningContent ++ delta.reasoningContent.getD []
      toolCalls := delta.toolCalls.foldl mergeToolCall client.toolCalls
      finishReason := finishReason.or client.finishReason }
  | _ => client

/-- The message that a client puts together. -/
def reassembleChat (events : List ChatEvent) : ChatClient :=
  events.foldl ChatClient.read {}

end Locus.OpenAi
