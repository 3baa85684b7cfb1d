import Locus.ModelIo.Pipeline

/-!
# Accumulated output

`OutputAccumulator` gathers the text, the reasoning and the calls of a response, and the
order in which they are to be listed. Both encoders and both collectors of the OpenAI
protocols use it. Indices and lengths are natural numbers.
-/

namespace Locus.OpenAi

open Locus.Core Locus.ModelIo Locus.Parser

inductive OutputItemKey
  | text
  | reasoning
  | tool (callId : String)
  deriving DecidableEq

structure ToolOutput where
  callId : String
  name : String
  arguments : Text
  deriving DecidableEq

/-- An item of the output array of a response. -/
inductive OutputItem
  | message (id status : String) (text : Text)
  | reasoning (id status : String) (summary : Text)
  | functionCall (id callId name : String) (arguments : Text) (status : String)
  deriving DecidableEq

/-- `message_id` -/
def messageId (requestId : String) : String := "msg_" ++ requestId

/-- `reasoning_id` -/
def reasoningId (requestId : String) : String := "rs_" ++ requestId

/-- `message_item` -/
def messageItem (requestId status : String) (text : Text) : OutputItem :=
  .message (messageId requestId) status text

/-- `reasoning_item` -/
def reasoningItem (requestId status : String) (text : Text) : OutputItem :=
  .reasoning (reasoningId requestId) status text

/-- `ToolOutput::value` -/
def ToolOutput.value (tool : ToolOutput) (status : String) : OutputItem :=
  .functionCall tool.callId tool.callId tool.name tool.arguments status

structure OutputAccumulator where
  text : Text := []
  reasoning : Text := []
  tools : List ToolOutput := []
  outputOrder : List OutputItemKey := []
  usage : Usage := ⟨0, 0⟩
  finish : Option ModelFinishReason := none
  deriving DecidableEq

/-- Change the first tool with this id, as `iter_mut().find()` does. -/
def updateTool (callId : String) (change : Text → Text) : List ToolOutput → List ToolOutput
  | [] => []
  | tool :: tools =>
    if tool.callId = callId then { tool with arguments := change tool.arguments } :: tools
    else tool :: updateTool callId change tools

/-- The first tool with this id. -/
def findTool (tools : List ToolOutput) (callId : String) : Option ToolOutput :=
  tools.find? fun tool => decide (tool.callId = callId)

namespace OutputAccumulator

/-- `OutputAccumulator::apply` -/
def apply (output : OutputAccumulator) : ModelEvent → OutputAccumulator
  | .textDelta _ text => { output with
      outputOrder := if output.text = [] then output.outputOrder ++ [.text] else output.outputOrder
      text := output.text ++ text }
  | .reasoningDelta _ text => { output with
      outputOrder :=
        if output.reasoning = [] then output.outputOrder ++ [.reasoning] else output.outputOrder
      reasoning := output.reasoning ++ text }
  | .toolCallStarted _ callId name => { output with
      outputOrder := output.outputOrder ++ [.tool callId]
      tools := output.tools ++ [⟨callId, name, []⟩] }
  | .toolCallArgumentsDelta _ callId delta =>
    { output with tools := updateTool callId (fun arguments => arguments ++ delta) output.tools }
  | .toolCallCompleted _ callId arguments =>
    { output with tools := updateTool callId (fun _ => arguments) output.tools }
  | .usage _ usage _ => { output with usage }
  | .finished _ reason usage => { output with finish := some reason, usage }
  | .accepted _ => output

/-- The accumulator after a sequence of events. -/
def after (events : List ModelEvent) : OutputAccumulator :=
  events.foldl apply {}

end OutputAccumulator

/-- `usage_value`, without the details that are always zero. -/
structure UsageValue where
  inputTokens : UInt64
  outputTokens : UInt64
  totalTokens : UInt64
  deriving DecidableEq

/-- `usage_value` -/
def usageValue (usage : Usage) : UsageValue where
  inputTokens := usage.inputTokens
  outputTokens := usage.outputTokens
  totalTokens := saturatingAdd usage.inputTokens usage.outputTokens

/-- The body of a response, without its time of creation. -/
structure ResponseValue where
  id : String
  status : String
  model : String
  output : List OutputItem
  usage : Option UsageValue
  incompleteReason : Option String
  deriving DecidableEq

/-- `response_shell` -/
def responseShell (requestId model status : String) : ResponseValue where
  id := requestId
  status := status
  model := model
  output := []
  usage := none
  incompleteReason := none

/-- The item under a key, if there is one. -/
def OutputAccumulator.itemFor (output : OutputAccumulator) (requestId : String) :
    OutputItemKey → Option OutputItem
  | .text => some (messageItem requestId "completed" output.text)
  | .reasoning => some (reasoningItem requestId "completed" output.reasoning)
  | .tool callId => (findTool output.tools callId).map fun tool => tool.value "completed"

/-- `OutputAccumulator::response_value` -/
def OutputAccumulator.responseValue (output : OutputAccumulator) (requestId model : String) :
    ResponseValue :=
  let status := if output.finish = some .length then "incomplete" else "completed"
  { responseShell requestId model status with
    output := output.outputOrder.filterMap (output.itemFor requestId)
    usage := some (usageValue output.usage)
    incompleteReason := if status = "incomplete" then some "max_output_tokens" else none }

end Locus.OpenAi
