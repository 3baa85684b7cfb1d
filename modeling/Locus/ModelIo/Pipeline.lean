import Locus.Core.Events
import Locus.Parser.Reasoning
import Locus.Parser.Tool

/-!
# The output pipeline

`process` turns engine events into model events. Text goes through the reasoning parser
and then the tool parser, where these are selected; calls are checked against the
contract of the request.
-/

namespace Locus.ModelIo

open Std (TreeMap)
open Locus.Core Locus.Lib Locus.Parser

structure ToolDefinition where
  name : String
  description : Option String
  parametersSchema : String
  strict : Bool
  deriving DecidableEq

inductive ToolChoice
  | auto
  | none
  | required
  | function (name : String)
  deriving DecidableEq

inductive ResponseFormat
  | text
  | jsonObject
  | jsonSchema (name : String) (description : Option String) (schema : String) (strict : Bool)
  deriving DecidableEq

/-- What the output of a request has to keep to. -/
structure OutputContract where
  tools : List ToolDefinition
  toolChoice : ToolChoice
  responseFormat : ResponseFormat
  deriving DecidableEq

/-- The request has a tool of this name. -/
def OutputContract.requested (contract : OutputContract) (name : String) : Bool :=
  contract.tools.any fun tool => tool.name == name

/-- The choice of the request admits a tool of this name. -/
def OutputContract.selected (contract : OutputContract) (name : String) : Bool :=
  match contract.toolChoice with
  | .none => false
  | .function selected => selected == name
  | .auto => contract.requested name
  | .required => contract.requested name

/-- The request asks for structured output. -/
def OutputContract.requiresJson (contract : OutputContract) : Bool :=
  match contract.responseFormat with
  | .jsonObject => true
  | .jsonSchema _ _ _ _ => true
  | .text => false

/-- The request asks for a call. -/
def OutputContract.requiresCall (contract : OutputContract) : Bool :=
  match contract.toolChoice with
  | .required => true
  | .function _ => true
  | .auto => false
  | .none => false

inductive ModelFinishReason
  | stop
  | length
  | toolCall
  | contentFilter
  | cancelled
  | error
  | namespaced (nameSpace value : String)
  deriving DecidableEq

inductive ModelEvent
  | accepted (requestId : RequestId)
  | textDelta (requestId : RequestId) (text : Text)
  | reasoningDelta (requestId : RequestId) (text : Text)
  | toolCallStarted (requestId : RequestId) (callId name : String)
  | toolCallArgumentsDelta (requestId : RequestId) (callId : String) (delta : Text)
  | toolCallCompleted (requestId : RequestId) (callId : String) (arguments : Text)
  | usage (requestId : RequestId) (usage : Usage) (finalUpdate : Bool)
  | finished (requestId : RequestId) (reason : ModelFinishReason) (usage : Usage)
  deriving DecidableEq

/-- How processing fails. What a parser refuses is kept as it is. -/
inductive ModelIoError
  | modelNotFound (message : String)
  | invalidInput (message : String)
  | unsupported (message : String)
  | processing (message : String)
  | parsing (fault : ParserFault)
  deriving DecidableEq

/-- `From<ParserError>` -/
def ModelIoError.ofParser : ParserError → ModelIoError
  | .invalidConfig message => invalidInput message
  | .processing fault => parsing fault

/-- The state of the pipeline. The index of the next parsed call wraps around. -/
structure BasicOutputPipeline where
  decoder : List UInt32 → Except ModelIoError Text
  contract : OutputContract
  text : Text
  toolArguments : TreeMap String Text
  sawToolCall : Bool
  reasoningParser : Option TaggedReasoningParserState
  toolParser : Option TaggedJsonToolParserState
  nextToolIndex : UInt64

/-- `BasicModelIo::output_pipeline` -/
def outputPipeline (decoder : List UInt32 → Except ModelIoError Text)
    (reasoningParser : Option TaggedReasoningParserDefinition)
    (toolParser : Option TaggedJsonToolParserDefinition) (contract : OutputContract) :
    BasicOutputPipeline where
  decoder := decoder
  contract := contract
  text := []
  toolArguments := ∅
  sawToolCall := false
  reasoningParser := reasoningParser.map fun definition => definition.state
  toolParser := toolParser.map fun definition => definition.state
  nextToolIndex := 0

/-- `interpret_finish` -/
def interpretFinish : EngineFinishReason → ModelFinishReason
  | .stop => .stop
  | .length => .length
  | .cancelled => .cancelled
  | .error => .error
  | .runtimeSpecific nameSpace value => .namespaced nameSpace value

/-- The engine itself reports that it ended with tool calls. -/
def runtimeReportedToolCall : EngineFinishReason → Bool
  | .runtimeSpecific _ value => value == "tool_calls"
  | _ => false

namespace BasicOutputPipeline

variable (serde : Serde) (pipeline : BasicOutputPipeline)

/-- A step of the pipeline with the events it emits. -/
abbrev Emission := Except ModelIoError (BasicOutputPipeline × List ModelEvent)

/-- `start_tool_call` -/
def startToolCall (requestId : RequestId) (callId name : String) : Emission :=
  if !pipeline.contract.requested name || !pipeline.contract.selected name then
    .error (.processing ("engine emitted an unrequested tool call: " ++ name))
  else if pipeline.toolArguments.contains callId then
    .error (.processing ("engine emitted duplicate tool call id: " ++ callId))
  else
    .ok ({ pipeline with
        sawToolCall := true
        toolArguments := pipeline.toolArguments.insert callId [] },
      [.toolCallStarted requestId callId name])

/-- `append_tool_arguments` -/
def appendToolArguments (requestId : RequestId) (callId : String) (delta : Text) : Emission :=
  match pipeline.toolArguments[callId]? with
  | none => .error (.processing
      ("tool arguments arrived before the call was started: " ++ callId))
  | some arguments =>
    .ok ({ pipeline with
        toolArguments := pipeline.toolArguments.insert callId (arguments ++ delta) },
      [.toolCallArgumentsDelta requestId callId delta])

/-- `complete_tool_call` -/
def completeToolCall (requestId : RequestId) (callId : String) : Emission :=
  match pipeline.toolArguments[callId]? with
  | none => .error (.processing ("tool call completed before it was started: " ++ callId))
  | some arguments =>
    match serde.fromStr arguments with
    | .error error => .error (.processing
        ("tool call " ++ callId ++ " produced invalid JSON arguments: " ++ error))
    | .ok value =>
      if (serde.asObject value).isNone then
        .error (.processing ("tool call " ++ callId ++ " arguments must be a JSON object"))
      else
        .ok ({ pipeline with toolArguments := pipeline.toolArguments.erase callId },
          [.toolCallCompleted requestId callId arguments])

/-- The id of the next parsed call. -/
def nextCallId (requestId : RequestId) : String :=
  "call_" ++ requestId ++ "_" ++ toString pipeline.nextToolIndex.toNat

/-- One turn of the loop of `process_visible_text`. -/
def processToolSegment (requestId : RequestId) (pipeline : BasicOutputPipeline)
    (segment : ToolSegment) : Emission :=
  match segment with
  | .text text => .ok ({ pipeline with text := pipeline.text ++ text }, [.textDelta requestId text])
  | .call name arguments => do
    let callId := pipeline.nextCallId requestId
    let pipeline := { pipeline with nextToolIndex := pipeline.nextToolIndex + 1 }
    let (pipeline, started) ← pipeline.startToolCall requestId callId name
    let (pipeline, delta) ← pipeline.appendToolArguments requestId callId arguments
    let (pipeline, completed) ← pipeline.completeToolCall serde requestId callId
    return (pipeline, started ++ delta ++ completed)

/-- `process_visible_text` -/
def processVisibleText (requestId : RequestId) (text : Text) : Emission :=
  match pipeline.toolParser with
  | some parser =>
    match parser.push serde text with
    | .error error => .error (.ofParser error)
    | .ok (parser, segments) =>
      pushAll (processToolSegment serde requestId) { pipeline with toolParser := some parser }
        segments
  | none => pushAll (processToolSegment serde requestId) pipeline [.text text]

/-- One turn of the loop of `process_reasoning_segments`. -/
def processReasoningSegment (requestId : RequestId) (pipeline : BasicOutputPipeline)
    (segment : ReasoningSegment) : Emission :=
  match segment with
  | .reasoning text => .ok (pipeline, [.reasoningDelta requestId text])
  | .text text => pipeline.processVisibleText serde requestId text

/-- `process_text_delta` -/
def processTextDelta (requestId : RequestId) (text : Text) : Emission :=
  match pipeline.reasoningParser with
  | some parser =>
    match parser.push text with
    | .error error => .error (.ofParser error)
    | .ok (parser, segments) =>
      pushAll (processReasoningSegment serde requestId)
        { pipeline with reasoningParser := some parser } segments
  | none => pushAll (processReasoningSegment serde requestId) pipeline [.text text]

/-- `finish_parsers`. Neither parser has segments left to emit when it finishes. -/
def finishParsers : Except ModelIoError Unit := do
  match pipeline.reasoningParser with
  | some parser => parser.finish.mapError ModelIoError.ofParser
  | none => pure ()
  match pipeline.toolParser with
  | some parser => parser.finish.mapError ModelIoError.ofParser
  | none => pure ()

/-- The part of `validate_completed_output` on structured output. -/
def validateStructuredOutput : Except ModelIoError Unit :=
  match serde.fromStr pipeline.text with
  | .error error => .error (.processing ("structured output is not valid JSON: " ++ error))
  | .ok value =>
    if (serde.asObject value).isNone then
      .error (.processing "structured output must be a JSON object")
    else .ok ()

/-- `validate_completed_output` -/
def validateCompletedOutput : Except ModelIoError Unit := do
  if pipeline.contract.requiresJson then pipeline.validateStructuredOutput serde
  if !pipeline.toolArguments.isEmpty then
    throw (.processing "engine finished with incomplete tool calls")
  if pipeline.contract.requiresCall && !pipeline.sawToolCall then
    throw (.processing "engine finished without the required tool call")

/-- The reason that is reported for the reason of the engine. -/
def reportedReason (reason : EngineFinishReason) : ModelFinishReason :=
  if pipeline.sawToolCall && (reason == .stop || runtimeReportedToolCall reason) then .toolCall
  else interpretFinish reason

/-- The last event of `process`. -/
def finishOutput (requestId : RequestId) (reason : EngineFinishReason) (usage : Usage) :
    Emission := do
  pipeline.finishParsers
  pipeline.validateCompletedOutput serde
  if runtimeReportedToolCall reason && !pipeline.sawToolCall then
    throw (.processing "engine reported tool_calls without a completed tool call")
  return (pipeline, [.finished requestId (pipeline.reportedReason reason) usage])

/-- `BasicOutputPipeline::process` -/
def process (event : EngineEvent) : Emission :=
  match event with
  | .accepted requestId => .ok (pipeline, [.accepted requestId])
  | .tokenDelta requestId _ tokenIds =>
    match pipeline.decoder tokenIds with
    | .error error => .error error
    | .ok text => pipeline.processTextDelta serde requestId text
  | .textDelta requestId _ text => pipeline.processTextDelta serde requestId text
  | .reasoningDelta requestId _ text =>
    if pipeline.reasoningParser.isSome then
      .error (.processing "engine emitted native reasoning while a profile parser is selected")
    else .ok (pipeline, [.reasoningDelta requestId text])
  | .toolCallStarted requestId _ callId name =>
    if pipeline.toolParser.isSome then
      .error (.processing "engine emitted a native tool call while a profile parser is selected")
    else pipeline.startToolCall requestId callId name
  | .toolCallArgumentsDelta requestId _ callId delta =>
    pipeline.appendToolArguments requestId callId delta
  | .toolCallCompleted requestId _ callId => pipeline.completeToolCall serde requestId callId
  | .usageUpdate requestId usage finalUpdate =>
    .ok (pipeline, [.usage requestId usage finalUpdate])
  | .finished requestId reason usage => pipeline.finishOutput serde requestId reason usage

/-- Process a sequence of events. -/
def run (events : List EngineEvent) : Emission :=
  pushAll (process serde) pipeline events

end BasicOutputPipeline

/-- A contract with one tool that may be called. -/
def sampleContract : OutputContract where
  tools := [⟨"f", none, "\x7b\x7d", false⟩]
  toolChoice := .auto
  responseFormat := .text

/-- A decoder that has no tokens. -/
def sampleDecoder : List UInt32 → Except ModelIoError Text :=
  fun _ => .error (.unsupported "no tokens")

/-- The engine's own report of the sample call. -/
def sampleCall (callId : String) : List EngineEvent :=
  [.toolCallStarted "r" 0 callId "f", .toolCallArgumentsDelta "r" 1 callId sampleArguments,
    .toolCallCompleted "r" 2 callId]

end Locus.ModelIo
