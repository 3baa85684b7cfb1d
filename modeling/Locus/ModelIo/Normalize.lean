import Locus.ModelIo.Pipeline
import Locus.Store.NexusKv

/-!
# Normalizing requests

`normalize` checks what a request asks of its output, renders and tokenizes its input, and
writes the output contract into the annotations of the canonical request, where the engine
adapters read it. The tokenizer, the template and the detokenizer are given.
-/

namespace Locus.ModelIo

open Locus.Core Locus.Parser

inductive ConversationRole
  | developer
  | system
  | user
  | assistant
  | tool
  deriving DecidableEq

structure ConversationMessage where
  role : ConversationRole
  content : String
  toolCallId : Option String
  deriving DecidableEq

inductive PromptInput
  | text (text : String)
  | tokenIds (tokenIds : List UInt32)
  deriving DecidableEq

inductive ModelInput
  | conversation (messages : List ConversationMessage)
  | prompt (input : PromptInput)
  deriving DecidableEq

inductive ReasoningEffort
  | low
  | medium
  | high
  deriving DecidableEq

def ReasoningEffort.asStr : ReasoningEffort → String
  | .low => "low"
  | .medium => "medium"
  | .high => "high"

/-- The sampling parameters of a request. Floats are known by their bits. -/
structure SamplingParameters where
  maxOutputTokens : Option UInt32 := none
  temperature : Option UInt32 := none
  topP : Option UInt32 := none
  seed : Option UInt64 := none
  stopSequences : List String := []
  deriving DecidableEq

structure ModelRequest where
  model : String
  input : ModelInput
  sampling : SamplingParameters := {}
  tools : List ToolDefinition := []
  toolChoice : ToolChoice := .auto
  responseFormat : ResponseFormat := .text
  reasoningEffort : Option ReasoningEffort := none
  deriving DecidableEq

/-- The parts of a semantic identity that requests carry or that profiles are checked by. -/
structure SemanticIdentity where
  input : InputSemanticIdentity
  reasoningParser : Option SemanticComponentIdentity
  toolParser : Option SemanticComponentIdentity
  umbrellaFingerprint : Option String
  deriving DecidableEq

structure ModelProfile where
  publicAliases : List String
  model : ModelExecutionIdentity
  semanticIdentity : SemanticIdentity
  deriving DecidableEq

/-- A model's input and output, with its tokenizer, template and detokenizer as functions. -/
structure BasicModelIo where
  profile : ModelProfile
  encode : String → Except ModelIoError (List UInt32)
  render : ModelRequest → Except ModelIoError String
  decoder : List UInt32 → Except ModelIoError Text
  reasoningParser : Option TaggedReasoningParserDefinition := none
  toolParser : Option TaggedJsonToolParserDefinition := none

/-- `validate_parser_identity` -/
def validateParserIdentity (kind : String)
    (profile parser : Option SemanticComponentIdentity) : Except ModelIoError Unit :=
  if profile ≠ parser then
    .error (.invalidInput (kind ++ " parser definition does not match the model profile identity"))
  else .ok ()

/-- `BasicModelIo::with_output_parsers` -/
def BasicModelIo.withOutputParsers (model : BasicModelIo)
    (reasoningParser : Option TaggedReasoningParserDefinition)
    (toolParser : Option TaggedJsonToolParserDefinition) : Except ModelIoError BasicModelIo := do
  validateParserIdentity "reasoning" model.profile.semanticIdentity.reasoningParser
    (reasoningParser.map fun definition => definition.identity)
  validateParserIdentity "tool" model.profile.semanticIdentity.toolParser
    (toolParser.map fun definition => definition.identity)
  return { model with reasoningParser, toolParser }

/-- The models that `new` and `with_output_parsers` make. -/
inductive BasicModelIo.Built : BasicModelIo → Prop
  | new (profile : ModelProfile) (encode : String → Except ModelIoError (List UInt32))
      (render : ModelRequest → Except ModelIoError String)
      (decoder : List UInt32 → Except ModelIoError Text) :
      Built ⟨profile, encode, render, decoder, none, none⟩
  | withOutputParsers {model next : BasicModelIo}
      {reasoningParser : Option TaggedReasoningParserDefinition}
      {toolParser : Option TaggedJsonToolParserDefinition} (built : Built model)
      (added : model.withOutputParsers reasoningParser toolParser = .ok next) : Built next

section Contract

variable (serde : Serde)

/-- The loop of `validate_tool_contract`, with the names read so far. It returns all names. -/
def validateTools : List ToolDefinition → List String → Except ModelIoError (List String)
  | [], names => .ok names
  | tool :: rest, names =>
    if tool.name.toList.all Store.isWhitespace then
      .error (.invalidInput "tool name must not be empty")
    else
      match serde.fromStr tool.parametersSchema.toList with
      | .error error =>
        .error (.invalidInput
          ("invalid parameters schema for tool " ++ tool.name ++ ": " ++ error))
      | .ok schema =>
        if (serde.asObject schema).isNone then
          .error (.invalidInput
            ("parameters schema for tool " ++ tool.name ++ " must be a JSON object"))
        else if tool.name ∈ names then
          .error (.invalidInput ("duplicate tool name: " ++ tool.name))
        else validateTools rest (names ++ [tool.name])

/-- `validate_tool_contract` -/
def validateToolContract (request : ModelRequest) : Except ModelIoError Unit :=
  match validateTools serde request.tools [] with
  | .error error => .error error
  | .ok names =>
    match request.toolChoice with
    | .required =>
      if request.tools = [] then
        .error (.invalidInput "tool_choice required needs at least one tool")
      else .ok ()
    | .function name =>
      if name ∉ names then
        .error (.invalidInput ("tool_choice references an unknown function: " ++ name))
      else .ok ()
    | .auto | .none => .ok ()

/-- `validate_prompt_contract` -/
def validatePromptContract (request : ModelRequest) : Except ModelIoError Unit :=
  if request.tools ≠ [] ∨ (request.toolChoice ≠ .auto ∧ request.toolChoice ≠ .none) then
    .error (.unsupported "raw prompts do not support function tools")
  else if request.responseFormat ≠ .text then
    .error (.unsupported "raw prompts do not support structured output")
  else if request.reasoningEffort.isSome then
    .error (.unsupported "raw prompts do not support reasoning controls")
  else .ok ()

/-- The tool choice as it is annotated. -/
def ToolChoice.contractText : ToolChoice → String
  | .auto => "auto"
  | .none => "none"
  | .required => "required"
  | .function name => "function:" ++ name

/-- The fields of the generation contract that the response format sets, in order. -/
def ResponseFormat.fields : ResponseFormat → List (String × String)
  | .text => [("response_format", "text")]
  | .jsonObject => [("response_format", "json_object")]
  | .jsonSchema name description schema strict =>
    [("response_format", "json_schema"), ("json_schema_name", name), ("json_schema", schema),
      ("strict", toString strict)] ++
    (description.map fun description => ("json_schema_description", description)).toList

/-- The fields of the generation contract, in the order in which they are set. -/
def contractFields (request : ModelRequest) : List (String × String) :=
  [("tool_choice", request.toolChoice.contractText)] ++ request.responseFormat.fields ++
    (request.reasoningEffort.map fun effort => ("reasoning_effort", effort.asStr)).toList

/-- The fields of a tool, in the order in which they are set. -/
def ToolDefinition.fields (tool : ToolDefinition) : List (String × String) :=
  [("name", tool.name), ("parameters", tool.parametersSchema), ("strict", toString tool.strict)] ++
    (tool.description.map fun description => ("description", description)).toList

/-- An annotation with fields that were set one after the other. -/
def metadataOf (typeUrl : String) (fields : List (String × String)) : TypedMetadata where
  typeUrl := typeUrl
  fields := fields.foldl (fun map field => map.insert field.1 field.2) ∅

/-- The loop of `contract_annotations` over the tools. -/
def toolAnnotations : List ToolDefinition → Except ModelIoError (List TypedMetadata)
  | [] => .ok []
  | tool :: rest =>
    match serde.fromStr tool.parametersSchema.toList with
    | .error error =>
      .error (.invalidInput ("invalid parameters schema for tool " ++ tool.name ++ ": " ++ error))
    | .ok _ =>
      match toolAnnotations rest with
      | .error error => .error error
      | .ok notes => .ok (metadataOf "locus.tool.v1" tool.fields :: notes)

/-- The check of the schema that the response format names. -/
def validateResponseSchema : ResponseFormat → Except ModelIoError Unit
  | .jsonSchema _ _ schema _ =>
    match serde.fromStr schema.toList with
    | .error error => .error (.invalidInput ("invalid JSON schema: " ++ error))
    | .ok _ => .ok ()
  | .text | .jsonObject => .ok ()

/-- `contract_annotations` -/
def contractAnnotations (request : ModelRequest) : Except ModelIoError (List TypedMetadata) := do
  validateResponseSchema serde request.responseFormat
  let notes ← toolAnnotations serde request.tools
  return metadataOf "locus.generation-contract.v1" (contractFields request) :: notes

end Contract

/-- `raw_prompt_semantic_identity` -/
def rawPromptSemanticIdentity (profile : SemanticIdentity) : SemanticIdentity where
  input := { profile.input with
    template := ⟨"locus-raw-prompt", "v1", "locus-raw-prompt-v1"⟩ }
  reasoningParser := profile.reasoningParser
  toolParser := profile.toolParser
  umbrellaFingerprint := none

namespace BasicModelIo

variable (serde : Serde) (model : BasicModelIo)

/-- The tokens of a raw prompt. -/
def promptTokens : PromptInput → Except ModelIoError (List UInt32)
  | .text text => model.encode text
  | .tokenIds tokenIds => .ok tokenIds

/-- The tokens of a request and what they are to be read as. -/
def inputTokens (request : ModelRequest) : Except ModelIoError (List UInt32 × SemanticIdentity) :=
  match request.input with
  | .conversation messages => do
    if messages = [] then
      throw (.invalidInput "conversation must contain at least one message")
    let rendered ← model.render request
    let tokens ← model.encode rendered
    return (tokens, model.profile.semanticIdentity)
  | .prompt prompt => do
    validatePromptContract request
    let tokens ← model.promptTokens prompt
    return (tokens, rawPromptSemanticIdentity model.profile.semanticIdentity)

/-- The canonical request for tokens that are read as `semanticIdentity` says. -/
def canonicalRequest (request : ModelRequest) (requestId : RequestId) (tokens : List UInt32)
    (semanticIdentity : SemanticIdentity) (annotations : List TypedMetadata) :
    CanonicalRequest where
  id := requestId
  model := model.profile.model
  inputSemantics := semanticIdentity.input
  toolParser := semanticIdentity.toolParser
  requirements := {
    inputKinds := {.tokenSequence}
    requiresIncrementalOutput := true
    requiresReasoningDeltas := request.reasoningEffort.isSome && model.reasoningParser.isNone
    requiresToolCalls := !request.tools.isEmpty && model.toolParser.isNone
    requiresStructuredOutput := request.responseFormat != .text }
  items := [⟨"prompt", .tokenSequence tokens⟩]
  annotations := annotations
  maxOutputTokens := request.sampling.maxOutputTokens
  temperature := request.sampling.temperature
  topP := request.sampling.topP
  seed := request.sampling.seed
  stopSequences := request.sampling.stopSequences

/-- `BasicModelIo::normalize`, the canonical request and the output contract. -/
def normalize (request : ModelRequest) (requestId : RequestId) :
    Except ModelIoError (CanonicalRequest × OutputContract) := do
  validateToolContract serde request
  let (tokens, semanticIdentity) ← model.inputTokens request
  let annotations ← contractAnnotations serde request
  return (model.canonicalRequest request requestId tokens semanticIdentity annotations,
    ⟨request.tools, request.toolChoice, request.responseFormat⟩)

end BasicModelIo

end Locus.ModelIo
