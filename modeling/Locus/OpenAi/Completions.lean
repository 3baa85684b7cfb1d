import Locus.ModelIo.Normalize
import Locus.OpenAi.Authenticate

/-!
# The Completions protocol

`into_semantic` turns a request for a raw prompt into a model request. `completion_sse` streams
the text as chunks, `collect_completion` returns it at the end. A client puts the chunks together
again; its rules are those of the protocol.
-/

namespace Locus.OpenAi

open Locus.Core Locus.Lib Locus.ModelIo Locus.Parser

inductive CompletionPrompt
  | text (text : String)
  | tokenIds (tokenIds : List UInt32)
  | textBatch (prompts : List String)
  | tokenBatch (prompts : List (List UInt32))
  deriving DecidableEq

inductive StopSequencesDto
  | one (stop : String)
  | many (stops : List String)
  deriving DecidableEq

structure CompletionStreamOptions where
  includeUsage : Bool := false
  deriving DecidableEq

/-- A request. Floats are known by their bits. -/
structure CompletionRequest where
  model : String
  prompt : CompletionPrompt
  maxTokens : Option UInt32 := none
  temperature : Option UInt32 := none
  topP : Option UInt32 := none
  seed : Option UInt64 := none
  stop : Option StopSequencesDto := none
  stream : Bool := false
  streamOptions : Option CompletionStreamOptions := none
  n : Option UInt32 := none
  bestOf : Option UInt32 := none
  echo : Option Bool := none
  logprobs : Option UInt32 := none
  suffix : Option String := none
  deriving DecidableEq

/-- `ApiError::unsupported` -/
def StatusError.unsupported (param : String) : StatusError :=
  ⟨400, ⟨"unsupported parameter: " ++ param, "invalid_request_error", some param,
    some "unsupported_parameter"⟩⟩

namespace CompletionRequest

variable (request : CompletionRequest)

/-- The prompt of a request that is not a batch. -/
def promptInput : CompletionPrompt → Except StatusError PromptInput
  | .text text => .ok (.text text)
  | .tokenIds tokenIds => .ok (.tokenIds tokenIds)
  | .textBatch prompts => .error (.invalid "prompt"
      ("batched text prompts are unsupported (received " ++ toString prompts.length ++ ")"))
  | .tokenBatch prompts => .error (.invalid "prompt"
      ("batched token prompts are unsupported (received " ++ toString prompts.length ++ ")"))

def stopSequences : List String :=
  match request.stop with
  | none => []
  | some (.one stop) => [stop]
  | some (.many stops) => stops

/-- The model request of an accepted request. -/
def semantic (input : PromptInput) : ModelRequest where
  model := request.model
  input := .prompt input
  sampling := {
    maxOutputTokens := request.maxTokens
    temperature := request.temperature
    topP := request.topP
    seed := request.seed
    stopSequences := request.stopSequences }
  toolChoice := .none

/-- `CompletionRequest::into_semantic` -/
def intoSemantic : Except StatusError ModelRequest := do
  if request.n.any fun n => n ≠ 1 then
    throw (.invalid "n" "n must be 1")
  if request.bestOf.isSome then
    throw (.unsupported "best_of")
  if request.echo.getD false then
    throw (.unsupported "echo")
  if request.logprobs.isSome then
    throw (.unsupported "logprobs")
  if request.suffix.isSome then
    throw (.unsupported "suffix")
  if ¬request.stream ∧ request.streamOptions.isSome then
    throw (.invalid "stream_options" "stream_options requires stream=true")
  let input ← promptInput request.prompt
  if request.stopSequences.any fun stop => stop = "" then
    throw (.invalid "stop" "stop sequences must not be empty")
  return request.semantic input

end CompletionRequest

structure CompletionUsageValue where
  promptTokens : UInt64
  completionTokens : UInt64
  totalTokens : UInt64
  deriving DecidableEq

/-- `completion_usage_value` -/
def completionUsageValue (usage : Usage) : CompletionUsageValue where
  promptTokens := usage.inputTokens
  completionTokens := usage.outputTokens
  totalTokens := saturatingAdd usage.inputTokens usage.outputTokens

/-- `completion_finish_reason` -/
def completionFinishReason : Option ModelFinishReason → String
  | some .length => "length"
  | some .contentFilter => "content_filter"
  | some .cancelled | some .error => "error"
  | _ => "stop"

/-- The choice of a chunk. A reason that is missing is `null`. -/
structure TextChoice where
  text : Text
  finishReason : Option String
  deriving DecidableEq

/-- The events of a stream of text. Chunks stand without their time of creation. They have one
choice or none, and usage that is missing is `null`. -/
inductive CompletionEvent
  | chunk (id model : String) (choice : Option TextChoice) (usage : Option CompletionUsageValue)
  | error (error : ApiError)
  | done
  deriving DecidableEq

/-- The body of a text, without its time of creation. -/
structure TextCompletion where
  id : String
  model : String
  text : Text
  finishReason : String
  usage : CompletionUsageValue
  deriving DecidableEq

section Answers

variable (requestId model : String) (includeUsage : Bool)

/-- What is collected of the output. -/
def OutputAccumulator.textCompletion (output : OutputAccumulator) : TextCompletion where
  id := requestId
  model := model
  text := output.text
  finishReason := completionFinishReason output.finish
  usage := completionUsageValue output.usage

/-- `collect_completion` -/
def collectCompletion (stream : List (Except ApiError ModelEvent)) :
    Except ApiError TextCompletion :=
  (collect stream).map fun output => output.textCompletion requestId model

/-- The chunk of an event that is not the last. -/
def textChunk : ModelEvent → List CompletionEvent
  | .textDelta _ text => [.chunk requestId model (some ⟨text, none⟩) none]
  | _ => []

/-- What is sent when the output is finished. -/
def lastChunks (output : OutputAccumulator) (reason : ModelFinishReason) : List CompletionEvent :=
  [.chunk requestId model (some ⟨[], some (completionFinishReason (some reason))⟩) none] ++
    (if includeUsage then
      [.chunk requestId model none (some (completionUsageValue output.usage))]
    else []) ++ [.done]

/-- One turn of the loop of `completion_sse`. -/
def completionStep (output : OutputAccumulator) (result : Except ApiError ModelEvent) :
    Except (List CompletionEvent) (OutputAccumulator × List CompletionEvent) :=
  match result with
  | .error error => .error [.error error]
  | .ok event =>
    match event with
    | .finished _ reason _ =>
      .error (lastChunks requestId model includeUsage (output.apply event) reason)
    | _ => .ok (output.apply event, textChunk requestId model event)

/-- `completion_sse` -/
def completionSse (stream : List (Except ApiError ModelEvent)) : List CompletionEvent :=
  emitAll (completionStep requestId model includeUsage) {} stream

end Answers

/-- What a client has read. -/
structure CompletionClient where
  text : Text := []
  finishReason : Option String := none
  usage : Option CompletionUsageValue := none
  failure : Option ApiError := none
  complete : Bool := false
  deriving DecidableEq

/-- What a client makes of an event. -/
def CompletionClient.read (client : CompletionClient) : CompletionEvent → CompletionClient
  | .chunk _ _ choice usage => { client with
      text := client.text ++ (choice.map fun choice => choice.text).getD []
      finishReason := (choice.bind fun choice => choice.finishReason).or client.finishReason
      usage := usage.or client.usage }
  | .error error => { client with failure := some error }
  | .done => { client with complete := true }

/-- The text that a client puts together. -/
def reassembleCompletion (events : List CompletionEvent) : CompletionClient :=
  events.foldl CompletionClient.read {}

end Locus.OpenAi
