import Locus.Engine.Adapter
import Locus.Parser.Envelope

/-!
# The body of a completion request

`RemoteCompletionAdapter` sends a canonical request to a remote engine. The body is known by its
fields; a field that is `none` is absent. Numbers that are floats are known by their bits.
-/

namespace Locus.Engine

open Locus.Core Locus.Parser

/-- The remote runtimes. -/
inductive RuntimeFlavor
  | sglang
  | vllm
  deriving DecidableEq

/-- The field `response_format`. -/
inductive ResponseFormat (serde : Serde)
  | jsonObject
  | jsonSchema (name : String) (schema : serde.Value) (strict : Bool)

/-- What is sent to `/v1/completions`. -/
structure CompletionBody (serde : Serde) where
  model : String
  prompt : List UInt32
  stream : Bool
  includeUsage : Bool
  maxTokens : UInt32
  temperature : UInt32
  topP : UInt32
  seed : Option UInt64
  stop : Option (List String)
  rid : Option String
  requestId : Option String
  addSpecialTokens : Option Bool
  responseFormat : Option (ResponseFormat serde)
  jsonSchema : Option String

/-- The bits of the `f32` number one. -/
def oneBits : UInt32 := 0x3f800000

/-- `apply_output_contract` -/
def applyOutputContract (serde : Serde) (body : CompletionBody serde) (request : CanonicalRequest)
    (flavor : RuntimeFlavor) : Except EngineError (CompletionBody serde) :=
  match request.annotations.find? fun note => note.typeUrl = "locus.generation-contract.v1" with
  | none => .ok body
  | some contract =>
    match contract.fields["response_format"]? with
    | some "json_object" => .ok { body with responseFormat := some .jsonObject }
    | some "json_schema" =>
      match contract.fields["json_schema"]? with
      | none => .error (.execution "JSON schema contract omitted schema")
      | some schemaText =>
        match serde.fromStr schemaText.toList with
        | .error error => .error (.execution ("invalid JSON schema contract: " ++ error))
        | .ok schema =>
          match flavor with
          | .sglang => .ok { body with jsonSchema := some schemaText }
          | .vllm => .ok { body with
            responseFormat := some (.jsonSchema
              (contract.fields["json_schema_name"]?.getD "response")
              schema (contract.fields["strict"]? == some "true")) }
    | some "text" | none => .ok body
    | some other => .error (.unsupported ("unknown response format: " ++ other))

/-- The token sequences of a request. -/
def tokenSequences (request : CanonicalRequest) : List (List UInt32) :=
  request.items.filterMap fun item =>
    match item.value with
    | .tokenSequence tokenIds => some tokenIds
    | .other _ => none

/-- The body before the output contract is applied. -/
def plainBody (serde : Serde) (flavor : RuntimeFlavor) (request : CanonicalRequest)
    (servedModel : String) (prompt : List UInt32) : CompletionBody serde where
  model := servedModel
  prompt := prompt
  stream := true
  includeUsage := true
  maxTokens := request.maxOutputTokens.getD 16
  temperature := request.temperature.getD oneBits
  topP := request.topP.getD oneBits
  seed := request.seed
  stop := if request.stopSequences = [] then none else some request.stopSequences
  rid := if flavor = .sglang then some request.id else none
  requestId := if flavor = .vllm then some request.id else none
  addSpecialTokens := if flavor = .vllm then some false else none
  responseFormat := none
  jsonSchema := none

/-- `RemoteCompletionAdapter::completion_body` -/
def completionBody (serde : Serde) (flavor : RuntimeFlavor) (request : CanonicalRequest)
    (servedModel : String) : Except EngineError (CompletionBody serde) :=
  match tokenSequences request with
  | [] => .error (.unsupported "remote completion requires a token sequence")
  | _ :: _ :: _ =>
    .error (.unsupported "remote completion supports exactly one token sequence")
  | [prompt] =>
    if (request.annotations.any fun note => note.typeUrl = "locus.tool.v1") ∧
        request.toolParser = none then
      .error (.unsupported "function tools require a model-profile tool parser")
    else if request.requirements.requiresToolCalls then
      .error (.unsupported "remote completion adapter does not emit native tool-call events")
    else if request.requirements.requiresReasoningDeltas then
      .error (.unsupported "remote completion adapter does not emit native reasoning events")
    else
      applyOutputContract serde (plainBody serde flavor request servedModel prompt) request flavor

section Spec

variable {serde : Serde} {flavor : RuntimeFlavor} {request : CanonicalRequest}
  {servedModel : String} {body sent : CompletionBody serde}

/-- The output contract changes neither the prompt nor the output limit. -/
theorem of_applyOutputContract (h : applyOutputContract serde body request flavor = .ok sent) :
    sent.prompt = body.prompt ∧ sent.maxTokens = body.maxTokens := by
  unfold applyOutputContract at h
  split at h
  · cases h
    exact ⟨rfl, rfl⟩
  · split at h
    · cases h
      exact ⟨rfl, rfl⟩
    · split at h
      · cases h
      · split at h
        · cases h
        · split at h <;>
          · cases h
            exact ⟨rfl, rfl⟩
    · cases h
      exact ⟨rfl, rfl⟩
    · cases h
      exact ⟨rfl, rfl⟩
    · cases h

/-- A body has the only token sequence of the request and its output limit. -/
theorem of_completionBody (h : completionBody serde flavor request servedModel = .ok sent) :
    tokenSequences request = [sent.prompt] ∧
      sent.maxTokens = request.maxOutputTokens.getD 16 := by
  unfold completionBody at h
  split at h
  · cases h
  · cases h
  · rename_i prompt hprompt
    split_ifs at h
    obtain ⟨hsent, hmax⟩ := of_applyOutputContract h
    rw [hprompt, hsent, hmax]
    exact ⟨rfl, rfl⟩

end Spec

end Locus.Engine
