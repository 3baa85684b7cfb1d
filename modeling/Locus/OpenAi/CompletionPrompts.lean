import Locus.Engine.NormalizedBody
import Locus.OpenAi.Completions

/-!
# From a raw prompt to an engine

An accepted request for a raw prompt is normalized exactly if the prompt has tokens. It then
asks for nothing that a remote adapter cannot do, so that it reaches every engine: as the tokens
that the client sent, or as those of its text.
-/

namespace Locus.OpenAi

open Locus.Core Locus.Engine Locus.Lib Locus.ModelIo Locus.Parser

/-- The tokens that a prompt stands for. A batch stands for none. -/
def CompletionPrompt.HasTokens (model : BasicModelIo) (tokens : List UInt32) :
    CompletionPrompt → Prop
  | .text prompt => model.encode prompt = .ok tokens
  | .tokenIds prompt => prompt = tokens
  | .textBatch _ | .tokenBatch _ => False

/-- The body carries the parameters of the request. -/
structure CompletionRequest.SentIn {serde : Serde} (request : CompletionRequest)
    (body : CompletionBody serde) : Prop where
  maxTokens : body.maxTokens = request.maxTokens.getD 16
  temperature : body.temperature = request.temperature.getD oneBits
  topP : body.topP = request.topP.getD oneBits
  seed : body.seed = request.seed
  stop : body.stop.getD [] = request.stopSequences
  format : body.responseFormat = none ∧ body.jsonSchema = none

variable {serde : Serde} {model : BasicModelIo} {request : CompletionRequest}
  {semantic : ModelRequest} {input : PromptInput} {requestId : RequestId}
  {tokens : List UInt32} {canonical : CanonicalRequest} {contract : OutputContract}

/-- What an accepted request becomes. -/
theorem intoSemantic_eq_ok (h : request.intoSemantic = .ok semantic) :
    ∃ input, CompletionRequest.promptInput request.prompt = .ok input ∧
      semantic = request.semantic input := by
  unfold CompletionRequest.intoSemantic at h
  obtain ⟨-, h⟩ := guard_eq_ok h
  obtain ⟨-, h⟩ := guard_eq_ok h
  obtain ⟨-, h⟩ := guard_eq_ok h
  obtain ⟨-, h⟩ := guard_eq_ok h
  obtain ⟨-, h⟩ := guard_eq_ok h
  obtain ⟨-, h⟩ := guard_eq_ok h
  obtain ⟨input, hinput, h⟩ := bind_eq_ok h
  obtain ⟨-, h⟩ := guard_eq_ok h
  cases h
  exact ⟨input, hinput, rfl⟩

/-- The tokens of an accepted prompt. -/
theorem promptTokens_eq_ok_iff
    (h : CompletionRequest.promptInput request.prompt = .ok input) :
    model.promptTokens input = .ok tokens ↔ request.prompt.HasTokens model tokens := by
  cases hprompt : request.prompt <;> rw [hprompt] at h <;> cases h <;>
    simp [BasicModelIo.promptTokens, CompletionPrompt.HasTokens]

/-- A raw prompt is read as the profile says, but for its template. -/
theorem inputTokens_semantic : model.inputTokens (request.semantic input) =
    (model.promptTokens input).map fun tokens =>
      (tokens, rawPromptSemanticIdentity model.profile.semanticIdentity) := by
  cases hinput : model.promptTokens input <;>
    simp [BasicModelIo.inputTokens, CompletionRequest.semantic, validatePromptContract, hinput] <;>
    rfl

/-- A raw prompt is normalized if it has tokens. -/
theorem normalize_semantic (h : model.promptTokens input = .ok tokens) :
    ∃ canonical contract,
      model.normalize serde (request.semantic input) requestId = .ok (canonical, contract) := by
  have hnormal : model.normalize serde (request.semantic input) requestId =
      .ok (model.canonicalRequest (request.semantic input) requestId tokens
        (rawPromptSemanticIdentity model.profile.semanticIdentity)
        [metadataOf "locus.generation-contract.v1" (contractFields (request.semantic input))],
        ⟨[], .none, .text⟩) := by
    rw [BasicModelIo.normalize, inputTokens_semantic, h]
    rfl
  exact ⟨_, _, hnormal⟩

/-- Text needs no format in the body. -/
theorem format_of_text {flavor : RuntimeFlavor} {format : Option (Engine.ResponseFormat serde)}
    {schema : Option String} (h : FormatSent serde flavor .text format schema) :
    format = none ∧ schema = none := by
  cases h
  exact ⟨rfl, rfl⟩

/-- The sample model before it got its tool parser. -/
def samplePlainModel : BasicModelIo :=
  ⟨sampleModelIo.profile, sampleModelIo.encode, sampleModelIo.render, sampleModelIo.decoder,
    none, none⟩

/-- Tokens that no tokenizer has made. -/
def sampleTokenPrompt : CompletionRequest where
  model := "a"
  prompt := .tokenIds [5, 7]
  stop := some (.one "end")

end Locus.OpenAi
