import Locus.Engine.RemoteTargets
import Locus.ModelIo.ContractAnnotations

/-!
# From a model request to a completion request

A request is normalized, planned and sent to a remote engine. The planner goes by the
capabilities that the remote adapters report, the adapter by what it can put in a body. Both
draw the line at the same place, and what is sent is what was asked for.
-/

namespace Locus.Engine

open Locus.Core Locus.Lib Locus.Parser Locus.ModelIo

/-- How a response format is asked for in a body. SGLang gets the schema alone. -/
inductive FormatSent (serde : Serde) : RuntimeFlavor → ModelIo.ResponseFormat →
    Option (ResponseFormat serde) → Option String → Prop
  | text (flavor : RuntimeFlavor) : FormatSent serde flavor .text none none
  | jsonObject (flavor : RuntimeFlavor) :
    FormatSent serde flavor .jsonObject (some .jsonObject) none
  | sglang (name : String) (description : Option String) (schema : String) (strict : Bool) :
    FormatSent serde .sglang (.jsonSchema name description schema strict) none (some schema)
  | vllm (name : String) (description : Option String) {schema : String} (strict : Bool)
    {value : serde.Value} (parsed : serde.fromStr schema.toList = .ok value) :
    FormatSent serde .vllm (.jsonSchema name description schema strict)
      (some (.jsonSchema name value strict)) none

/-- The body asks for what the request asked for. -/
structure AsksFor (serde : Serde) (flavor : RuntimeFlavor) (model : BasicModelIo)
    (request : ModelRequest) (requestId : RequestId) (body : CompletionBody serde) : Prop where
  prompt : ∃ identity, model.inputTokens request = .ok (body.prompt, identity)
  maxTokens : body.maxTokens = request.sampling.maxOutputTokens.getD 16
  temperature : body.temperature = request.sampling.temperature.getD oneBits
  topP : body.topP = request.sampling.topP.getD oneBits
  seed : body.seed = request.sampling.seed
  stop : body.stop.getD [] = request.sampling.stopSequences
  id : body.rid.or body.requestId = some requestId
  format : FormatSent serde flavor request.responseFormat body.responseFormat body.jsonSchema

section Normalized

variable {serde : Serde} {model : BasicModelIo} {request : ModelRequest} {requestId : RequestId}
  {canonical : CanonicalRequest} {contract : OutputContract} {notes : List TypedMetadata}
  {flavor : RuntimeFlavor} {body : CompletionBody serde}

/-- The parts of a normalized request. -/
theorem normalize_eq_ok (h : model.normalize serde request requestId = .ok (canonical, contract)) :
    ∃ tokens identity notes, model.inputTokens request = .ok (tokens, identity) ∧
      contractAnnotations serde request = .ok notes ∧
      canonical = model.canonicalRequest request requestId tokens identity notes := by
  obtain ⟨_, -, h⟩ := bind_eq_ok h
  obtain ⟨⟨tokens, identity⟩, htokens, h⟩ := bind_eq_ok h
  obtain ⟨notes, hnotes, h⟩ := bind_eq_ok h
  cases h
  exact ⟨tokens, identity, notes, htokens, hnotes, rfl⟩

/-- A model that reads tool calls itself has a tool parser in its profile. -/
theorem toolParser_of_built (h : model.Built) (hparser : model.toolParser ≠ none) :
    model.profile.semanticIdentity.toolParser ≠ none := by
  induction h with
  | new => exact absurd rfl hparser
  | @withOutputParsers model next reasoningParser toolParser built added ih =>
    obtain ⟨_, -, added⟩ := bind_eq_ok added
    obtain ⟨_, hvalid, added⟩ := bind_eq_ok added
    cases added
    unfold validateParserIdentity at hvalid
    split_ifs at hvalid with heq
    rw [not_not.mp heq]
    simpa using hparser

/-- The tool parser of the profile is kept, for raw prompts too. -/
theorem inputTokens_toolParser {tokens : List UInt32} {identity : SemanticIdentity}
    (h : model.inputTokens request = .ok (tokens, identity)) :
    identity.toolParser = model.profile.semanticIdentity.toolParser := by
  unfold BasicModelIo.inputTokens at h
  split at h
  · obtain ⟨-, h⟩ := guard_eq_ok h
    obtain ⟨_, -, h⟩ := bind_eq_ok h
    obtain ⟨_, -, h⟩ := bind_eq_ok h
    cases h
    rfl
  · obtain ⟨_, -, h⟩ := bind_eq_ok h
    obtain ⟨_, -, h⟩ := bind_eq_ok h
    cases h
    rfl

/-- Annotations of tools are there exactly if there are tools. -/
theorem any_toolMetadata (h : contractAnnotations serde request = .ok notes) :
    (notes.any fun note => note.typeUrl = "locus.tool.v1") = !request.tools.isEmpty := by
  rw [(contractAnnotations_eq_ok h).2]
  cases request.tools with
  | nil => rfl
  | cons tool rest =>
    rw [List.any_cons, List.map_cons, List.any_cons]
    simp [metadataOf]

/-- The output contract of a normalized request is applied as it was meant. -/
theorem applyOutputContract_annotations (h : contractAnnotations serde request = .ok notes)
    (hcanonical : canonical.annotations = notes) (hformat : body.responseFormat = none)
    (hschema : body.jsonSchema = none) :
    ∃ format schema, FormatSent serde flavor request.responseFormat format schema ∧
      applyOutputContract serde body canonical flavor =
        .ok { body with responseFormat := format, jsonSchema := schema } := by
  obtain ⟨hvalid, hnotes⟩ := contractAnnotations_eq_ok h
  have hfind : (canonical.annotations.find? fun note =>
      note.typeUrl = "locus.generation-contract.v1") = some (generationContract request) := by
    rw [hcanonical, hnotes]
    rfl
  have hkind := generationContract_responseFormat request
  unfold applyOutputContract
  rw [hfind]
  dsimp only
  cases hasked : request.responseFormat with
  | text =>
    rw [hasked] at hkind
    rw [hkind]
    refine ⟨none, none, .text flavor, ?_⟩
    obtain ⟨⟩ := body
    cases hformat
    cases hschema
    rfl
  | jsonObject =>
    rw [hasked] at hkind
    rw [hkind]
    refine ⟨some .jsonObject, none, .jsonObject flavor, ?_⟩
    obtain ⟨⟩ := body
    cases hschema
    rfl
  | jsonSchema name description schema strict =>
    rw [hasked] at hkind hvalid
    obtain ⟨hname, htext, hstrict, -⟩ := generationContract_jsonSchema hasked
    rw [hkind, htext, hname, hstrict]
    cases hparsed : serde.fromStr schema.toList with
    | error error => simp [validateResponseSchema, hparsed] at hvalid
    | ok value =>
      cases flavor with
      | sglang =>
        refine ⟨none, some schema, .sglang name description schema strict, ?_⟩
        obtain ⟨⟩ := body
        cases hformat
        simp [ResponseFormat.kind, hparsed]
      | vllm =>
        refine ⟨some (.jsonSchema name value strict), none,
          .vllm name description strict hparsed, ?_⟩
        obtain ⟨⟩ := body
        cases hschema
        have hflag : (toString strict == "true") = strict := by cases strict <;> decide
        simp [ResponseFormat.kind, hparsed, hflag]

/-- The planner takes a remote adapter for a normalized request exactly if neither calls nor
reasoning have to be read by the engine. -/
theorem satisfies_canonicalRequest (tokens : List UInt32) (identity : SemanticIdentity) :
    remoteCapabilities.satisfies
        (model.canonicalRequest request requestId tokens identity notes).requirements = true ↔
      (request.tools.isEmpty ∨ model.toolParser ≠ none) ∧
        (request.reasoningEffort = none ∨ model.reasoningParser ≠ none) := by
  simp only [EngineCapabilities.satisfies, remoteCapabilities, BasicModelIo.canonicalRequest]
  cases request.tools.isEmpty <;> cases model.toolParser <;> cases request.reasoningEffort <;>
    cases model.reasoningParser <;> simp

/-- What a remote adapter makes of a normalized request. -/
theorem completionBody_normalized (hnotes : contractAnnotations serde request = .ok notes)
    {tokens : List UInt32} {identity : SemanticIdentity}
    (hcanonical :
      canonical = model.canonicalRequest request requestId tokens identity notes)
    (flavor : RuntimeFlavor) (servedModel : String) :
    ∃ format schema, FormatSent serde flavor request.responseFormat format schema ∧
      completionBody serde flavor canonical servedModel =
        if (!request.tools.isEmpty) = true ∧ canonical.toolParser = none then
          .error (.unsupported "function tools require a model-profile tool parser")
        else if canonical.requirements.requiresToolCalls then
          .error (.unsupported "remote completion adapter does not emit native tool-call events")
        else if canonical.requirements.requiresReasoningDeltas then
          .error (.unsupported "remote completion adapter does not emit native reasoning events")
        else .ok { plainBody serde flavor canonical servedModel tokens with
          responseFormat := format, jsonSchema := schema } := by
  obtain ⟨format, schema, hsent, happly⟩ :
      ∃ format schema, FormatSent serde flavor request.responseFormat format schema ∧
        applyOutputContract serde (plainBody serde flavor canonical servedModel tokens) canonical
            flavor =
          .ok { plainBody serde flavor canonical servedModel tokens with
            responseFormat := format, jsonSchema := schema } :=
    applyOutputContract_annotations hnotes (hcanonical ▸ rfl) rfl rfl
  refine ⟨format, schema, hsent, ?_⟩
  rw [← happly, ← any_toolMetadata hnotes, hcanonical]
  rfl

/-- A remote adapter can make a body exactly if its capabilities satisfy the request. -/
theorem exists_completionBody_iff (hbuilt : model.Built)
    (h : model.normalize serde request requestId = .ok (canonical, contract))
    (flavor : RuntimeFlavor) (servedModel : String) :
    (∃ body, completionBody serde flavor canonical servedModel = .ok body) ↔
      remoteCapabilities.satisfies canonical.requirements = true := by
  obtain ⟨tokens, identity, notes, htokens, hnotes, hcanonical⟩ := normalize_eq_ok h
  obtain ⟨format, schema, -, hbody⟩ :=
    completionBody_normalized hnotes hcanonical flavor servedModel
  have hparser : model.toolParser ≠ none → canonical.toolParser ≠ none := by
    intro hreads
    rw [hcanonical]
    change identity.toolParser ≠ none
    rw [inputTokens_toolParser htokens]
    exact toolParser_of_built hbuilt hreads
  have hcalls : canonical.requirements.requiresToolCalls = true ↔
      ¬request.tools.isEmpty ∧ model.toolParser = none := by
    simp [hcanonical, BasicModelIo.canonicalRequest]
  have hreasoning : canonical.requirements.requiresReasoningDeltas = true ↔
      request.reasoningEffort ≠ none ∧ model.reasoningParser = none := by
    simp [hcanonical, BasicModelIo.canonicalRequest, Option.isSome_iff_ne_none]
  have hsatisfies : remoteCapabilities.satisfies canonical.requirements = true ↔
      (request.tools.isEmpty ∨ model.toolParser ≠ none) ∧
        (request.reasoningEffort = none ∨ model.reasoningParser ≠ none) := by
    rw [hcanonical]
    exact satisfies_canonicalRequest tokens identity
  rw [hbody, hsatisfies]
  split_ifs with htools hneeded hdeltas
  · have hunread : model.toolParser = none := by
      by_contra hreads
      exact hparser hreads htools.2
    simp_all
  · have := hcalls.mp hneeded
    simp_all
  · have := hreasoning.mp hdeltas
    simp_all
  · rw [hcalls] at hneeded
    rw [hreasoning] at hdeltas
    refine iff_of_true ⟨_, rfl⟩ ⟨?_, ?_⟩
    · by_contra hnone
      exact hneeded ((not_or.mp hnone).imp_right not_not.mp)
    · by_contra hnone
      exact hdeltas ((not_or.mp hnone).imp_right not_not.mp)

/-- The body of a normalized request asks for what the request asked for. -/
theorem asksFor_of_completionBody
    (h : model.normalize serde request requestId = .ok (canonical, contract))
    {servedModel : String}
    (hmade : completionBody serde flavor canonical servedModel = .ok body) :
    body.model = servedModel ∧ AsksFor serde flavor model request requestId body := by
  obtain ⟨tokens, identity, notes, htokens, hnotes, rfl⟩ := normalize_eq_ok h
  obtain ⟨format, schema, hsent, hbody⟩ := completionBody_normalized hnotes rfl flavor servedModel
  rw [hbody] at hmade
  split_ifs at hmade
  cases hmade
  refine ⟨rfl, ⟨identity, htokens⟩, rfl, rfl, rfl, rfl, ?_, ?_, hsent⟩
  · change (if request.sampling.stopSequences = [] then none
      else some request.sampling.stopSequences).getD [] = request.sampling.stopSequences
    split_ifs with hempty
    · exact hempty.symm
    · rfl
  · cases flavor <;> rfl

end Normalized

theorem sampleToolParser_valid :
    validateDelimiters "tool" "<t>".toList "</t>".toList = .ok () := by decide

/-- The tool parser of the sample model. -/
def sampleToolParser : TaggedJsonToolParserDefinition where
  identity := ⟨"tool", "1", "a"⟩
  startDelimiter := "<t>".toList
  endDelimiter := "</t>".toList
  maxBufferedBytes := 64
  valid := sampleToolParser_valid
  limited := Nat.succ_ne_zero 63

/-- A model whose tool parser is named in its profile. Every text is one token. -/
def sampleModelIo : BasicModelIo where
  profile := {
    publicAliases := ["a"]
    model := ⟨"revision", none, "profile"⟩
    semanticIdentity := {
      input := ⟨⟨"tokenizer", "1", "a"⟩, ⟨"template", "1", "b"⟩, none⟩
      reasoningParser := none
      toolParser := some ⟨"tool", "1", "a"⟩
      umbrellaFingerprint := none } }
  encode _ := .ok [1]
  render _ := .ok "find"
  decoder _ := .ok []
  toolParser := some sampleToolParser

end Locus.Engine
