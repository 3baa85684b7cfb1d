import Locus.Lib.Fallible
import Locus.ModelIo.Normalize

/-!
# The contract in the annotations

What a request asks of its output can be read back from the annotations of its canonical
form, field by field.
-/

namespace Locus.ModelIo

open Std (ExtTreeMap)
open Locus.Core Locus.Lib Locus.Parser

/-- A field of an annotation is what was set last under its name. -/
theorem metadataOf_getElem? (typeUrl : String) (fields : List (String × String)) (key : String) :
    (metadataOf typeUrl fields).fields[key]? =
      (fields.reverse.find? fun field => field.1 == key).map Prod.snd := by
  induction fields using List.reverseRecOn with
  | nil => simp [metadataOf]
  | append_singleton fields field ih =>
    simp only [metadataOf] at ih
    simp only [metadataOf, List.foldl_append, List.foldl_cons, List.foldl_nil,
      ExtTreeMap.getElem?_insert, List.reverse_append, List.reverse_cons, List.reverse_nil,
      List.nil_append, List.singleton_append, List.find?_cons]
    by_cases heq : field.1 = key
    · simp [heq]
    · have hbeq : (field.1 == key) = false := by simpa using heq
      simp [heq, hbeq, ih]

/-- The name of a response format. -/
def ResponseFormat.kind : ResponseFormat → String
  | .text => "text"
  | .jsonObject => "json_object"
  | .jsonSchema _ _ _ _ => "json_schema"

section Lookups

variable (request : ModelRequest)

/-- The generation contract of a request. -/
abbrev generationContract : TypedMetadata :=
  metadataOf "locus.generation-contract.v1" (contractFields request)

theorem generationContract_toolChoice :
    (generationContract request).fields["tool_choice"]? = some request.toolChoice.contractText := by
  rw [metadataOf_getElem?, contractFields]
  rcases request.responseFormat with _ | _ | ⟨_, _ | _, _, _⟩ <;>
    cases request.reasoningEffort <;> rfl

theorem generationContract_responseFormat :
    (generationContract request).fields["response_format"]? = some request.responseFormat.kind := by
  rw [metadataOf_getElem?, contractFields]
  rcases request.responseFormat with _ | _ | ⟨_, _ | _, _, _⟩ <;>
    cases request.reasoningEffort <;> rfl

theorem generationContract_reasoningEffort :
    (generationContract request).fields["reasoning_effort"]? =
      request.reasoningEffort.map ReasoningEffort.asStr := by
  rw [metadataOf_getElem?, contractFields]
  rcases request.responseFormat with _ | _ | ⟨_, _ | _, _, _⟩ <;>
    cases request.reasoningEffort <;> rfl

variable {request} {name schema : String} {description : Option String} {strict : Bool}

theorem generationContract_jsonSchema
    (h : request.responseFormat = .jsonSchema name description schema strict) :
    let fields := (generationContract request).fields
    fields["json_schema_name"]? = some name ∧ fields["json_schema"]? = some schema ∧
      fields["strict"]? = some (toString strict) ∧
      fields["json_schema_description"]? = description := by
  simp only [metadataOf_getElem?, contractFields, h, ResponseFormat.fields]
  cases description <;> cases request.reasoningEffort <;> exact ⟨rfl, rfl, rfl, rfl⟩

end Lookups

/-- Flags are told apart by their texts. -/
theorem toString_bool_inj {flag flag' : Bool} (h : toString flag = toString flag') :
    flag = flag' := by
  cases flag <;> cases flag' <;> first | rfl | exact absurd h (by decide)

/-- The annotation of a tool holds what the tool is. -/
theorem toolMetadata_fields (tool : ToolDefinition) :
    let fields := (metadataOf "locus.tool.v1" tool.fields).fields
    fields["name"]? = some tool.name ∧ fields["parameters"]? = some tool.parametersSchema ∧
      fields["strict"]? = some (toString tool.strict) ∧
      fields["description"]? = tool.description := by
  obtain ⟨name, description, parametersSchema, strict⟩ := tool
  simp only [metadataOf_getElem?]
  cases description <;> exact ⟨rfl, rfl, rfl, rfl⟩

/-- The annotations of tools keep the tools apart. -/
theorem toolMetadata_inj {tool tool' : ToolDefinition}
    (h : metadataOf "locus.tool.v1" tool.fields = metadataOf "locus.tool.v1" tool'.fields) :
    tool = tool' := by
  obtain ⟨hname, hparameters, hstrict, hdescription⟩ := toolMetadata_fields tool
  rw [h] at hname hparameters hstrict hdescription
  obtain ⟨hname', hparameters', hstrict', hdescription'⟩ := toolMetadata_fields tool'
  have hnames := Option.some.inj (hname.symm.trans hname')
  have hschemas := Option.some.inj (hparameters.symm.trans hparameters')
  have hflags := toString_bool_inj (Option.some.inj (hstrict.symm.trans hstrict'))
  have htexts := hdescription.symm.trans hdescription'
  cases tool
  cases tool'
  simp_all

/-- The annotations of tool choices keep them apart. -/
theorem ToolChoice.contractText_inj {choice choice' : ToolChoice}
    (h : choice.contractText = choice'.contractText) : choice = choice' := by
  have hchars := congrArg String.toList h
  cases choice <;> cases choice' <;> simp [ToolChoice.contractText] at hchars ⊢
  exact String.toList_inj.mp hchars

/-- Efforts are told apart by their names. -/
theorem ReasoningEffort.asStr_inj {effort effort' : ReasoningEffort}
    (h : effort.asStr = effort'.asStr) : effort = effort' := by
  cases effort <;> cases effort' <;> first | rfl | exact absurd h (by decide)

/-- Generation contracts keep response formats apart. -/
theorem responseFormat_eq {request request' : ModelRequest}
    (h : generationContract request = generationContract request') :
    request.responseFormat = request'.responseFormat := by
  have hkind := generationContract_responseFormat request
  rw [h, generationContract_responseFormat, Option.some.injEq] at hkind
  cases hformat : request.responseFormat with
  | text =>
    cases hformat' : request'.responseFormat with
    | text => rfl
    | jsonObject | jsonSchema => exact absurd hkind (by simp [hformat, hformat', ResponseFormat.kind])
  | jsonObject =>
    cases hformat' : request'.responseFormat with
    | jsonObject => rfl
    | text | jsonSchema => exact absurd hkind (by simp [hformat, hformat', ResponseFormat.kind])
  | jsonSchema name description schema strict =>
    cases hformat' : request'.responseFormat with
    | text | jsonObject => exact absurd hkind (by simp [hformat, hformat', ResponseFormat.kind])
    | jsonSchema name' description' schema' strict' =>
      obtain ⟨hname, hschema, hstrict, hdescription⟩ := generationContract_jsonSchema hformat
      rw [h] at hname hschema hstrict hdescription
      obtain ⟨hname', hschema', hstrict', hdescription'⟩ := generationContract_jsonSchema hformat'
      have hnames := Option.some.inj (hname.symm.trans hname')
      have hschemas := Option.some.inj (hschema.symm.trans hschema')
      have hflags := toString_bool_inj (Option.some.inj (hstrict.symm.trans hstrict'))
      rw [hnames, hschemas, hflags, hdescription.symm.trans hdescription']

/-- The tools are annotated one by one. -/
theorem toolAnnotations_eq_ok {serde : Serde} {tools : List ToolDefinition}
    {notes : List TypedMetadata} (h : toolAnnotations serde tools = .ok notes) :
    notes = tools.map fun tool => metadataOf "locus.tool.v1" tool.fields := by
  induction tools generalizing notes with
  | nil =>
    cases h
    rfl
  | cons tool rest ih =>
    rw [toolAnnotations] at h
    split at h
    · cases h
    · split at h <;> cases h
      rename_i notes hrest
      rw [List.map_cons, ih hrest]

/-- The annotations of an accepted contract. -/
theorem contractAnnotations_eq_ok {serde : Serde} {request : ModelRequest}
    {notes : List TypedMetadata} (h : contractAnnotations serde request = .ok notes) :
    validateResponseSchema serde request.responseFormat = .ok () ∧
      notes = generationContract request ::
        request.tools.map fun tool => metadataOf "locus.tool.v1" tool.fields := by
  obtain ⟨_, hschema, h⟩ := bind_eq_ok h
  obtain ⟨toolNotes, htools, h⟩ := bind_eq_ok h
  cases h
  exact ⟨hschema, by rw [toolAnnotations_eq_ok htools]⟩

/-- Two requests with the same annotations ask the same of their output: nothing of the
contract is lost or mixed up on the way to the engine adapters. -/
theorem contractAnnotations_inj {serde : Serde} {request request' : ModelRequest}
    {notes : List TypedMetadata} (h : contractAnnotations serde request = .ok notes)
    (h' : contractAnnotations serde request' = .ok notes) :
    request.tools = request'.tools ∧ request.toolChoice = request'.toolChoice ∧
      request.responseFormat = request'.responseFormat ∧
      request.reasoningEffort = request'.reasoningEffort := by
  obtain ⟨hhead, htail⟩ := List.cons.inj
    ((contractAnnotations_eq_ok h).2.symm.trans (contractAnnotations_eq_ok h').2)
  refine ⟨?_, ?_, ?_, ?_⟩
  · exact List.map_injective_iff.mpr (fun _ _ => toolMetadata_inj) htail
  · have hchoice := generationContract_toolChoice request
    rw [hhead, generationContract_toolChoice, Option.some.injEq] at hchoice
    exact (ToolChoice.contractText_inj hchoice).symm
  · exact responseFormat_eq hhead
  · have heffort := generationContract_reasoningEffort request
    rw [hhead, generationContract_reasoningEffort] at heffort
    exact (Option.map_injective (fun _ _ => ReasoningEffort.asStr_inj) heffort).symm

/-- A request for a call of `f`, with an answer in a schema. -/
def sampleModelRequest (model : String) : ModelRequest where
  model := model
  input := .conversation [⟨.user, "find", none⟩]
  tools := [⟨"f", some "Finds", "\x7b\x7d", false⟩]
  toolChoice := .function "f"
  responseFormat := .jsonSchema "answer" none "\x7b\x7d" true

/-- Requests to two models may have the same annotations. -/
theorem contractAnnotations_inj_sample :
    (∃ notes, contractAnnotations sampleSerde (sampleModelRequest "a") = .ok notes ∧
      contractAnnotations sampleSerde (sampleModelRequest "b") = .ok notes) ∧
    (sampleModelRequest "a").responseFormat = (sampleModelRequest "b").responseFormat :=
  ⟨⟨_, rfl, rfl⟩, (@contractAnnotations_inj sampleSerde (sampleModelRequest "a")
    (sampleModelRequest "b") _ rfl rfl).2.2.1⟩

end Locus.ModelIo
