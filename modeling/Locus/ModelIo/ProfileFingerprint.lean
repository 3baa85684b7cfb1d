import Locus.ModelIo.HuggingFace

/-!
# What a fingerprint stands for

The umbrella fingerprint of a loaded profile stands for its tokenizer, its template and its
parsers: two models with the same one read and write tokens alike, unless two different
texts with the same SHA-256 digest are found.
-/

namespace Locus.ModelIo

open Locus.Core Locus.Lib Locus.Parser

variable {Value : Type} {platform : Platform Value}

/-- Two texts have the same digest. -/
def Collides (platform : Platform Value) : Prop :=
  ∃ bytes bytes', bytes ≠ bytes' ∧ platform.digest bytes = platform.digest bytes'

/-- A fingerprint stands for the bytes that it was taken of. -/
theorem eq_of_sha256_eq (hfree : ¬Collides platform) {bytes bytes' : ByteArray}
    (h : sha256 platform bytes = sha256 platform bytes') : bytes = bytes' := by
  have hdigits := congrArg String.toList ((String.append_right_inj _).mp h)
  rw [String.toList_ofList, String.toList_ofList] at hdigits
  have hdigest := flatMap_hexByte_injective hdigits
  by_contra hne
  exact hfree ⟨bytes, bytes', hne, hdigest⟩

/-- The same for texts. -/
theorem eq_of_sha256_toUTF8_eq (hfree : ¬Collides platform) {text text' : String}
    (h : sha256 platform text.toUTF8 = sha256 platform text'.toUTF8) : text = text' :=
  String.toByteArray_inj.mp (eq_of_sha256_eq hfree h)

/-- A fingerprint is one line. -/
theorem newline_notMem_sha256 (bytes : ByteArray) : '\n' ∉ (sha256 platform bytes).toList := by
  have hstart : '\n' ∉ "sha256:".toList := by decide
  rw [sha256, String.toList_append, List.mem_append]
  rintro (h | h)
  · exact hstart h
  · rw [String.toList_ofList, List.mem_flatMap] at h
    obtain ⟨byte, -, h⟩ := h
    exact newline_notMem_hexByte byte h

/-- A fingerprint is not the word for a missing parser. -/
theorem sha256_ne_none (bytes : ByteArray) : sha256 platform bytes ≠ "none" := by
  intro h
  have hfirst := congrArg (fun text => text.toList.head?) h
  simp [sha256] at hfirst

/-- An identity whose fingerprint is that of some frames. -/
def Fingerprints (platform : Platform Value) (identity : SemanticComponentIdentity)
    (fields : List String) : Prop :=
  identity.fingerprint = sha256 platform
    (frames (identity.kind :: identity.revision :: fields)).toUTF8

/-- Identities with the same fingerprint are of the same kind and revision and stand for the
same fields. -/
theorem Fingerprints.eq (hfree : ¬Collides platform) {identity identity' : SemanticComponentIdentity}
    {fields fields' : List String} (h : Fingerprints platform identity fields)
    (h' : Fingerprints platform identity' fields')
    (hsame : identity.fingerprint = identity'.fingerprint) :
    identity = identity' ∧ fields = fields' := by
  have hframes : identity.kind :: identity.revision :: fields =
      identity'.kind :: identity'.revision :: fields' := by
    rw [h, h'] at hsame
    exact frames_injective (eq_of_sha256_toUTF8_eq hfree hsame)
  obtain ⟨hkind, hrest⟩ := List.cons.inj hframes
  obtain ⟨hrevision, hfields⟩ := List.cons.inj hrest
  obtain ⟨kind, revision, fingerprint⟩ := identity
  obtain ⟨kind', revision', fingerprint'⟩ := identity'
  simp only at hkind hrevision hsame
  exact ⟨by rw [hkind, hrevision, hsame], hfields⟩

/-- The fields behind the identity of a reasoning parser. -/
def reasoningFields (definition : TaggedReasoningParserDefinition) : List String :=
  [String.ofList definition.startDelimiter, String.ofList definition.endDelimiter]

/-- The fields behind the identity of a tool parser. -/
def toolFields (definition : TaggedJsonToolParserDefinition) : List String :=
  [String.ofList definition.startDelimiter, String.ofList definition.endDelimiter,
    toString definition.maxBufferedBytes]

/-- The identity of a parser is a fingerprint of its fields. -/
theorem parserIdentity_eq_ok {kind revision : String} {fields : List String}
    {identity : SemanticComponentIdentity}
    (h : parserIdentity platform kind revision fields = .ok identity) :
    Fingerprints platform identity fields := by
  unfold parserIdentity at h
  split_ifs at h
  cases h
  rfl

theorem buildReasoningParser_eq_ok {parser : TaggedReasoningParserSpec}
    {definition : TaggedReasoningParserDefinition}
    (h : buildReasoningParser platform parser = .ok definition) :
    Fingerprints platform definition.identity (reasoningFields definition) := by
  obtain ⟨identity, hidentity, h⟩ := bind_eq_ok h
  have hnew := mapError_eq_ok h
  unfold TaggedReasoningParserDefinition.new at hnew
  split at hnew
  · cases hnew
  · cases hnew
    simpa [reasoningFields] using parserIdentity_eq_ok hidentity

theorem buildToolParser_eq_ok {parser : TaggedJsonToolParserSpec}
    {definition : TaggedJsonToolParserDefinition}
    (h : buildToolParser platform parser = .ok definition) :
    Fingerprints platform definition.identity (toolFields definition) := by
  obtain ⟨identity, hidentity, h⟩ := bind_eq_ok h
  have hnew := mapError_eq_ok h
  unfold TaggedJsonToolParserDefinition.new at hnew
  split at hnew
  · cases hnew
  · split_ifs at hnew
    cases hnew
    simpa [toolFields] using parserIdentity_eq_ok hidentity

/-- Reasoning parsers with the same fingerprint are the same. -/
theorem reasoningParser_eq (hfree : ¬Collides platform)
    {definition definition' : TaggedReasoningParserDefinition}
    (h : Fingerprints platform definition.identity (reasoningFields definition))
    (h' : Fingerprints platform definition'.identity (reasoningFields definition'))
    (hsame : definition.identity.fingerprint = definition'.identity.fingerprint) :
    definition = definition' := by
  obtain ⟨hidentity, hfields⟩ := h.eq hfree h' hsame
  obtain ⟨hstart, hstop⟩ := List.cons.inj hfields
  have hstart := String.ofList_injective hstart
  have hstop := String.ofList_injective (List.cons.inj hstop).1
  cases definition
  cases definition'
  simp_all

/-- Tool parsers with the same fingerprint are the same. -/
theorem toolParser_eq (hfree : ¬Collides platform)
    {definition definition' : TaggedJsonToolParserDefinition}
    (h : Fingerprints platform definition.identity (toolFields definition))
    (h' : Fingerprints platform definition'.identity (toolFields definition'))
    (hsame : definition.identity.fingerprint = definition'.identity.fingerprint) :
    definition = definition' := by
  obtain ⟨hidentity, hfields⟩ := h.eq hfree h' hsame
  obtain ⟨hstart, hrest⟩ := List.cons.inj hfields
  obtain ⟨hstop, hrest⟩ := List.cons.inj hrest
  have hstart := String.ofList_injective hstart
  have hstop := String.ofList_injective hstop
  have hlimit := Nat.repr_injective (List.cons.inj hrest).1
  cases definition
  cases definition'
  simp_all

/-- The fingerprints in an umbrella can be told apart, as each is on a line of its own. -/
theorem umbrellaMaterial_inj {tokenizer template tokenizer' template' : ByteArray}
    {reasoning tool reasoning' tool' : Option SemanticComponentIdentity}
    (hreasoning : '\n' ∉ (fingerprintOrNone reasoning).toList)
    (hreasoning' : '\n' ∉ (fingerprintOrNone reasoning').toList)
    (htool : '\n' ∉ (fingerprintOrNone tool).toList)
    (htool' : '\n' ∉ (fingerprintOrNone tool').toList)
    (h : umbrellaMaterial (sha256 platform tokenizer) (sha256 platform template) reasoning tool =
      umbrellaMaterial (sha256 platform tokenizer') (sha256 platform template') reasoning'
        tool') :
    sha256 platform tokenizer = sha256 platform tokenizer' ∧
      sha256 platform template = sha256 platform template' ∧
      fingerprintOrNone reasoning = fingerprintOrNone reasoning' ∧
      fingerprintOrNone tool = fingerprintOrNone tool' := by
  have hlist := congrArg String.toList h
  have hbreak : "\n".toList = ['\n'] := rfl
  have hend : "\nlocus-profile-v2".toList = '\n' :: "locus-profile-v2".toList := rfl
  simp only [umbrellaMaterial, String.toList_append, List.append_assoc, hbreak, hend,
    List.singleton_append] at hlist
  obtain ⟨hfirst, hlist⟩ := eq_of_separator_append_eq (newline_notMem_sha256 _)
    (newline_notMem_sha256 _) hlist
  obtain ⟨hsecond, hlist⟩ := eq_of_separator_append_eq (newline_notMem_sha256 _)
    (newline_notMem_sha256 _) hlist
  obtain ⟨hthird, hlist⟩ := eq_of_separator_append_eq hreasoning hreasoning' hlist
  obtain ⟨hfourth, -⟩ := eq_of_separator_append_eq htool htool' hlist
  exact ⟨String.toList_injective hfirst, String.toList_injective hsecond,
    String.toList_injective hthird, String.toList_injective hfourth⟩

section Loaded

variable {serde : Serde} {platform : Platform serde.Value} {files files' : Files}
  {spec spec' : HuggingFaceProfileSpec serde.Value} {model model' : BasicModelIo}

/-- The identity that is given to a loaded model. -/
def loadedIdentity (platform : Platform serde.Value) (spec : HuggingFaceProfileSpec serde.Value)
    (tokenizerBytes templateBytes : ByteArray) (model : BasicModelIo) : SemanticIdentity :=
  semanticIdentity platform
    ⟨"huggingface-tokenizer-json", spec.tokenizerRevision, sha256 platform tokenizerBytes⟩
    ⟨"huggingface-chat-template", spec.templateRevision, sha256 platform templateBytes⟩
    (model.reasoningParser.map fun definition => definition.identity)
    (model.toolParser.map fun definition => definition.identity)

/-- What a model is loaded from. -/
structure LoadedFrom (platform : Platform serde.Value)
    (spec : HuggingFaceProfileSpec serde.Value) (tokenizerBytes templateBytes : ByteArray)
    (model : BasicModelIo) : Prop where
  valid : validateSpec spec = .ok ()
  parts : ∃ tokenizer source, platform.loadTokenizer tokenizerBytes = .ok tokenizer ∧
    templateSource platform templateBytes = .ok source ∧
    model = { unparsedModelIo serde platform spec
      (loadedIdentity platform spec tokenizerBytes templateBytes model) tokenizer source with
      reasoningParser := model.reasoningParser, toolParser := model.toolParser }
  reasoning : ∀ definition, model.reasoningParser = some definition →
    Fingerprints platform definition.identity (reasoningFields definition)
  tool : ∀ definition, model.toolParser = some definition →
    Fingerprints platform definition.identity (toolFields definition)

theorem buildOptional_eq_ok {Spec Part Error : Type} {build : Spec → Except Error Part}
    {spec : Option Spec} {part : Option Part} (h : buildOptional build spec = .ok part)
    {definition : Part} (hpart : part = some definition) : ∃ spec, build spec = .ok definition := by
  cases spec with
  | none =>
    cases h
    cases hpart
  | some spec =>
    refine ⟨spec, ?_⟩
    change (build spec).map some = .ok part at h
    cases hbuild : build spec with
    | error error =>
      rw [hbuild] at h
      cases h
    | ok built =>
      rw [hbuild] at h
      cases h
      cases hpart
      rfl

/-- Parsers are added to a profile that names them. -/
theorem withOutputParsers_of_named {reasoningParser : Option TaggedReasoningParserDefinition}
    {toolParser : Option TaggedJsonToolParserDefinition}
    (hreasoning : model.profile.semanticIdentity.reasoningParser =
      reasoningParser.map fun definition => definition.identity)
    (htool : model.profile.semanticIdentity.toolParser =
      toolParser.map fun definition => definition.identity) :
    model.withOutputParsers reasoningParser toolParser =
      .ok { model with reasoningParser, toolParser } := by
  unfold BasicModelIo.withOutputParsers validateParserIdentity
  rw [if_neg (not_not.mpr hreasoning), if_neg (not_not.mpr htool)]
  rfl

theorem loadHuggingfaceModelIo_eq_ok
    (h : loadHuggingfaceModelIo serde platform files spec = .ok model) :
    ∃ tokenizerBytes templateBytes, files spec.tokenizerJson = .ok tokenizerBytes ∧
      files spec.chatTemplate = .ok templateBytes ∧
      LoadedFrom platform spec tokenizerBytes templateBytes model := by
  obtain ⟨_, hvalid, h⟩ := bind_eq_ok h
  obtain ⟨tokenizerBytes, htokenizerBytes, h⟩ := bind_eq_ok h
  obtain ⟨templateBytes, htemplateBytes, h⟩ := bind_eq_ok h
  obtain ⟨source, hsource, h⟩ := bind_eq_ok h
  obtain ⟨reasoningParser, hreasoning, h⟩ := bind_eq_ok h
  obtain ⟨toolParser, htool, h⟩ := bind_eq_ok h
  obtain ⟨tokenizer, htokenizer, h⟩ := bind_eq_ok h
  obtain ⟨_, -, h⟩ := bind_eq_ok h
  dsimp only at h
  rw [withOutputParsers_of_named rfl rfl] at h
  cases h
  refine ⟨tokenizerBytes, templateBytes, mapError_eq_ok htokenizerBytes,
    mapError_eq_ok htemplateBytes, hvalid, ⟨tokenizer, source, mapError_eq_ok htokenizer, hsource,
      rfl⟩, fun definition hdefinition => ?_, fun definition hdefinition => ?_⟩
  · obtain ⟨_, hbuild⟩ := buildOptional_eq_ok hreasoning hdefinition
    exact buildReasoningParser_eq_ok hbuild
  · obtain ⟨_, hbuild⟩ := buildOptional_eq_ok htool hdefinition
    exact buildToolParser_eq_ok hbuild

/-- A loaded model is built, under the aliases and for the execution that were configured. -/
theorem LoadedFrom.built {tokenizerBytes templateBytes : ByteArray}
    (h : LoadedFrom platform spec tokenizerBytes templateBytes model) :
    model.Built ∧ model.profile.publicAliases = spec.publicAliases ∧
      model.profile.model = spec.model := by
  obtain ⟨tokenizer, source, -, -, hmodel⟩ := h.parts
  refine ⟨?_, by rw [hmodel]; rfl, by rw [hmodel]; rfl⟩
  rw [hmodel]
  exact .withOutputParsers (.new _ _ _ _) (withOutputParsers_of_named rfl rfl)

/-- The fingerprint of a parser of a loaded model is one line. -/
theorem newline_notMem_fingerprintOrNone {Part : Type} {parser : Option Part}
    {identity : Part → SemanticComponentIdentity} {fields : Part → List String}
    (h : ∀ definition, parser = some definition →
      Fingerprints platform (identity definition) (fields definition)) :
    '\n' ∉ (fingerprintOrNone (parser.map identity)).toList := by
  cases parser with
  | none =>
    change '\n' ∉ "none".toList
    decide
  | some definition =>
    change '\n' ∉ (identity definition).fingerprint.toList
    rw [h definition rfl]
    exact newline_notMem_sha256 _

/-- Parsers with the same fingerprint are the same, and so are missing parsers. -/
theorem optionalParser_eq {Part : Type} {parser parser' : Option Part}
    {identity : Part → SemanticComponentIdentity} {fields : Part → List String}
    (h : ∀ definition, parser = some definition →
      Fingerprints platform (identity definition) (fields definition))
    (h' : ∀ definition, parser' = some definition →
      Fingerprints platform (identity definition) (fields definition))
    (hinj : ∀ definition definition', Fingerprints platform (identity definition) (fields definition) →
      Fingerprints platform (identity definition') (fields definition') →
      (identity definition).fingerprint = (identity definition').fingerprint →
      definition = definition')
    (hsame : fingerprintOrNone (parser.map identity) = fingerprintOrNone (parser'.map identity)) :
    parser = parser' := by
  cases parser with
  | none =>
    cases parser' with
    | none => rfl
    | some definition' =>
      change "none" = (identity definition').fingerprint at hsame
      rw [h' definition' rfl] at hsame
      exact absurd hsame.symm (sha256_ne_none _)
  | some definition =>
    cases parser' with
    | none =>
      change (identity definition).fingerprint = "none" at hsame
      rw [h definition rfl] at hsame
      exact absurd hsame (sha256_ne_none _)
    | some definition' => rw [hinj _ _ (h _ rfl) (h' _ rfl) hsame]

end Loaded

/-- A tokenizer that knows one word. -/
def sampleTokenizerJson : String :=
  "\x7b\"version\":\"1.0\",\"truncation\":null,\"padding\":null,\"added_tokens\":[]," ++
  "\"normalizer\":null,\"pre_tokenizer\":null,\"post_processor\":null,\"decoder\":null," ++
  "\"model\":\x7b\"type\":\"WordLevel\",\"vocab\":\x7b\"a\":0\x7d,\"unk_token\":\"a\"\x7d\x7d"

/-- The platform, as far as the sample files need it: what a known word means, and the digests
of the two files and of their umbrella. -/
def samplePlatform : Platform sampleSerde.Value where
  digest bytes :=
    if bytes.data = sampleTokenizerJson.toUTF8.data then
      [0xcf, 0x2f, 0x7d, 0xd3, 0x92, 0xf5, 0x43, 0x56, 0xd7, 0x8f, 0x02, 0xf8, 0xd4, 0x2c,
       0x90, 0xc4, 0xaa, 0x27, 0x42, 0x47, 0x34, 0xcf, 0xb6, 0xb0, 0x80, 0x6d, 0xe5, 0x79,
       0xc5, 0xb6, 0x0c, 0xbb]
    else if bytes.data = "a".toUTF8.data then
      [0xca, 0x97, 0x81, 0x12, 0xca, 0x1b, 0xbd, 0xca, 0xfa, 0xc2, 0x31, 0xb3, 0x9a, 0x23,
       0xdc, 0x4d, 0xa7, 0x86, 0xef, 0xf8, 0x14, 0x7c, 0x4e, 0x72, 0xb9, 0x80, 0x77, 0x85,
       0xaf, 0xee, 0x48, 0xbb]
    else
      [0xdf, 0x34, 0xd3, 0x41, 0x19, 0xd7, 0x48, 0xbf, 0xc9, 0xa2, 0xd3, 0x60, 0xb3, 0x29,
       0x0d, 0x92, 0x0b, 0x34, 0xd5, 0x09, 0xcf, 0x3c, 0x2e, 0xb3, 0xb7, 0x0c, 0xba, 0xe2,
       0xb0, 0x36, 0x03, 0x73]
  utf8Error _ := "invalid utf-8"
  loadTokenizer _ := .ok {
    encode := fun text => .ok (if text = "" then [] else [0])
    decode := fun tokenIds => .ok
      (" ".toList.intercalate ((tokenIds.filter (· == 0)).map fun _ => "a".toList)) }
  checkTemplate _ := .ok ()
  renderTemplate source _ := .ok source

/-- The sample files. -/
def sampleFiles : Files := fun path =>
  if path = "tokenizer.json" then .ok sampleTokenizerJson.toUTF8
  else if path = "template" then .ok "a".toUTF8
  else .error "No such file or directory (os error 2)"

/-- A profile of the sample files under one alias. -/
def sampleProfileSpec (name : String) : HuggingFaceProfileSpec sampleSerde.Value where
  publicAliases := [name]
  model := ⟨"revision", none, "default"⟩
  tokenizerJson := "tokenizer.json"
  chatTemplate := "template"

/-- The source of a template that is a text. -/
theorem templateSource_toUTF8 (text : String) :
    templateSource platform text.toUTF8 = .ok text := by
  have hvalid : text.toUTF8.IsValidUTF8 := text.isValidUTF8
  unfold templateSource String.fromUTF8?
  rw [dif_pos hvalid]
  rfl

/-- The sample files are loaded under any alias. -/
theorem loadHuggingfaceModelIo_sample {name : String} (hname : isBlank name = false) :
    ∃ model, loadHuggingfaceModelIo sampleSerde samplePlatform sampleFiles
      (sampleProfileSpec name) = .ok model ∧
      model.profile.semanticIdentity = semanticIdentity samplePlatform
        ⟨"huggingface-tokenizer-json", "unversioned",
          sha256 samplePlatform sampleTokenizerJson.toUTF8⟩
        ⟨"huggingface-chat-template", "unversioned", sha256 samplePlatform "a".toUTF8⟩
        none none := by
  have hvalid : validateSpec (sampleProfileSpec name) = .ok () := by
    simp [validateSpec, sampleProfileSpec, hname, reservedFields]
    decide
  have htokenizer : read sampleFiles (sampleProfileSpec name).tokenizerJson "tokenizer JSON" =
      .ok sampleTokenizerJson.toUTF8 := rfl
  have htemplate : read sampleFiles (sampleProfileSpec name).chatTemplate "chat template" =
      .ok "a".toUTF8 := rfl
  have hsource : templateSource samplePlatform "a".toUTF8 = .ok "a" := templateSource_toUTF8 "a"
  simp only [loadHuggingfaceModelIo, hvalid, htokenizer, htemplate, hsource, bind, Except.bind]
  exact ⟨_, rfl, rfl⟩

end Locus.ModelIo
