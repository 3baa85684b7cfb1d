import Locus.Lib.Fallible
import Locus.Lib.Framing
import Locus.Lib.Hexadecimal
import Locus.ModelIo.Normalize

/-!
# Loading a Hugging Face profile

A profile is loaded from a tokenizer and a chat template. Its semantic identity is made of
SHA-256 fingerprints: of the two files, and of the delimiters and limits of its parsers. The
files, the hash and the crates for tokenizers and templates are given.
-/

namespace Locus.ModelIo

open Std (TreeMap)
open Locus.Core Locus.Lib Locus.Parser

/-- A tokenizer is known by what it does, with the texts of its errors. -/
structure Tokenizer where
  encode : String → Except String (List UInt32)
  decode : List UInt32 → Except String Text

/-- A field of the context that a chat template is rendered in. -/
inductive TemplateValue (Value : Type)
  | configured (value : Value)
  | messages (messages : List ConversationMessage)
  | tools (tools : List (ToolDefinition × Value))
  | toolChoice (choice : ToolChoice)
  | flag (value : Bool)

/-- What files can be read, with the text of the error. -/
abbrev Files := String → Except String ByteArray

/-- The hash and the crates that a model is made with. -/
structure Platform (Value : Type) where
  digest : ByteArray → List UInt8
  utf8Error : ByteArray → String
  loadTokenizer : ByteArray → Except String Tokenizer
  checkTemplate : String → Except String Unit
  renderTemplate : String → TreeMap String (TemplateValue Value) → Except String String

structure TaggedReasoningParserSpec where
  revision : String
  startDelimiter : String
  endDelimiter : String
  deriving DecidableEq

structure TaggedJsonToolParserSpec where
  revision : String
  startDelimiter : String
  endDelimiter : String
  maxBufferedBytes : ℕ
  deriving DecidableEq

structure HuggingFaceProfileSpec (Value : Type) where
  publicAliases : List String
  model : ModelExecutionIdentity
  tokenizerJson : String
  tokenizerRevision : String := "unversioned"
  chatTemplate : String
  templateRevision : String := "unversioned"
  templateContext : TreeMap String Value := ∅
  addGenerationPrompt : Bool := true
  maxRenderedBytes : ℕ := 4 * 1024 * 1024
  reasoningParser : Option TaggedReasoningParserSpec := none
  toolParser : Option TaggedJsonToolParserSpec := none

/-- How loading fails. Where an invalid profile has the text of another error, that error is
kept. -/
inductive HuggingFaceModelIoError
  | invalidProfile (message : String)
  | invalidParser (error : ParserError)
  | invalidModel (error : ModelIoError)
  | read (description path source : String)
  | invalidTokenizer (message : String)
  | invalidTemplate (message : String)
  deriving DecidableEq

/-- `trim().is_empty()` -/
def isBlank (text : String) : Bool := text.toList.all Store.isWhitespace

/-- The fields of the context that are set for every request. -/
def reservedFields : List String := ["messages", "tools", "tool_choice", "add_generation_prompt"]

/-- `validate_spec` -/
def validateSpec {Value : Type} (spec : HuggingFaceProfileSpec Value) :
    Except HuggingFaceModelIoError Unit :=
  if spec.publicAliases = [] then
    .error (.invalidProfile "at least one public model alias is required")
  else if spec.publicAliases.any isBlank then
    .error (.invalidProfile "public model aliases must not be empty")
  else if isBlank spec.tokenizerRevision || isBlank spec.templateRevision then
    .error (.invalidProfile "tokenizer and template revisions must not be empty")
  else if spec.maxRenderedBytes = 0 then
    .error (.invalidProfile "max_rendered_bytes must be greater than zero")
  else
    match reservedFields.find? fun field => spec.templateContext.contains field with
    | some reserved =>
      .error (.invalidProfile ("template_context cannot replace reserved field " ++ reserved))
    | none => .ok ()

section Load

variable {Value : Type} (platform : Platform Value)

/-- `sha256` -/
def sha256 (bytes : ByteArray) : String :=
  "sha256:" ++ String.ofList ((platform.digest bytes).flatMap hexByte)

/-- `parser_identity` -/
def parserIdentity (kind revision : String) (fields : List String) :
    Except HuggingFaceModelIoError SemanticComponentIdentity :=
  if isBlank revision then .error (.invalidProfile (kind ++ " revision must not be empty"))
  else .ok ⟨kind, revision, sha256 platform (frames (kind :: revision :: fields)).toUTF8⟩

/-- `build_reasoning_parser`, the definition with its identity. -/
def buildReasoningParser (parser : TaggedReasoningParserSpec) :
    Except HuggingFaceModelIoError TaggedReasoningParserDefinition := do
  let identity ← parserIdentity platform "locus-tagged-reasoning-parser" parser.revision
    [parser.startDelimiter, parser.endDelimiter]
  (TaggedReasoningParserDefinition.new identity parser.startDelimiter.toList
    parser.endDelimiter.toList).mapError .invalidParser

/-- `build_tool_parser`, the definition with its identity. -/
def buildToolParser (parser : TaggedJsonToolParserSpec) :
    Except HuggingFaceModelIoError TaggedJsonToolParserDefinition := do
  let identity ← parserIdentity platform "locus-tagged-json-tool-parser" parser.revision
    [parser.startDelimiter, parser.endDelimiter, toString parser.maxBufferedBytes]
  (TaggedJsonToolParserDefinition.new identity parser.startDelimiter.toList
    parser.endDelimiter.toList parser.maxBufferedBytes).mapError .invalidParser

/-- `read` -/
def read (files : Files) (path description : String) :
    Except HuggingFaceModelIoError ByteArray :=
  (files path).mapError fun error => .read description path error

/-- A part that is built if it is configured. -/
def buildOptional {Spec Part Error : Type} (build : Spec → Except Error Part) :
    Option Spec → Except Error (Option Part)
  | none => .ok none
  | some spec => (build spec).map some

/-- The fingerprint of a parser, if there is one. -/
def fingerprintOrNone (identity : Option SemanticComponentIdentity) : String :=
  (identity.map fun identity => identity.fingerprint).getD "none"

/-- The text that the umbrella fingerprint is taken of. -/
def umbrellaMaterial (tokenizerFingerprint templateFingerprint : String)
    (reasoningParser toolParser : Option SemanticComponentIdentity) : String :=
  tokenizerFingerprint ++ "\n" ++ templateFingerprint ++ "\n" ++
    fingerprintOrNone reasoningParser ++ "\n" ++ fingerprintOrNone toolParser ++
    "\nlocus-profile-v2"

/-- `semantic_identity` -/
def semanticIdentity (tokenizer template : SemanticComponentIdentity)
    (reasoningParser toolParser : Option SemanticComponentIdentity) : SemanticIdentity where
  input := ⟨tokenizer, template, none⟩
  reasoningParser := reasoningParser
  toolParser := toolParser
  umbrellaFingerprint := some (sha256 platform (umbrellaMaterial tokenizer.fingerprint
    template.fingerprint reasoningParser toolParser).toUTF8)

/-- The source of a template. -/
def templateSource (bytes : ByteArray) :
    Except HuggingFaceModelIoError String :=
  match String.fromUTF8? bytes with
  | some source => .ok source
  | none => .error (.invalidTemplate
    ("chat template is not UTF-8: " ++ platform.utf8Error bytes))

variable (serde : Serde)

/-- A tool as a template sees it. -/
def templateTool (tool : ToolDefinition) : Except ModelIoError (ToolDefinition × serde.Value) :=
  match serde.fromStr tool.parametersSchema.toList with
  | .error error => .error (.invalidInput
      ("invalid parameters schema for tool " ++ tool.name ++ ": " ++ error))
  | .ok parameters => .ok (tool, parameters)

/-- The context that a template is rendered in. -/
def templateContext (spec : HuggingFaceProfileSpec serde.Value) (request : ModelRequest)
    (messages : List ConversationMessage) (tools : List (ToolDefinition × serde.Value)) :
    TreeMap String (TemplateValue serde.Value) :=
  (((((spec.templateContext.map fun _ value => TemplateValue.configured value).insert
    "messages" (.messages messages)).insert "tools" (.tools tools)).insert
    "tool_choice" (.toolChoice request.toolChoice)).insert
    "add_generation_prompt" (.flag spec.addGenerationPrompt))

/-- `HuggingFaceTemplateRenderer::render` -/
def render (platform : Platform serde.Value) (spec : HuggingFaceProfileSpec serde.Value)
    (source : String) (request : ModelRequest) : Except ModelIoError String :=
  match request.input with
  | .prompt _ => .error (.invalidInput "chat template requires conversation input")
  | .conversation messages => do
    let tools ← request.tools.mapM (templateTool serde)
    let rendered ← (platform.renderTemplate source
      (templateContext serde spec request messages tools)).mapError fun error =>
        .processing ("chat template failed: " ++ error)
    if rendered.utf8ByteSize > spec.maxRenderedBytes then
      throw (.invalidInput ("rendered prompt exceeds configured " ++
        toString spec.maxRenderedBytes ++ " byte limit"))
    return rendered

/-- The model before its parsers are added. -/
def unparsedModelIo (platform : Platform serde.Value) (spec : HuggingFaceProfileSpec serde.Value)
    (semanticIdentity : SemanticIdentity) (tokenizer : Tokenizer) (source : String) :
    BasicModelIo where
  profile := ⟨spec.publicAliases, spec.model, semanticIdentity⟩
  encode text := (tokenizer.encode text).mapError fun error =>
    .processing ("tokenization failed: " ++ error)
  render := render serde platform spec source
  decoder tokenIds := (tokenizer.decode tokenIds).mapError fun error =>
    .processing ("detokenization failed: " ++ error)

/-- `load_huggingface_model_io` -/
def loadHuggingfaceModelIo (platform : Platform serde.Value) (files : Files)
    (spec : HuggingFaceProfileSpec serde.Value) : Except HuggingFaceModelIoError BasicModelIo := do
  validateSpec spec
  let tokenizerBytes ← read files spec.tokenizerJson "tokenizer JSON"
  let templateBytes ← read files spec.chatTemplate "chat template"
  let source ← templateSource platform templateBytes
  let tokenizerIdentity : SemanticComponentIdentity := ⟨"huggingface-tokenizer-json",
    spec.tokenizerRevision, sha256 platform tokenizerBytes⟩
  let templateIdentity : SemanticComponentIdentity := ⟨"huggingface-chat-template",
    spec.templateRevision, sha256 platform templateBytes⟩
  let reasoningParser ← buildOptional (buildReasoningParser platform) spec.reasoningParser
  let toolParser ← buildOptional (buildToolParser platform) spec.toolParser
  let tokenizer ← (platform.loadTokenizer tokenizerBytes).mapError fun error =>
    .invalidTokenizer ("failed to load " ++ spec.tokenizerJson ++ ": " ++ error)
  (platform.checkTemplate source).mapError .invalidTemplate
  let identity := semanticIdentity platform tokenizerIdentity templateIdentity
    (reasoningParser.map fun definition => definition.identity)
    (toolParser.map fun definition => definition.identity)
  ((unparsedModelIo serde platform spec identity tokenizer source).withOutputParsers
    reasoningParser toolParser).mapError .invalidModel

end Load

end Locus.ModelIo
