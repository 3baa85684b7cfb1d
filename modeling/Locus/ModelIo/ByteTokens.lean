import Locus.Lib.Fallible
import Locus.Lib.Utf8
import Locus.ModelIo.History
import Mathlib.Data.Nat.Find

/-!
# Byte tokens

The reference tokenizer has one token for each byte of a text, and the decoder reads the
tokens of one event at a time. A text that the engine hands over in fragments comes out of
the pipeline again exactly if no fragment ends inside a character.
-/

namespace Locus.ModelIo

open Locus.Core Locus.Lib Locus.Parser BasicOutputPipeline

structure TokenSequence where
  tokenIds : List UInt32
  tokenizerFingerprint : String

structure ByteTokenizer where
  identity : SemanticComponentIdentity

/-- The tokens of the bytes of a text. -/
def byteTokens (text : Text) : List UInt32 :=
  (utf8 text).map UInt8.toUInt32

/-- `ByteTokenizer::encode` -/
def ByteTokenizer.encode (tokenizer : ByteTokenizer) (input : Text) :
    Except ModelIoError TokenSequence :=
  .ok ⟨byteTokens input, tokenizer.identity.fingerprint⟩

/-- `Utf8Error`: the bytes up to an index are a text, and what follows is not. -/
structure Utf8Error where
  validUpTo : ℕ
  errorLen : Option ℕ

/-- The byte continues a character. -/
def isContinuation (byte : UInt8) : Bool :=
  0x80 ≤ byte && byte ≤ 0xBF

/-- The second byte of a character, given the first one. -/
def isSecond (first second : UInt8) : Bool :=
  isContinuation second && (first != 0xE0 || 0xA0 ≤ second) && (first != 0xED || second ≤ 0x9F) &&
    (first != 0xF0 || 0x90 ≤ second) && (first != 0xF4 || second ≤ 0x8F)

/-- `Utf8Error::error_len`, for bytes that do not begin with a character: the number of bytes
that begin one up to the first unexpected byte, if there is such a byte. -/
def errorLen : List UInt8 → Option ℕ
  | [] => none
  | first :: rest =>
    if first < 0xC2 || 0xF4 < first then some 1
    else
      match rest with
      | [] => none
      | second :: rest =>
        if !isSecond first second then some 1
        else
          match rest with
          | [] => none
          | third :: rest =>
            if !isContinuation third then some 2
            else if rest = [] then none
            else some 3

/-- The error of `String::from_utf8`. -/
def utf8Error (bytes : List UInt8) : Utf8Error :=
  let validUpTo :=
    Nat.findGreatest (fun index => (fromUtf8? (bytes.take index)).isSome) bytes.length
  ⟨validUpTo, errorLen (bytes.drop validUpTo)⟩

/-- `Utf8Error::fmt` -/
def Utf8Error.toString (error : Utf8Error) : String :=
  match error.errorLen with
  | some length => "invalid utf-8 sequence of " ++ ToString.toString length ++
      " bytes from index " ++ ToString.toString error.validUpTo
  | none => "incomplete utf-8 byte sequence from index " ++ ToString.toString error.validUpTo

/-- The byte of a token. -/
def byteOfToken (token : UInt32) : Except ModelIoError UInt8 :=
  if token < 256 then .ok token.toUInt8
  else .error (.processing ("token " ++ toString token ++ " is not a byte token"))

/-- `ByteDecoder::decode` -/
def byteDecoder (tokenIds : List UInt32) : Except ModelIoError Text := do
  let bytes ← tokenIds.mapM byteOfToken
  match fromUtf8? bytes with
  | some text => .ok text
  | none => .error (.processing
      ("token delta is not valid UTF-8: " ++ (utf8Error bytes).toString))

/-- What a `TokenDelta` event carries. -/
structure TokenDelta where
  requestId : RequestId
  sequenceNumber : UInt64
  tokenIds : List UInt32

/-- `EngineEvent::TokenDelta` -/
def TokenDelta.event (delta : TokenDelta) : EngineEvent :=
  .tokenDelta delta.requestId delta.sequenceNumber delta.tokenIds

/-- All events are processed, and the text that is emitted is this one. -/
def Emits (serde : Serde) (pipeline : BasicOutputPipeline) (deltas : List TokenDelta)
    (text : Text) : Prop :=
  ∃ next output, pipeline.run serde (deltas.map TokenDelta.event) = .ok (next, output) ∧
    visibleText output = text

/-- Where the tokens are divided, the text is divided between two characters. -/
def DividedAtCharacters (text : Text) (deltas : List TokenDelta) : Prop :=
  ∀ before after, deltas = before ++ after →
    ∃ front back, text = front ++ back ∧ before.flatMap TokenDelta.tokenIds = byteTokens front

variable {tokenIds rest : List UInt32} {text front : Text} {deltas : List TokenDelta}

@[simp] theorem byteTokens_append (front back : Text) :
    byteTokens (front ++ back) = byteTokens front ++ byteTokens back := by
  simp [byteTokens]

/-- The token of a byte is that byte. -/
theorem byteOfToken_eq_ok_iff {token : UInt32} {byte : UInt8} :
    byteOfToken token = .ok byte ↔ token = byte.toUInt32 := by
  unfold byteOfToken
  constructor
  · intro h
    split at h
    next hlt =>
      cases h
      have hnat : token.toNat < 256 := UInt32.lt_iff_toNat_lt.mp hlt
      refine UInt32.toNat_inj.mp ?_
      simp [Nat.mod_eq_of_lt hnat]
    next => cases h
  · rintro rfl
    have hlt : byte.toUInt32 < 256 := by
      refine UInt32.lt_iff_toNat_lt.mpr ?_
      simpa using byte.toNat_lt
    rw [if_pos hlt]
    simp

/-- The tokens of bytes give the bytes again. -/
theorem mapM_byteOfToken_eq_ok_iff {bytes : List UInt8} :
    tokenIds.mapM byteOfToken = .ok bytes ↔ tokenIds = bytes.map UInt8.toUInt32 := by
  induction tokenIds generalizing bytes with
  | nil =>
    rw [List.mapM_nil]
    constructor
    · intro h
      cases h
      rfl
    · intro h
      rw [List.map_eq_nil_iff.mp h.symm]
      rfl
  | cons token tokenIds ih =>
    rw [mapM_cons_eq_ok]
    constructor
    · rintro ⟨byte, bytes, hbyte, hbytes, rfl⟩
      rw [byteOfToken_eq_ok_iff.mp hbyte, ih.mp hbytes, List.map_cons]
    · intro h
      obtain ⟨byte, bytes, rfl, hbyte, hbytes⟩ := List.map_eq_cons_iff.mp h.symm
      exact ⟨byte, bytes, byteOfToken_eq_ok_iff.mpr hbyte.symm, ih.mpr hbytes.symm, rfl⟩

/-- The decoder reads exactly the tokens of texts. -/
theorem byteDecoder_eq_ok_iff : byteDecoder tokenIds = .ok text ↔ tokenIds = byteTokens text := by
  constructor
  · intro h
    obtain ⟨bytes, hbytes, hdecode⟩ := bind_eq_ok h
    rw [mapM_byteOfToken_eq_ok_iff.mp hbytes]
    split at hdecode
    next found hfound =>
      cases hdecode
      rw [fromUtf8?_eq_some_iff.mp hfound, byteTokens]
    next => cases hdecode
  · intro h
    have hbytes : tokenIds.mapM byteOfToken = .ok (utf8 text) := mapM_byteOfToken_eq_ok_iff.mpr h
    have htext : fromUtf8? (utf8 text) = some text := fromUtf8?_eq_some_iff.mpr rfl
    simp only [byteDecoder, hbytes, bind, Except.bind, htext]

/-- The events carry the tokens of parts of a text, one after the other. -/
def CarryParts (deltas : List TokenDelta) (texts : List Text) : Prop :=
  List.Forall₂ (fun delta text => delta.tokenIds = byteTokens text) deltas texts

/-- Together they carry the tokens of all parts. -/
theorem CarryParts.flatMap_tokenIds {texts : List Text} (h : CarryParts deltas texts) :
    deltas.flatMap TokenDelta.tokenIds = byteTokens texts.flatten := by
  induction h with
  | nil => rfl
  | cons htokens _ ih => rw [List.flatMap_cons, List.flatten_cons, byteTokens_append, htokens, ih]

/-- The pipeline decodes bytes and has no parsers. -/
structure Plain (pipeline : BasicOutputPipeline) : Prop where
  decoder : pipeline.decoder = byteDecoder
  reasoningParser : pipeline.reasoningParser = none
  toolParser : pipeline.toolParser = none

section Events

variable {serde : Serde} {pipeline next : BasicOutputPipeline} {delta : TokenDelta}
  {output : List ModelEvent}

/-- Without parsers a text is passed on as it is. -/
theorem Plain.process_eq (hplain : Plain pipeline) (h : delta.tokenIds = byteTokens text) :
    pipeline.process serde delta.event =
      .ok ({ pipeline with text := pipeline.text ++ text }, [.textDelta delta.requestId text]) := by
  have hdecode : pipeline.decoder delta.tokenIds = .ok text := by
    rw [hplain.decoder]
    exact byteDecoder_eq_ok_iff.mpr h
  have hvisible : pipeline.processVisibleText serde delta.requestId text =
      .ok ({ pipeline with text := pipeline.text ++ text },
        [.textDelta delta.requestId text]) := by
    rw [processVisibleText]
    split
    next hparser =>
      rw [hplain.toolParser] at hparser
      cases hparser
    next => exact pushAll_singleton _ _ _
  have hdelta : pipeline.processTextDelta serde delta.requestId text =
      pipeline.processVisibleText serde delta.requestId text := by
    rw [processTextDelta, hplain.reasoningParser]
    exact pushAll_singleton _ _ _
  simp only [TokenDelta.event, process, hdecode]
  rw [hdelta, hvisible]

/-- An event that is processed carries the tokens of a text. -/
theorem Plain.tokens_of_process (hplain : Plain pipeline)
    (h : pipeline.process serde delta.event = .ok (next, output)) :
    ∃ text, delta.tokenIds = byteTokens text ∧
      next = { pipeline with text := pipeline.text ++ text } ∧
      output = [.textDelta delta.requestId text] := by
  cases hdecode : byteDecoder delta.tokenIds with
  | error error => simp [TokenDelta.event, process, hplain.decoder, hdecode] at h
  | ok text =>
    have htokens := byteDecoder_eq_ok_iff.mp hdecode
    rw [hplain.process_eq htokens] at h
    cases h
    exact ⟨text, htokens, rfl, rfl⟩

/-- A text is emitted exactly if each event carries the tokens of a part of it. -/
theorem Plain.emits_iff (hplain : Plain pipeline) :
    Emits serde pipeline deltas text ↔
      ∃ texts, CarryParts deltas texts ∧ texts.flatten = text := by
  induction deltas generalizing pipeline text with
  | nil =>
    constructor
    · rintro ⟨next, output, hrun, rfl⟩
      cases hrun
      exact ⟨[], .nil, rfl⟩
    · rintro ⟨texts, htexts, rfl⟩
      cases htexts
      exact ⟨pipeline, [], rfl, rfl⟩
  | cons delta deltas ih =>
    constructor
    · rintro ⟨next, output, hrun, rfl⟩
      rw [List.map_cons, run, pushAll] at hrun
      split at hrun
      next => cases hrun
      next middle first hfirst =>
        obtain ⟨rest, hrest, rfl⟩ := prepend_eq_ok hrun
        obtain ⟨text, htokens, rfl, rfl⟩ := hplain.tokens_of_process hfirst
        have hmiddle : Plain { pipeline with text := pipeline.text ++ text } :=
          ⟨hplain.decoder, hplain.reasoningParser, hplain.toolParser⟩
        obtain ⟨texts, htexts, hflatten⟩ := (ih hmiddle).mp ⟨_, _, hrest, rfl⟩
        refine ⟨text :: texts, .cons htokens htexts, ?_⟩
        simp [visibleText, ModelEvent.addedText] at hflatten ⊢
        exact hflatten
    · rintro ⟨texts, htexts, rfl⟩
      cases htexts with
      | @cons _ text _ texts htokens htexts =>
        have hmiddle : Plain { pipeline with text := pipeline.text ++ text } :=
          ⟨hplain.decoder, hplain.reasoningParser, hplain.toolParser⟩
        obtain ⟨next, output, hrun, hvisible⟩ := (ih hmiddle).mpr ⟨texts, htexts, rfl⟩
        refine ⟨next, .textDelta delta.requestId text :: output, ?_, ?_⟩
        · rw [List.map_cons, run, pushAll, hplain.process_eq htokens]
          simp only
          rw [← run, hrun]
          rfl
        · simp [visibleText, ModelEvent.addedText] at hvisible ⊢
          exact hvisible

end Events

/-- The division falls between characters exactly if each event carries the tokens of a part
of the text. -/
theorem dividedAtCharacters_iff (h : deltas.flatMap TokenDelta.tokenIds = byteTokens text) :
    DividedAtCharacters text deltas ↔ ∃ texts, CarryParts deltas texts ∧ texts.flatten = text := by
  constructor
  · intro hdivided
    induction deltas generalizing text with
    | nil =>
      have hnil : text = [] := utf8_eq_nil_iff.mp (List.map_eq_nil_iff.mp h.symm)
      exact ⟨[], .nil, hnil.symm⟩
    | cons delta deltas ih =>
      obtain ⟨front, back, rfl, hfront⟩ := hdivided [delta] deltas rfl
      have htokens : delta.tokenIds = byteTokens front := by simpa using hfront
      rw [List.flatMap_cons, byteTokens_append, htokens, List.append_cancel_left_eq] at h
      obtain ⟨texts, htexts, rfl⟩ := ih h fun before after heq => by
        have hcons : delta :: deltas = delta :: before ++ after := by
          rw [heq, List.cons_append]
        obtain ⟨front', back', htext, hbefore⟩ := hdivided (delta :: before) after hcons
        rw [List.flatMap_cons, htokens] at hbefore
        have hlength := congrArg List.length hbefore
        simp only [byteTokens, List.length_append, List.length_map] at hlength
        obtain ⟨middle, rfl⟩ := exists_eq_append_of_utf8_length_le htext.symm (by omega)
        rw [byteTokens_append, List.append_cancel_left_eq] at hbefore
        rw [List.append_assoc, List.append_cancel_left_eq] at htext
        exact ⟨middle, back', htext, hbefore⟩
      exact ⟨front :: texts, .cons htokens htexts, rfl⟩
  · rintro ⟨texts, htexts, rfl⟩ before after rfl
    refine ⟨(texts.take before.length).flatten, (texts.drop before.length).flatten, ?_, ?_⟩
    · rw [← List.flatten_append, List.take_append_drop]
    · have hbefore : CarryParts before (texts.take before.length) :=
        (List.forall₂_take_append texts before after htexts.flip).flip
      exact hbefore.flatMap_tokenIds

/-- A text divided over token events comes out of the pipeline again exactly if it is divided
between characters. -/
theorem emits_iff_dividedAtCharacters (serde : Serde) (contract : OutputContract)
    (tokenizer : ByteTokenizer) {sequence : TokenSequence}
    (hencode : tokenizer.encode text = .ok sequence)
    (hdivided : deltas.flatMap TokenDelta.tokenIds = sequence.tokenIds) :
    Emits serde (outputPipeline byteDecoder none none contract) deltas text ↔
      DividedAtCharacters text deltas := by
  cases hencode
  have hplain : Plain (outputPipeline byteDecoder none none contract) := ⟨rfl, rfl, rfl⟩
  exact hplain.emits_iff.trans (dividedAtCharacters_iff hdivided).symm

/-- A tokenizer of bytes. -/
def sampleTokenizer : ByteTokenizer where
  identity := ⟨"tokenizer", "1", "bytes"⟩

/-- The tokens of a character of one byte and of one of two bytes. -/
def letterAndAccentTokens : TokenSequence where
  tokenIds := [0x61, 0xC3, 0xA9]
  tokenizerFingerprint := "bytes"

/-- Each of the two characters in an event of its own. -/
def letterThenAccent : List TokenDelta :=
  [⟨"r", 0, [0x61]⟩, ⟨"r", 1, [0xC3, 0xA9]⟩]

/-- Characters that arrive one by one come out again. -/
theorem emits_iff_dividedAtCharacters_letterThenAccent :
    Emits sampleSerde (outputPipeline byteDecoder none none sampleContract) letterThenAccent
      ['a', 'é'] := by
  have hparts : CarryParts letterThenAccent [['a'], ['é']] := .cons rfl (.cons rfl .nil)
  have hdivided : DividedAtCharacters ['a', 'é'] letterThenAccent :=
    (dividedAtCharacters_iff rfl).mpr ⟨[['a'], ['é']], hparts, rfl⟩
  exact (@emits_iff_dividedAtCharacters ['a', 'é'] letterThenAccent sampleSerde sampleContract
    sampleTokenizer letterAndAccentTokens rfl rfl).mpr hdivided

/-- The tokens of one character of two bytes. -/
def accentTokens : TokenSequence where
  tokenIds := [0xC3, 0xA9]
  tokenizerFingerprint := "bytes"

/-- Each byte in an event of its own. -/
def dividedAccent : List TokenDelta :=
  [⟨"r", 0, [0xC3]⟩, ⟨"r", 1, [0xA9]⟩]

/-- A character whose bytes arrive one by one does not come out again. -/
theorem not_emits_dividedAccent :
    sampleTokenizer.encode ['é'] = .ok accentTokens ∧
    dividedAccent.flatMap TokenDelta.tokenIds = accentTokens.tokenIds ∧
    ¬ Emits sampleSerde (outputPipeline byteDecoder none none sampleContract) dividedAccent
      ['é'] := by
  refine ⟨rfl, rfl, fun hemits => ?_⟩
  have hplain : Plain (outputPipeline byteDecoder none none sampleContract) := ⟨rfl, rfl, rfl⟩
  obtain ⟨texts, hparts, hflatten⟩ := hplain.emits_iff.mp hemits
  cases hparts with
  | @cons _ front _ texts hfront _ =>
    -- A beginning of the text has no bytes or both.
    rw [List.flatten_cons] at hflatten
    rcases List.append_eq_singleton_iff.mp hflatten with ⟨rfl, -⟩ | ⟨rfl, -⟩
    · exact absurd hfront (by decide)
    · exact absurd hfront (by decide)

end Locus.ModelIo
