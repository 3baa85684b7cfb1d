import Locus.Core.Execution
import Mathlib.Data.List.Basic

/-!
# Parser definitions

The delimiters of the two stream parsers and the checks that their constructors make.
Texts are lists of characters; positions count characters, and lengths that are compared
with a limit count the bytes of the encoding.
-/

namespace Locus.Parser

open Locus.Core

abbrev Text := List Char

/-- The length of a text in bytes. -/
def byteLen (text : Text) : ℕ := (text.map fun c => c.utf8Size).sum

theorem byteLen_append (front back : Text) :
    byteLen (front ++ back) = byteLen front + byteLen back := by
  simp [byteLen]

/-- A beginning is no longer than the text. -/
theorem byteLen_le_of_prefix {front whole : Text} (h : front <+: whole) :
    byteLen front ≤ byteLen whole := by
  obtain ⟨back, rfl⟩ := h
  rw [byteLen_append]
  omega

/-- What goes wrong while a parser processes text. -/
inductive ParserFault
  | unexpectedReasoningDelimiter (delimiter : Text)
  | multipleReasoningSections
  | unterminatedReasoning
  | incompleteReasoningDelimiter
  | unexpectedToolDelimiter (delimiter : Text)
  | toolCallTooLong (limit : ℕ)
  | unterminatedToolCall
  | incompleteToolDelimiter
  | invalidToolJson (error : String)
  | toolEnvelopeNotObject
  | toolEnvelopeKeys
  | toolNameNotString
  | toolArgumentsNotObject
  deriving DecidableEq

inductive ParserError
  | invalidConfig (message : String)
  | processing (fault : ParserFault)
  deriving DecidableEq

/-- `MAX_DELIMITER_BYTES` -/
def maxDelimiterBytes : ℕ := 256

/-- `validate_delimiters` -/
def validateDelimiters (kind : String) (start stop : Text) : Except ParserError Unit :=
  if start = [] ∨ stop = [] then
    .error (.invalidConfig (kind ++ " parser delimiters must not be empty"))
  else if start = stop then
    .error (.invalidConfig (kind ++ " parser delimiters must be distinct"))
  else if byteLen start > maxDelimiterBytes ∨ byteLen stop > maxDelimiterBytes then
    .error (.invalidConfig (kind ++ " parser delimiters must not exceed " ++
      toString maxDelimiterBytes ++ " bytes"))
  else .ok ()

/-- A reasoning parser's delimiters, checked. -/
structure TaggedReasoningParserDefinition where
  identity : SemanticComponentIdentity
  startDelimiter : Text
  endDelimiter : Text
  valid : validateDelimiters "reasoning" startDelimiter endDelimiter = .ok ()

/-- `TaggedReasoningParserDefinition::new` -/
def TaggedReasoningParserDefinition.new (identity : SemanticComponentIdentity)
    (startDelimiter endDelimiter : Text) : Except ParserError TaggedReasoningParserDefinition :=
  match h : validateDelimiters "reasoning" startDelimiter endDelimiter with
  | .error error => .error error
  | .ok () => .ok ⟨identity, startDelimiter, endDelimiter, h⟩

/-- A tool parser's delimiters and limit, checked. -/
structure TaggedJsonToolParserDefinition where
  identity : SemanticComponentIdentity
  startDelimiter : Text
  endDelimiter : Text
  maxBufferedBytes : ℕ
  valid : validateDelimiters "tool" startDelimiter endDelimiter = .ok ()
  limited : maxBufferedBytes ≠ 0

/-- `TaggedJsonToolParserDefinition::new` -/
def TaggedJsonToolParserDefinition.new (identity : SemanticComponentIdentity)
    (startDelimiter endDelimiter : Text) (maxBufferedBytes : ℕ) :
    Except ParserError TaggedJsonToolParserDefinition :=
  match h : validateDelimiters "tool" startDelimiter endDelimiter with
  | .error error => .error error
  | .ok () =>
    if hlimit : maxBufferedBytes = 0 then
      .error (.invalidConfig "tool parser max_buffered_bytes must be greater than zero")
    else .ok ⟨identity, startDelimiter, endDelimiter, maxBufferedBytes, h, hlimit⟩

/-- The checks pass exactly for distinct, non-empty delimiters that are not too long. -/
theorem validateDelimiters_eq_ok {kind : String} {start stop : Text} :
    validateDelimiters kind start stop = .ok () ↔
      start ≠ [] ∧ stop ≠ [] ∧ start ≠ stop ∧
      byteLen start ≤ maxDelimiterBytes ∧ byteLen stop ≤ maxDelimiterBytes := by
  unfold validateDelimiters
  split_ifs with hempty hsame hlong
  · simp only [false_iff]
    tauto
  · simp [hsame]
  · simp only [false_iff]
    omega
  · simp only [true_iff]
    refine ⟨by tauto, by tauto, hsame, by omega, by omega⟩

theorem TaggedReasoningParserDefinition.startDelimiter_ne_nil
    (definition : TaggedReasoningParserDefinition) : definition.startDelimiter ≠ [] :=
  (validateDelimiters_eq_ok.mp definition.valid).1

theorem TaggedReasoningParserDefinition.endDelimiter_ne_nil
    (definition : TaggedReasoningParserDefinition) : definition.endDelimiter ≠ [] :=
  (validateDelimiters_eq_ok.mp definition.valid).2.1

theorem TaggedJsonToolParserDefinition.startDelimiter_ne_nil
    (definition : TaggedJsonToolParserDefinition) : definition.startDelimiter ≠ [] :=
  (validateDelimiters_eq_ok.mp definition.valid).1

theorem TaggedJsonToolParserDefinition.endDelimiter_ne_nil
    (definition : TaggedJsonToolParserDefinition) : definition.endDelimiter ≠ [] :=
  (validateDelimiters_eq_ok.mp definition.valid).2.1

end Locus.Parser
