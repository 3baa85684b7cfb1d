import Locus.Lib.Chunks
import Locus.Lib.Scan
import Locus.Parser.CompleteCall

/-!
# The tool parser

The parser finds delimited envelopes in a text. Inside an envelope it buffers until the
call is complete, and refuses a buffer that grows beyond its limit.
-/

namespace Locus.Parser

open Locus.Lib

inductive ToolMode
  | text
  | tool
  deriving DecidableEq

inductive ToolSegment
  | text (text : Text)
  | call (name : String) (arguments : Text)
  deriving DecidableEq

structure TaggedJsonToolParserState where
  definition : TaggedJsonToolParserDefinition
  mode : ToolMode
  pending : Text

/-- `TaggedJsonToolParserDefinition::state` -/
def TaggedJsonToolParserDefinition.state (definition : TaggedJsonToolParserDefinition) :
    TaggedJsonToolParserState where
  definition := definition
  mode := .text
  pending := []

/-- The text segment to add, if any. -/
def textSegment (text : Text) : List ToolSegment :=
  if text = [] then [] else [.text text]

namespace TaggedJsonToolParserState

/-- The loop of `push` over the pending text. -/
def pushLoop (serde : Serde) (state : TaggedJsonToolParserState) :
    Except ParserError (TaggedJsonToolParserState × List ToolSegment) :=
  match state.mode with
  | .text =>
    match _hscan : scan state.definition.startDelimiter state.definition.endDelimiter
        state.pending with
    | .unexpected =>
      .error (.processing (.unexpectedToolDelimiter state.definition.endDelimiter))
    | .found before rest =>
      prepend (textSegment before) (pushLoop serde { state with mode := .tool, pending := rest })
    | .held emitted kept => .ok ({ state with pending := kept }, textSegment emitted)
  | .tool =>
    match _hcall : completeCall serde state.definition state.pending with
    | none =>
      if byteLen state.pending > state.definition.maxBufferedBytes then
        .error (.processing (.toolCallTooLong state.definition.maxBufferedBytes))
      else .ok (state, [])
    | some (position, name, arguments) =>
      if byteLen (state.pending.take position) > state.definition.maxBufferedBytes then
        .error (.processing (.toolCallTooLong state.definition.maxBufferedBytes))
      else
        prepend [.call name arguments] (pushLoop serde { state with
          mode := .text
          pending := state.pending.drop (position + state.definition.endDelimiter.length) })
termination_by state.pending.length
decreasing_by
  · have hfound := (scan_eq_found_iff state.definition.startDelimiter_ne_nil
      state.definition.endDelimiter_ne_nil).mp _hscan
    have hlen := congrArg List.length hfound.1
    have hpos := List.length_pos_iff.mpr state.definition.startDelimiter_ne_nil
    simp only [List.length_append] at hlen
    omega
  · have hle := add_length_le_of_completeCall _hcall
    have hpos := List.length_pos_iff.mpr state.definition.endDelimiter_ne_nil
    simp only [List.length_drop]
    omega

/-- The state with more text to read. -/
def extend (state : TaggedJsonToolParserState) (delta : Text) : TaggedJsonToolParserState :=
  { state with pending := state.pending ++ delta }

/-- `TaggedJsonToolParserState::push` -/
def push (serde : Serde) (state : TaggedJsonToolParserState) (delta : Text) :
    Except ParserError (TaggedJsonToolParserState × List ToolSegment) :=
  (state.extend delta).pushLoop serde

/-- `TaggedJsonToolParserState::finish` -/
def finish (state : TaggedJsonToolParserState) : Except ParserError Unit :=
  if state.mode = .tool then .error (.processing .unterminatedToolCall)
  else if state.pending ≠ [] then .error (.processing .incompleteToolDelimiter)
  else .ok ()

variable {serde : Serde} {definition : TaggedJsonToolParserDefinition}

/-- The loop in text mode. -/
theorem pushLoop_text (pending : Text) :
    pushLoop serde ⟨definition, .text, pending⟩ =
      match scan definition.startDelimiter definition.endDelimiter pending with
      | .unexpected => .error (.processing (.unexpectedToolDelimiter definition.endDelimiter))
      | .found before rest =>
        prepend (textSegment before) (pushLoop serde ⟨definition, .tool, rest⟩)
      | .held emitted kept => .ok (⟨definition, .text, kept⟩, textSegment emitted) := by
  rw [pushLoop]
  cases hscan : scan definition.startDelimiter definition.endDelimiter pending with
  | unexpected => simp
  | found before rest => simp
  | held emitted kept => simp

/-- The loop in tool mode. -/
theorem pushLoop_tool (pending : Text) :
    pushLoop serde ⟨definition, .tool, pending⟩ =
      match completeCall serde definition pending with
      | none =>
        if byteLen pending > definition.maxBufferedBytes then
          .error (.processing (.toolCallTooLong definition.maxBufferedBytes))
        else .ok (⟨definition, .tool, pending⟩, [])
      | some (position, name, arguments) =>
        if byteLen (pending.take position) > definition.maxBufferedBytes then
          .error (.processing (.toolCallTooLong definition.maxBufferedBytes))
        else
          prepend [.call name arguments] (pushLoop serde
            ⟨definition, .text, pending.drop (position + definition.endDelimiter.length)⟩) := by
  rw [pushLoop]
  cases hcall : completeCall serde definition pending with
  | none => simp
  | some call => simp

end TaggedJsonToolParserState

open TaggedJsonToolParserState

/-- A text that the loop accepts, by what it meets in it. -/
inductive Accepts (serde : Serde) (definition : TaggedJsonToolParserDefinition) :
    ToolMode → Text → TaggedJsonToolParserState → List ToolSegment → Prop
  | stop {pending emitted kept : Text}
      (scanned : scan definition.startDelimiter definition.endDelimiter pending =
        .held emitted kept) :
      Accepts serde definition .text pending ⟨definition, .text, kept⟩ (textSegment emitted)
  | start {pending before rest : Text} {next : TaggedJsonToolParserState}
      {output : List ToolSegment}
      (scanned : scan definition.startDelimiter definition.endDelimiter pending =
        .found before rest)
      (accepted : Accepts serde definition .tool rest next output) :
      Accepts serde definition .text pending next (textSegment before ++ output)
  | wait {pending : Text} (incomplete : completeCall serde definition pending = none)
      (fits : byteLen pending ≤ definition.maxBufferedBytes) :
      Accepts serde definition .tool pending ⟨definition, .tool, pending⟩ []
  | call {pending : Text} {position : ℕ} {name : String} {arguments : Text}
      {next : TaggedJsonToolParserState} {output : List ToolSegment}
      (complete : completeCall serde definition pending = some (position, name, arguments))
      (fits : byteLen (pending.take position) ≤ definition.maxBufferedBytes)
      (accepted : Accepts serde definition .text
        (pending.drop (position + definition.endDelimiter.length)) next output) :
      Accepts serde definition .tool pending next (.call name arguments :: output)

variable {serde : Serde} {definition : TaggedJsonToolParserDefinition} {mode : ToolMode}
  {pending : Text} {next : TaggedJsonToolParserState} {output : List ToolSegment}

/-- The loop returns what is accepted. -/
theorem Accepts.pushLoop_eq (h : Accepts serde definition mode pending next output) :
    pushLoop serde ⟨definition, mode, pending⟩ = .ok (next, output) := by
  induction h with
  | stop scanned => rw [pushLoop_text, scanned]
  | start scanned _ ih =>
    rw [pushLoop_text, scanned]
    simp [ih]
  | wait incomplete fits =>
    rw [pushLoop_tool, incomplete]
    simp [Nat.not_lt.mpr fits]
  | call complete fits _ ih =>
    rw [pushLoop_tool, complete]
    simp [Nat.not_lt.mpr fits, ih]

/-- What the loop returns is accepted. -/
theorem accepts_of_pushLoop_eq
    (h : pushLoop serde ⟨definition, mode, pending⟩ = .ok (next, output)) :
    Accepts serde definition mode pending next output := by
  -- Each turn of the loop leaves a shorter text.
  induction hlen : pending.length using Nat.strong_induction_on
    generalizing mode pending output with
  | _ n ih =>
    cases mode with
    | text =>
      rw [pushLoop_text] at h
      split at h
      next => cases h
      next before rest hscan =>
        obtain ⟨output, hrest, rfl⟩ := prepend_eq_ok h
        have hfound := (scan_eq_found_iff definition.startDelimiter_ne_nil
          definition.endDelimiter_ne_nil).mp hscan
        have hshort := congrArg List.length hfound.1
        have hpos := List.length_pos_iff.mpr definition.startDelimiter_ne_nil
        simp only [List.length_append] at hshort
        exact .start hscan (ih rest.length (by omega) hrest rfl)
      next emitted kept hscan =>
        cases h
        exact .stop hscan
    | tool =>
      rw [pushLoop_tool] at h
      split at h
      next hcall =>
        split at h
        · cases h
        next hfits =>
          cases h
          exact .wait hcall (Nat.not_lt.mp hfits)
      next position name arguments hcall =>
        split at h
        · cases h
        next hfits =>
          obtain ⟨output, hrest, rfl⟩ := prepend_eq_ok h
          have hle := add_length_le_of_completeCall hcall
          have hpos := List.length_pos_iff.mpr definition.endDelimiter_ne_nil
          exact .call hcall (Nat.not_lt.mp hfits)
            (ih _ (by rw [List.length_drop]; omega) hrest rfl)

end Locus.Parser
