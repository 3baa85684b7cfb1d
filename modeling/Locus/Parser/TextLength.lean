import Locus.Parser.Reasoning
import Locus.Parser.Tool

/-!
# What the parsers make of a text

Neither parser makes up text. The reasoning parser passes on at most what it was given,
and each call of the tool parser uses up some of it.
-/

namespace Locus.Parser

open Locus.Lib

/-- The segment is a call. -/
def ToolSegment.isCall : ToolSegment → Bool
  | .text _ => false
  | .call _ _ => true

/-- The number of calls among the segments. -/
def callCount (output : List ToolSegment) : ℕ :=
  output.countP ToolSegment.isCall

@[simp] theorem callCount_append (output rest : List ToolSegment) :
    callCount (output ++ rest) = callCount output + callCount rest :=
  List.countP_append

@[simp] theorem callCount_textSegment (text : Text) : callCount (textSegment text) = 0 := by
  unfold textSegment
  split <;> rfl

@[simp] theorem callCount_call (name : String) (arguments : Text) (rest : List ToolSegment) :
    callCount (.call name arguments :: rest) = callCount rest + 1 :=
  List.countP_cons_of_pos rfl

/-- Text of several segments is put together. -/
@[simp] theorem textOf_append (output rest : List ReasoningSegment) :
    textOf (output ++ rest) = textOf output ++ textOf rest := by
  simp [textOf]

/-- A segment has no more text than it was made from. -/
theorem length_textOf_pushReasoningSegment (mode : ReasoningMode) (text : Text) :
    (textOf (pushReasoningSegment mode text)).length ≤ text.length := by
  unfold pushReasoningSegment
  split
  next => simp [textOf]
  next => cases mode <;> simp [textOf]

/-- What the reasoning parser passes on and what it keeps was there before. -/
theorem TaggedReasoningParserState.Reads.length_le {state next : TaggedReasoningParserState}
    {output : List ReasoningSegment} (h : Reads state next output) :
    (textOf output).length + next.pending.length ≤ state.pending.length := by
  induction h with
  | @held state emitted kept scanned =>
    have hheld := (scan_eq_held_iff state.delimiter_ne_nil state.forbidden_ne_nil).mp scanned
    have hlen := congrArg List.length hheld.1
    have hsegment := length_textOf_pushReasoningSegment state.mode emitted
    rw [List.length_append] at hlen
    simp only
    omega
  | @found state middle next before rest output scanned switched _ ih =>
    have hfound := (scan_eq_found_iff state.delimiter_ne_nil state.forbidden_ne_nil).mp scanned
    have hlen := congrArg List.length hfound.1
    have hsegment := length_textOf_pushReasoningSegment state.mode before
    rw [switch_pending switched] at ih
    simp only [textOf_append, List.length_append] at hlen ⊢
    omega

/-- A push passes on no more than it was given. -/
theorem TaggedReasoningParserState.length_le_of_push {state next : TaggedReasoningParserState}
    {delta : Text} {output : List ReasoningSegment} (h : state.push delta = .ok (next, output)) :
    (textOf output).length + next.pending.length ≤ state.pending.length + delta.length := by
  have hle := (reads_of_pushLoop_eq h).length_le
  rwa [extend, List.length_append] at hle

/-- Each call uses up a delimiter. -/
theorem Accepts.callCount_le {serde : Serde} {definition : TaggedJsonToolParserDefinition}
    {mode : ToolMode} {pending : Text} {next : TaggedJsonToolParserState}
    {output : List ToolSegment} (h : Accepts serde definition mode pending next output) :
    callCount output + next.pending.length ≤ pending.length := by
  induction h with
  | stop scanned =>
    have hheld := (scan_eq_held_iff definition.startDelimiter_ne_nil
      definition.endDelimiter_ne_nil).mp scanned
    have hlen := congrArg List.length hheld.1
    rw [List.length_append] at hlen
    simp only [callCount_textSegment]
    omega
  | start scanned _ ih =>
    have hfound := (scan_eq_found_iff definition.startDelimiter_ne_nil
      definition.endDelimiter_ne_nil).mp scanned
    have hlen := congrArg List.length hfound.1
    simp only [List.length_append, callCount_append, callCount_textSegment] at hlen ⊢
    omega
  | wait incomplete fits => exact le_of_eq (Nat.zero_add _)
  | call complete fits _ ih =>
    have hle := add_length_le_of_completeCall complete
    have hpos := List.length_pos_iff.mpr definition.endDelimiter_ne_nil
    rw [List.length_drop] at ih
    rw [callCount_call]
    omega

/-- A push makes no more calls than it was given characters. -/
theorem TaggedJsonToolParserState.callCount_le_of_push {serde : Serde}
    {state next : TaggedJsonToolParserState} {delta : Text} {output : List ToolSegment}
    (h : state.push serde delta = .ok (next, output)) :
    callCount output + next.pending.length ≤ state.pending.length + delta.length := by
  have hle := (accepts_of_pushLoop_eq h).callCount_le
  rwa [List.length_append] at hle

end Locus.Parser
