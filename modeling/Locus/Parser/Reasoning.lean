import Locus.Lib.Chunks
import Locus.Lib.Scan
import Locus.Parser.Definition

/-!
# The reasoning parser

The parser separates one delimited section of reasoning from the text around it. It keeps
back what may be the beginning of a delimiter until more text arrives.
-/

namespace Locus.Parser

open Locus.Lib

inductive ReasoningMode
  | text
  | reasoning
  deriving DecidableEq

inductive ReasoningSegment
  | text (text : Text)
  | reasoning (text : Text)
  deriving DecidableEq

structure TaggedReasoningParserState where
  definition : TaggedReasoningParserDefinition
  mode : ReasoningMode
  pending : Text
  sawReasoning : Bool

/-- `TaggedReasoningParserDefinition::state` -/
def TaggedReasoningParserDefinition.state (definition : TaggedReasoningParserDefinition) :
    TaggedReasoningParserState where
  definition := definition
  mode := .text
  pending := []
  sawReasoning := false

/-- The reasoning among the segments. -/
def reasoningOf (output : List ReasoningSegment) : Text :=
  output.flatMap fun segment =>
    match segment with
    | .text _ => []
    | .reasoning text => text

/-- The text among the segments. -/
def textOf (output : List ReasoningSegment) : Text :=
  output.flatMap fun segment =>
    match segment with
    | .text text => text
    | .reasoning _ => []

/-- `push_reasoning_segment`: the segment to add, if any. -/
def pushReasoningSegment (mode : ReasoningMode) (text : Text) : List ReasoningSegment :=
  if text = [] then []
  else
    match mode with
    | .text => [.text text]
    | .reasoning => [.reasoning text]

namespace TaggedReasoningParserState

/-- The delimiter that ends the current mode. -/
def delimiter (state : TaggedReasoningParserState) : Text :=
  match state.mode with
  | .text => state.definition.startDelimiter
  | .reasoning => state.definition.endDelimiter

/-- The delimiter that must not come first in the current mode. -/
def forbidden (state : TaggedReasoningParserState) : Text :=
  match state.mode with
  | .text => state.definition.endDelimiter
  | .reasoning => state.definition.startDelimiter

theorem delimiter_ne_nil (state : TaggedReasoningParserState) : state.delimiter ≠ [] := by
  unfold delimiter
  split
  · exact state.definition.startDelimiter_ne_nil
  · exact state.definition.endDelimiter_ne_nil

theorem forbidden_ne_nil (state : TaggedReasoningParserState) : state.forbidden ≠ [] := by
  unfold forbidden
  split
  · exact state.definition.endDelimiter_ne_nil
  · exact state.definition.startDelimiter_ne_nil

/-- The state after the delimiter that ends the current mode. -/
def switch (state : TaggedReasoningParserState) (rest : Text) :
    Except ParserError TaggedReasoningParserState :=
  match state.mode with
  | .text =>
    if state.sawReasoning then .error (.processing .multipleReasoningSections)
    else .ok { state with mode := .reasoning, pending := rest, sawReasoning := true }
  | .reasoning => .ok { state with mode := .text, pending := rest }

/-- Switching modes leaves the rest of the text to be read. -/
theorem switch_pending {state next : TaggedReasoningParserState} {rest : Text}
    (h : state.switch rest = .ok next) : next.pending = rest := by
  unfold switch at h
  split at h
  · split at h
    · cases h
    · cases h
      rfl
  · cases h
    rfl

/-- The loop of `push` over the pending text. -/
def pushLoop (state : TaggedReasoningParserState) :
    Except ParserError (TaggedReasoningParserState × List ReasoningSegment) :=
  match _hscan : scan state.delimiter state.forbidden state.pending with
  | .unexpected => .error (.processing (.unexpectedReasoningDelimiter state.forbidden))
  | .found before rest =>
    match _hswitch : state.switch rest with
    | .error error => .error error
    | .ok next => prepend (pushReasoningSegment state.mode before) next.pushLoop
  | .held emitted kept =>
    .ok ({ state with pending := kept }, pushReasoningSegment state.mode emitted)
termination_by state.pending.length
decreasing_by
  have hfound := (scan_eq_found_iff state.delimiter_ne_nil state.forbidden_ne_nil).mp _hscan
  have hlen := congrArg List.length hfound.1
  have hpos := List.length_pos_iff.mpr state.delimiter_ne_nil
  rw [switch_pending _hswitch]
  simp only [List.length_append] at hlen
  omega

/-- The state with more text to read. -/
def extend (state : TaggedReasoningParserState) (delta : Text) : TaggedReasoningParserState :=
  { state with pending := state.pending ++ delta }

/-- `TaggedReasoningParserState::push` -/
def push (state : TaggedReasoningParserState) (delta : Text) :
    Except ParserError (TaggedReasoningParserState × List ReasoningSegment) :=
  (state.extend delta).pushLoop

/-- `TaggedReasoningParserState::finish` -/
def finish (state : TaggedReasoningParserState) : Except ParserError Unit :=
  if state.mode = .reasoning then .error (.processing .unterminatedReasoning)
  else if state.pending ≠ [] then .error (.processing .incompleteReasoningDelimiter)
  else .ok ()

variable {state next : TaggedReasoningParserState} {before rest emitted kept : Text}
  {output : List ReasoningSegment}

/-- One turn of the loop. -/
theorem pushLoop_eq (state : TaggedReasoningParserState) :
    state.pushLoop =
      match scan state.delimiter state.forbidden state.pending with
      | .unexpected => .error (.processing (.unexpectedReasoningDelimiter state.forbidden))
      | .found before rest => (state.switch rest).bind fun next =>
        prepend (pushReasoningSegment state.mode before) next.pushLoop
      | .held emitted kept =>
        .ok ({ state with pending := kept }, pushReasoningSegment state.mode emitted) := by
  rw [pushLoop]
  cases hscan : scan state.delimiter state.forbidden state.pending with
  | unexpected => simp
  | found before rest =>
    simp only
    cases state.switch rest with
    | error error => rfl
    | ok next => rfl
  | held emitted kept => simp

/-- The loop of a text with an unexpected delimiter. -/
theorem pushLoop_unexpected (h : scan state.delimiter state.forbidden state.pending = .unexpected) :
    state.pushLoop = .error (.processing (.unexpectedReasoningDelimiter state.forbidden)) := by
  rw [pushLoop_eq, h]

/-- The loop of a text that is cut at a delimiter. -/
theorem pushLoop_found (h : scan state.delimiter state.forbidden state.pending =
    .found before rest) :
    state.pushLoop = (state.switch rest).bind fun next =>
      prepend (pushReasoningSegment state.mode before) next.pushLoop := by
  rw [pushLoop_eq, h]

/-- The loop of a text without delimiters. -/
theorem pushLoop_held (h : scan state.delimiter state.forbidden state.pending =
    .held emitted kept) :
    state.pushLoop =
      .ok ({ state with pending := kept }, pushReasoningSegment state.mode emitted) := by
  rw [pushLoop_eq, h]

/-- Switching modes keeps the definition. -/
theorem switch_definition (h : state.switch rest = .ok next) :
    next.definition = state.definition := by
  unfold switch at h
  split at h
  · split at h
    · cases h
    · cases h
      rfl
  · cases h
    rfl

/-- A text that the loop accepts, by what it meets in it. -/
inductive Reads : TaggedReasoningParserState → TaggedReasoningParserState →
    List ReasoningSegment → Prop
  | held {state : TaggedReasoningParserState} {emitted kept : Text}
      (scanned : scan state.delimiter state.forbidden state.pending = .held emitted kept) :
      Reads state { state with pending := kept } (pushReasoningSegment state.mode emitted)
  | found {state middle next : TaggedReasoningParserState} {before rest : Text}
      {output : List ReasoningSegment}
      (scanned : scan state.delimiter state.forbidden state.pending = .found before rest)
      (switched : state.switch rest = .ok middle) (reads : Reads middle next output) :
      Reads state next (pushReasoningSegment state.mode before ++ output)

/-- What the loop returns was read. -/
theorem reads_of_pushLoop_eq (h : state.pushLoop = .ok (next, output)) :
    Reads state next output := by
  induction state using pushLoop.induct generalizing output with
  | case1 state hscan =>
    rw [pushLoop_unexpected hscan] at h
    cases h
  | case2 state before rest hscan error hswitch =>
    rw [pushLoop_found hscan, hswitch] at h
    cases h
  | case3 state before rest hscan middle hswitch ih =>
    rw [pushLoop_found hscan, hswitch] at h
    obtain ⟨output, hrest, rfl⟩ := prepend_eq_ok h
    exact .found hscan hswitch (ih hrest)
  | case4 state emitted kept hscan =>
    rw [pushLoop_held hscan] at h
    cases h
    exact .held hscan

end TaggedReasoningParserState

end Locus.Parser
