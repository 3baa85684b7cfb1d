import Locus.Parser.Tool

/-!
# Chunk boundaries of the tool parser

Chunks that are all accepted give what the whole text gives.
-/

namespace Locus.Parser

open Locus.Lib TaggedJsonToolParserState

/-- Neighbouring text segments merged. -/
def mergeText : List ToolSegment → List ToolSegment
  | [] => []
  | .call name arguments :: rest => .call name arguments :: mergeText rest
  | .text text :: rest =>
    match mergeText rest with
    | .text text' :: rest' => .text (text ++ text') :: rest'
    | merged => .text text :: merged

/-- Push all chunks and finish. -/
def TaggedJsonToolParserDefinition.run (definition : TaggedJsonToolParserDefinition)
    (serde : Serde) (chunks : List Text) : Except ParserError (List ToolSegment) :=
  finishWith TaggedJsonToolParserState.finish
    (pushAll (TaggedJsonToolParserState.push serde) definition.state chunks)

/-- Neither delimiter stands in the other before its end. -/
def TaggedJsonToolParserDefinition.Separate (definition : TaggedJsonToolParserDefinition) : Prop :=
  ¬ EarlyInside definition.startDelimiter definition.endDelimiter ∧
  ¬ EarlyInside definition.endDelimiter definition.startDelimiter

/-- Merging looks at later segments only through their merged form. -/
theorem mergeText_append {rest rest' : List ToolSegment} (h : mergeText rest = mergeText rest')
    (output : List ToolSegment) : mergeText (output ++ rest) = mergeText (output ++ rest') := by
  induction output with
  | nil => exact h
  | cons segment output ih =>
    cases segment with
    | call name arguments => simp only [List.cons_append, mergeText, ih]
    | text text => simp only [List.cons_append, mergeText, ih]

/-- A text segment in two parts merges to the same. -/
theorem mergeText_textSegment (before after : Text) (rest : List ToolSegment) :
    mergeText (textSegment (before ++ after) ++ rest) =
      mergeText (textSegment before ++ textSegment after ++ rest) := by
  unfold textSegment
  by_cases hbefore : before = []
  · simp [hbefore]
  · by_cases hafter : after = []
    · simp [hafter]
    · simp only [List.append_eq_nil_iff, hbefore, hafter, false_and, if_false, List.cons_append,
        List.nil_append, mergeText]
      cases mergeText rest with
      | nil => rfl
      | cons segment rest =>
        cases segment with
        | call name arguments => rfl
        | text text => simp

variable {serde : Serde} {definition : TaggedJsonToolParserDefinition} {mode : ToolMode}
  {pending emitted kept more : Text} {next : TaggedJsonToolParserState} {output : List ToolSegment}

/-- Text that was kept is read with what follows it. -/
theorem pushLoop_append_held
    (h : scan definition.startDelimiter definition.endDelimiter pending = .held emitted kept)
    (more : Text) :
    Alike mergeText (pushLoop serde ⟨definition, .text, pending ++ more⟩)
      (prepend (textSegment emitted) (pushLoop serde ⟨definition, .text, kept ++ more⟩)) := by
  rw [pushLoop_text, pushLoop_text, scan_append_of_held definition.startDelimiter_ne_nil
    definition.endDelimiter_ne_nil h more]
  cases scan definition.startDelimiter definition.endDelimiter (kept ++ more) with
  | unexpected => trivial
  | found before rest =>
    simp only [Scan.after]
    rw [prepend_prepend]
    exact alike_prepend _ (mergeText_textSegment emitted before)
  | held emitted' kept' =>
    have hsame := mergeText_textSegment emitted emitted' []
    rw [List.append_nil, List.append_nil] at hsame
    exact ⟨rfl, hsame⟩

/-- A text that is cut at a start delimiter is cut there however it goes on. -/
theorem scan_append_found {before rest : Text} (hsep : definition.Separate)
    (h : scan definition.startDelimiter definition.endDelimiter pending = .found before rest)
    (more : Text) :
    scan definition.startDelimiter definition.endDelimiter (pending ++ more) =
      .found before (rest ++ more) := by
  have hfound := (scan_eq_found_iff definition.startDelimiter_ne_nil
    definition.endDelimiter_ne_nil).mp h
  exact (scan_eq_found_iff definition.startDelimiter_ne_nil
    definition.endDelimiter_ne_nil).mpr (hfound.append hsep.1 more)

/-- A text with an unexpected delimiter keeps it however it goes on. -/
theorem scan_append_unexpected (hsep : definition.Separate)
    (h : scan definition.startDelimiter definition.endDelimiter pending = .unexpected)
    (more : Text) :
    scan definition.startDelimiter definition.endDelimiter (pending ++ more) = .unexpected := by
  have hun := (scan_eq_unexpected_iff definition.startDelimiter_ne_nil
    definition.endDelimiter_ne_nil).mp h
  exact (scan_eq_unexpected_iff definition.startDelimiter_ne_nil
    definition.endDelimiter_ne_nil).mpr (hun.append definition.endDelimiter_ne_nil hsep.2 more)

/-- The loop goes on behind the start delimiter. -/
theorem pushLoop_append_found {before rest : Text} (hsep : definition.Separate)
    (h : scan definition.startDelimiter definition.endDelimiter pending = .found before rest)
    (more : Text) :
    pushLoop serde ⟨definition, .text, pending ++ more⟩ =
      prepend (textSegment before) (pushLoop serde ⟨definition, .tool, rest ++ more⟩) := by
  rw [pushLoop_text, scan_append_found hsep h]

/-- A complete call is taken out however the text goes on. -/
theorem pushLoop_append_call {position : ℕ} {name : String} {arguments : Text}
    (complete : completeCall serde definition pending = some (position, name, arguments))
    (fits : byteLen (pending.take position) ≤ definition.maxBufferedBytes) (more : Text) :
    pushLoop serde ⟨definition, .tool, pending ++ more⟩ =
      prepend [.call name arguments] (pushLoop serde ⟨definition, .text,
        pending.drop (position + definition.endDelimiter.length) ++ more⟩) := by
  have hle := add_length_le_of_completeCall complete
  have htake : (pending ++ more).take position = pending.take position :=
    List.take_append_of_le_length (by omega)
  have hdrop : (pending ++ more).drop (position + definition.endDelimiter.length) =
      pending.drop (position + definition.endDelimiter.length) ++ more :=
    List.drop_append_of_le_length hle
  rw [pushLoop_tool, completeCall_append complete more]
  simp only [htake, hdrop]
  rw [if_neg (Nat.not_lt.mpr fits)]

/-- A text that is accepted can be read apart from what follows it. -/
theorem Accepts.append (hsep : definition.Separate)
    (h : Accepts serde definition mode pending next output) (more : Text) :
    Alike mergeText (pushLoop serde ⟨definition, mode, pending ++ more⟩)
      (prepend output (pushLoop serde (next.extend more))) := by
  induction h with
  | stop scanned => exact pushLoop_append_held scanned more
  | start scanned _ ih =>
    rw [pushLoop_append_found hsep scanned, ← prepend_prepend]
    exact ih.prepend fun hview => mergeText_append hview _
  | wait incomplete fits =>
    rw [prepend_nil]
    exact .refl _
  | @call pending position name arguments next output complete fits accepted ih =>
    have hcons : ToolSegment.call name arguments :: output = [.call name arguments] ++ output := rfl
    rw [pushLoop_append_call complete fits, hcons, ← prepend_prepend]
    exact ih.prepend fun hview => mergeText_append hview _

/-- Nothing more can be said about the pending text. -/
def TaggedJsonToolParserState.Settled (serde : Serde) (state : TaggedJsonToolParserState) : Prop :=
  Accepts serde state.definition state.mode state.pending state []

/-- The loop keeps the definition and leaves a settled state. -/
theorem Accepts.settled (h : Accepts serde definition mode pending next output) :
    next.definition = definition ∧ next.Settled serde := by
  induction h with
  | stop scanned =>
    have hkept := scan_kept definition.startDelimiter_ne_nil definition.endDelimiter_ne_nil scanned
    exact ⟨rfl, .stop hkept⟩
  | start _ _ ih => exact ih
  | wait incomplete fits => exact ⟨rfl, .wait incomplete fits⟩
  | call _ _ _ ih => exact ih

/-- A new parser is settled. -/
theorem settled_toolState (serde : Serde) (definition : TaggedJsonToolParserDefinition) :
    definition.state.Settled serde :=
  .stop (scan_nil definition.startDelimiter_ne_nil definition.endDelimiter_ne_nil)

/-- Chunks can be pushed apart as long as they are accepted. -/
theorem splits_toolPush (serde : Serde) (hsep : definition.Separate) :
    Splits (push serde) (fun state => state.definition = definition ∧ state.Settled serde)
      mergeText where
  nil := by
    rintro state ⟨-, hsettled⟩
    have hextend : state.extend [] = state := by simp [extend]
    rw [push, hextend]
    exact hsettled.pushLoop_eq
  next := by
    rintro state next piece output ⟨rfl, -⟩ hpush
    exact (accepts_of_pushLoop_eq hpush).settled
  view_append := by
    intro output rest rest' hview
    exact mergeText_append hview output
  append := by
    rintro state next piece output more ⟨rfl, -⟩ hpush
    have happend : state.extend (piece ++ more) = (state.extend piece).extend more := by
      simp [extend]
    rw [push, happend]
    exact (accepts_of_pushLoop_eq hpush).append hsep more

end Locus.Parser
