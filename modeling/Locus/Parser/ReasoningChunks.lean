import Locus.Parser.Reasoning

/-!
# Chunk boundaries of the reasoning parser

The parser treats a text the same however it is divided, exactly if neither delimiter
stands inside the other before its end. A delimiter that does is recognised as soon as a
chunk ends with it, before the delimiter around it is complete.
-/

namespace Locus.Parser

open Locus.Lib

/-- Both, side by side. -/
def contents (output : List ReasoningSegment) : Text × Text :=
  (reasoningOf output, textOf output)

/-- Push all chunks and finish. -/
def TaggedReasoningParserDefinition.run (definition : TaggedReasoningParserDefinition)
    (chunks : List Text) : Except ParserError (List ReasoningSegment) :=
  finishWith TaggedReasoningParserState.finish
    (pushAll TaggedReasoningParserState.push definition.state chunks)

/-- Chunks succeed exactly if the whole text does, with the same reasoning and text. -/
def TaggedReasoningParserDefinition.ChunkInvariant
    (definition : TaggedReasoningParserDefinition) : Prop :=
  ∀ text chunks, chunks.flatten = text →
    ((∃ output, definition.run chunks = .ok output) ↔
      ∃ output, definition.run [text] = .ok output) ∧
    ∀ output whole, definition.run chunks = .ok output → definition.run [text] = .ok whole →
      reasoningOf output = reasoningOf whole ∧ textOf output = textOf whole

/-- Neither delimiter stands in the other before its end. -/
def TaggedReasoningParserDefinition.Separate
    (definition : TaggedReasoningParserDefinition) : Prop :=
  ¬ EarlyInside definition.startDelimiter definition.endDelimiter ∧
  ¬ EarlyInside definition.endDelimiter definition.startDelimiter

/-- What the segments hold is put together piece by piece. -/
theorem contents_append (output rest : List ReasoningSegment) :
    contents (output ++ rest) =
      (reasoningOf output ++ reasoningOf rest, textOf output ++ textOf rest) := by
  simp [contents, reasoningOf, textOf]

/-- A segment in two parts holds the same. -/
theorem contents_pushReasoningSegment (mode : ReasoningMode) (before after : Text)
    (rest : List ReasoningSegment) :
    contents (pushReasoningSegment mode (before ++ after) ++ rest) =
      contents (pushReasoningSegment mode before ++ pushReasoningSegment mode after ++ rest) := by
  cases mode with
  | text =>
    by_cases hbefore : before = [] <;> by_cases hafter : after = [] <;>
      simp [contents, reasoningOf, textOf, pushReasoningSegment, hbefore, hafter]
  | reasoning =>
    by_cases hbefore : before = [] <;> by_cases hafter : after = [] <;>
      simp [contents, reasoningOf, textOf, pushReasoningSegment, hbefore, hafter]

namespace TaggedReasoningParserState

variable {state next : TaggedReasoningParserState} {before rest emitted kept : Text}
  {output : List ReasoningSegment}

/-- Switching modes depends on the state only, and passes the rest on. -/
theorem switch_append (more : Text) :
    state.switch (rest ++ more) = (state.switch rest).map fun next => next.extend more := by
  unfold switch extend
  split
  · split <;> rfl
  · rfl

/-- Neither of the two delimiters of a mode stands in the other before its end. -/
theorem separate (h : state.definition.Separate) :
    ¬ EarlyInside state.delimiter state.forbidden ∧
      ¬ EarlyInside state.forbidden state.delimiter := by
  unfold delimiter forbidden
  split
  · exact h
  · exact h.symm

/-- Nothing more can be said about the pending text. -/
def Settled (state : TaggedReasoningParserState) : Prop :=
  scan state.delimiter state.forbidden state.pending = .held [] state.pending

/-- A text that is cut at a delimiter is cut there however it goes on. -/
theorem pushLoop_extend_found (hsep : state.definition.Separate)
    (h : scan state.delimiter state.forbidden state.pending = .found before rest) (more : Text) :
    (state.extend more).pushLoop = (state.switch rest).bind fun next =>
      prepend (pushReasoningSegment state.mode before) (next.extend more).pushLoop := by
  have hfound := (scan_eq_found_iff state.delimiter_ne_nil state.forbidden_ne_nil).mp h
  have hmore := hfound.append (separate hsep).1 more
  have hscan : scan (state.extend more).delimiter (state.extend more).forbidden
      (state.extend more).pending = .found before (rest ++ more) :=
    (scan_eq_found_iff state.delimiter_ne_nil state.forbidden_ne_nil).mpr hmore
  have hswitch : (state.extend more).switch (rest ++ more) =
      (state.switch rest).map fun next => next.extend more := switch_append more
  rw [pushLoop_found hscan, hswitch]
  cases state.switch rest <;> rfl

/-- A text that is refused is refused however it goes on. -/
theorem pushLoop_append_error (hsep : state.definition.Separate) {error : ParserError}
    (h : state.pushLoop = .error error) (more : Text) :
    ∃ error', (state.extend more).pushLoop = .error error' := by
  induction state using pushLoop.induct generalizing error with
  | case1 state hscan =>
    have hun := (scan_eq_unexpected_iff state.delimiter_ne_nil state.forbidden_ne_nil).mp hscan
    have hun' := hun.append state.forbidden_ne_nil (separate hsep).2 more
    exact ⟨_, pushLoop_unexpected
      ((scan_eq_unexpected_iff state.delimiter_ne_nil state.forbidden_ne_nil).mpr hun')⟩
  | case2 state before rest hscan error' hswitch =>
    refine ⟨error', ?_⟩
    rw [pushLoop_extend_found hsep hscan, hswitch]
    rfl
  | case3 state before rest hscan next hswitch ih =>
    rw [pushLoop_found hscan, hswitch] at h
    cases hnext : next.pushLoop with
    | ok result =>
      simp only [Except.bind, hnext] at h
      cases h
    | error error' =>
      obtain ⟨error'', herror⟩ := ih (by rwa [switch_definition hswitch]) hnext
      refine ⟨error'', ?_⟩
      rw [pushLoop_extend_found hsep hscan, hswitch]
      simp [Except.bind, herror]
  | case4 state emitted kept hscan =>
    rw [pushLoop_held hscan] at h
    cases h

/-- Text that was kept is read with what follows it. -/
theorem pushLoop_extend_held
    (h : scan state.delimiter state.forbidden state.pending = .held emitted kept) (more : Text) :
    Alike contents (state.extend more).pushLoop
      (prepend (pushReasoningSegment state.mode emitted)
        ({ state with pending := kept }.extend more).pushLoop) := by
  have hmore := scan_append_of_held state.delimiter_ne_nil state.forbidden_ne_nil h more
  set keeping : TaggedReasoningParserState := { state with pending := kept } with hkeeping
  have hscan : scan (state.extend more).delimiter (state.extend more).forbidden
      (state.extend more).pending =
      (scan (keeping.extend more).delimiter (keeping.extend more).forbidden
        (keeping.extend more).pending).after emitted := hmore
  cases hkept : scan (keeping.extend more).delimiter (keeping.extend more).forbidden
      (keeping.extend more).pending with
  | unexpected =>
    rw [hkept] at hscan
    rw [pushLoop_unexpected hscan, pushLoop_unexpected hkept]
    trivial
  | found before rest =>
    rw [hkept] at hscan
    rw [pushLoop_found hscan, pushLoop_found hkept]
    have hswitch : (state.extend more).switch rest = state.switch rest := rfl
    have hswitch' : (keeping.extend more).switch rest = state.switch rest := rfl
    rw [hswitch, hswitch']
    cases state.switch rest with
    | error error => trivial
    | ok next =>
      simp only [Except.bind]
      rw [prepend_prepend]
      exact alike_prepend _ (contents_pushReasoningSegment state.mode emitted before)
  | held emitted' kept' =>
    rw [hkept] at hscan
    rw [pushLoop_held hscan, pushLoop_held hkept]
    have hsame := contents_pushReasoningSegment state.mode emitted emitted' []
    rw [List.append_nil, List.append_nil] at hsame
    exact ⟨rfl, hsame⟩

/-- A text that is accepted can be read apart from what follows it. -/
theorem Reads.append (h : Reads state next output) (hsep : state.definition.Separate)
    (more : Text) :
    Alike contents (state.extend more).pushLoop (prepend output (next.extend more).pushLoop) := by
  induction h with
  | held scanned => exact pushLoop_extend_held scanned more
  | found scanned switched _ ih =>
    rw [pushLoop_extend_found hsep scanned, switched, ← prepend_prepend]
    exact (ih (by rwa [switch_definition switched])).prepend fun hview => by
      rw [contents_append, contents_append]
      simp_all [contents]

/-- The loop keeps the definition and leaves a settled state. -/
theorem Reads.settled (h : Reads state next output) :
    next.definition = state.definition ∧ next.Settled := by
  induction h with
  | held scanned =>
    exact ⟨rfl, scan_kept (delimiter_ne_nil _) (forbidden_ne_nil _) scanned⟩
  | found _ switched _ ih => exact ⟨ih.1.trans (switch_definition switched), ih.2⟩

end TaggedReasoningParserState

open TaggedReasoningParserState

variable {definition : TaggedReasoningParserDefinition}

/-- A new parser is settled. -/
theorem settled_state (definition : TaggedReasoningParserDefinition) :
    definition.state.Settled :=
  scan_nil definition.state.delimiter_ne_nil definition.state.forbidden_ne_nil

/-- Chunks can be pushed apart if the delimiters are separate. -/
theorem splits_push (hsep : definition.Separate) :
    Splits push (fun state => state.definition = definition ∧ state.Settled) contents where
  nil := by
    rintro state ⟨-, hsettled⟩
    have hextend : state.extend [] = state := by simp [extend]
    rw [push, hextend, pushLoop_held hsettled]
    rfl
  next := by
    rintro state next piece output ⟨hdef, -⟩ hpush
    obtain ⟨hdef', hsettled⟩ := (reads_of_pushLoop_eq hpush).settled
    exact ⟨hdef'.trans hdef, hsettled⟩
  view_append := by
    intro output rest rest' hview
    rw [contents_append, contents_append]
    simp_all [contents]
  append := by
    rintro state next piece output more ⟨hdef, -⟩ hpush
    have happend : state.extend (piece ++ more) = (state.extend piece).extend more := by
      simp [extend]
    rw [push, happend]
    exact (reads_of_pushLoop_eq hpush).append (by rwa [extend, hdef]) more

/-- A refused beginning makes the whole refused if the delimiters are separate. -/
theorem push_append_error (hsep : definition.Separate) {piece more : Text} {error : ParserError}
    (h : definition.state.push piece = .error error) :
    ∃ error', definition.state.push (piece ++ more) = .error error' :=
  pushLoop_append_error hsep h more

/-- Separate delimiters are enough. -/
theorem chunkInvariant_of_separate (hsep : definition.Separate) : definition.ChunkInvariant := by
  rintro text chunks rfl
  have halike := (splits_push hsep).alike_pushAll ⟨rfl, settled_state definition⟩ chunks
    fun piece more error heq herror => by
      rw [heq]
      exact push_append_error hsep herror
  rw [← pushAll_singleton push] at halike
  obtain ⟨hiff, hview⟩ := halike.finishWith TaggedReasoningParserState.finish
  refine ⟨hiff, fun output whole houtput hwhole => ?_⟩
  exact Prod.mk.inj (hview output whole houtput hwhole)

/-- A parser that has read the start delimiter. -/
def TaggedReasoningParserDefinition.opened (definition : TaggedReasoningParserDefinition)
    (rest : Text) : TaggedReasoningParserState where
  definition := definition
  mode := .reasoning
  pending := rest
  sawReasoning := true

/-- The start delimiter opens the section. -/
theorem push_startDelimiter_append (rest : Text) :
    definition.state.push (definition.startDelimiter ++ rest) =
      (definition.opened rest).pushLoop := by
  set state := definition.state.extend (definition.startDelimiter ++ rest) with hstate
  have hscan : scan state.delimiter state.forbidden state.pending = .found [] rest :=
    scan_delimiter_append definition.startDelimiter_ne_nil definition.endDelimiter_ne_nil rest
  have hswitch : state.switch rest = .ok (definition.opened rest) := rfl
  rw [push, ← hstate, pushLoop_found hscan, hswitch]
  exact prepend_nil

/-- The two delimiters next to each other are an empty section. -/
theorem run_delimiters (definition : TaggedReasoningParserDefinition) :
    ∃ output, definition.run [definition.startDelimiter ++ definition.endDelimiter] =
      .ok output := by
  set opened := definition.opened definition.endDelimiter with hopened
  set closed : TaggedReasoningParserState := { opened with mode := .text, pending := [] }
    with hclosed
  have hscan : scan opened.delimiter opened.forbidden opened.pending = .found [] [] := by
    have h := scan_delimiter_append definition.endDelimiter_ne_nil
      definition.startDelimiter_ne_nil []
    rwa [List.append_nil] at h
  have hswitch : opened.switch [] = .ok closed := rfl
  have hnil : scan closed.delimiter closed.forbidden closed.pending = .held [] [] :=
    scan_nil closed.delimiter_ne_nil closed.forbidden_ne_nil
  have hpush : definition.state.push (definition.startDelimiter ++ definition.endDelimiter) =
      .ok (closed, []) := by
    rw [push_startDelimiter_append, ← hopened, pushLoop_found hscan, hswitch]
    simp only [Except.bind, pushLoop_held hnil]
    rfl
  refine ⟨[], finishWith_eq_ok.mpr ⟨closed, ?_, rfl⟩⟩
  rw [pushAll_singleton, hpush]

/-- A refused first chunk makes the run fail. -/
theorem run_cons_error {chunk : Text} {error : ParserError}
    (h : definition.state.push chunk = .error error) (chunks : List Text) :
    definition.run (chunk :: chunks) = .error error := by
  simp [TaggedReasoningParserDefinition.run, pushAll, h, finishWith]

/-- A division with a refused first chunk of the two delimiters is not treated like the
whole. -/
theorem not_chunkInvariant {chunk rest : Text} {error : ParserError}
    (heq : chunk ++ rest = definition.startDelimiter ++ definition.endDelimiter)
    (h : definition.state.push chunk = .error error) : ¬ definition.ChunkInvariant := by
  intro hinv
  obtain ⟨output, houtput⟩ := (hinv _ [chunk, rest] (by simpa using heq)).1.mpr
    (run_delimiters definition)
  rw [run_cons_error h] at houtput
  cases houtput

/-- The parser treats a text the same however it is divided exactly if neither delimiter
stands in the other before its end. -/
theorem chunkInvariant_iff (definition : TaggedReasoningParserDefinition) :
    definition.ChunkInvariant ↔
      ¬ EarlyInside definition.startDelimiter definition.endDelimiter ∧
      ¬ EarlyInside definition.endDelimiter definition.startDelimiter := by
  refine ⟨fun hinv => ⟨?_, ?_⟩, chunkInvariant_of_separate⟩
  · rintro ⟨i, hocc, hend⟩
    set cut := i + definition.startDelimiter.length
    have hscan := scan_take_of_inside definition.endDelimiter_ne_nil
      definition.startDelimiter_ne_nil hocc hend
    have hpush : definition.state.push
        (definition.startDelimiter ++ definition.endDelimiter.take cut) =
        .error (.processing (.unexpectedReasoningDelimiter definition.startDelimiter)) := by
      rw [push_startDelimiter_append]
      exact pushLoop_unexpected hscan
    have heq : definition.startDelimiter ++ definition.endDelimiter.take cut ++
        definition.endDelimiter.drop cut =
        definition.startDelimiter ++ definition.endDelimiter := by
      rw [List.append_assoc, List.take_append_drop]
    exact not_chunkInvariant heq hpush hinv
  · rintro ⟨i, hocc, hend⟩
    set cut := i + definition.endDelimiter.length
    have hscan := scan_take_of_inside definition.startDelimiter_ne_nil
      definition.endDelimiter_ne_nil hocc hend
    have hpush : definition.state.push (definition.startDelimiter.take cut) =
        .error (.processing (.unexpectedReasoningDelimiter definition.endDelimiter)) :=
      pushLoop_unexpected hscan
    have heq : definition.startDelimiter.take cut ++
        (definition.startDelimiter.drop cut ++ definition.endDelimiter) =
        definition.startDelimiter ++ definition.endDelimiter := by
      rw [← List.append_assoc, List.take_append_drop]
    exact not_chunkInvariant heq hpush hinv

end Locus.Parser
