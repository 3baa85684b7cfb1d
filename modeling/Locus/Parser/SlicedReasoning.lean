import Locus.Parser.Drained
import Locus.Parser.Reasoning

/-!
# The slices of the reasoning parser

The loop of the reasoning parser with positions in bytes. It cuts between characters only,
so it is the loop with positions in characters. What it keeps after a push is shorter than
the longer delimiter, and no delimiter is torn by what it hands over, unless one delimiter
can interrupt the other.
-/

namespace Locus.Parser

open Locus.Lib

namespace TaggedReasoningParserState

/-- The loop of `push` with positions in bytes. Each turn takes a piece from the front of the
pending text, so there are finitely many. -/
def pushLoopSliced (state : TaggedReasoningParserState) :
    Except Halt (TaggedReasoningParserState × List (Drained ReasoningSegment)) :=
  match _hscan : scanSliced state.delimiter state.forbidden state.pending with
  | none => .error .panic
  | some .unexpected =>
    .error (.error (.processing (.unexpectedReasoningDelimiter state.forbidden)))
  | some (.found before rest) =>
    match _hswitch : state.switch rest with
    | .error error => .error (.error error)
    | .ok next =>
      prepend [Drained.content before (pushReasoningSegment state.mode before),
        Drained.reserved state.delimiter []] next.pushLoopSliced
  | some (.held emitted kept) =>
    .ok ({ state with pending := kept },
      [Drained.content emitted (pushReasoningSegment state.mode emitted)])
termination_by state.pending.length
decreasing_by
  rw [scanSliced_eq state.delimiter_ne_nil state.forbidden_ne_nil, Option.some_inj] at _hscan
  have hfound := (scan_eq_found_iff state.delimiter_ne_nil state.forbidden_ne_nil).mp _hscan
  have hlen := congrArg List.length hfound.1
  have hpos := List.length_pos_iff.mpr state.delimiter_ne_nil
  rw [switch_pending _hswitch]
  simp only [List.length_append] at hlen
  omega

/-- `TaggedReasoningParserState::push` with positions in bytes -/
def pushSliced (state : TaggedReasoningParserState) (delta : Text) :
    Except Halt (TaggedReasoningParserState × List (Drained ReasoningSegment)) :=
  (state.extend delta).pushLoopSliced

variable {state next : TaggedReasoningParserState} {before rest emitted kept delta : Text}
  {log : List (Drained ReasoningSegment)}

/-- One turn of the loop. -/
theorem pushLoopSliced_eq (state : TaggedReasoningParserState) :
    state.pushLoopSliced =
      match scan state.delimiter state.forbidden state.pending with
      | .unexpected =>
        .error (.error (.processing (.unexpectedReasoningDelimiter state.forbidden)))
      | .found before rest =>
        match state.switch rest with
        | .error error => .error (.error error)
        | .ok next =>
          prepend [Drained.content before (pushReasoningSegment state.mode before),
            Drained.reserved state.delimiter []] next.pushLoopSliced
      | .held emitted kept =>
        .ok ({ state with pending := kept },
          [Drained.content emitted (pushReasoningSegment state.mode emitted)]) := by
  have hsliced := scanSliced_eq state.delimiter_ne_nil state.forbidden_ne_nil state.pending
  rw [pushLoopSliced]
  split
  next hscan =>
    rw [hscan] at hsliced
    cases hsliced
  next hscan =>
    rw [hscan, Option.some_inj] at hsliced
    rw [← hsliced]
  next before rest hscan =>
    rw [hscan, Option.some_inj] at hsliced
    rw [← hsliced]
    simp only
    split
    next hswitch => rw [hswitch]
    next hswitch => rw [hswitch]
  next emitted kept hscan =>
    rw [hscan, Option.some_inj] at hsliced
    rw [← hsliced]

/-- Positions in bytes make no difference to a push. -/
theorem returned_pushLoopSliced (state : TaggedReasoningParserState) :
    returned state.pushLoopSliced = state.pushLoop.mapError Halt.error := by
  induction state using pushLoop.induct with
  | case1 state hscan =>
    rw [pushLoopSliced_eq, pushLoop_unexpected hscan, hscan]
    rfl
  | case2 state before rest hscan error hswitch =>
    rw [pushLoopSliced_eq, pushLoop_found hscan, hscan, hswitch]
    simp only [hswitch]
    rfl
  | case3 state before rest hscan next hswitch ih =>
    rw [pushLoopSliced_eq, pushLoop_found hscan, hscan, hswitch]
    simp only [hswitch]
    have hsegments : segments [Drained.content before (pushReasoningSegment state.mode before),
        Drained.reserved state.delimiter []] = pushReasoningSegment state.mode before := by
      simp [segments, Drained.output]
    rw [returned_prepend, ih, hsegments, ← mapError_prepend]
    rfl
  | case4 state emitted kept hscan =>
    rw [pushLoopSliced_eq, pushLoop_held hscan, hscan]
    simp [returned, Except.map, Except.mapError, segments, Drained.output]

/-- No slice is cut inside a character. -/
theorem pushSliced_ne_panic (state : TaggedReasoningParserState) (delta : Text) :
    state.pushSliced delta ≠ .error .panic :=
  ne_panic_of_returned (returned_pushLoopSliced (state.extend delta))

/-- A text that the loop accepts, and the pieces that it takes from it. -/
inductive Drains : TaggedReasoningParserState → TaggedReasoningParserState →
    List (Drained ReasoningSegment) → Prop
  | held {state : TaggedReasoningParserState} {emitted kept : Text}
      (scanned : scan state.delimiter state.forbidden state.pending = .held emitted kept) :
      Drains state { state with pending := kept }
        [Drained.content emitted (pushReasoningSegment state.mode emitted)]
  | found {state middle next : TaggedReasoningParserState} {before rest : Text}
      {log : List (Drained ReasoningSegment)}
      (scanned : scan state.delimiter state.forbidden state.pending = .found before rest)
      (switched : state.switch rest = .ok middle) (drains : Drains middle next log) :
      Drains state next (Drained.content before (pushReasoningSegment state.mode before) ::
        Drained.reserved state.delimiter [] :: log)

/-- The loop takes the pieces that it returns. -/
theorem drains_of_pushLoopSliced_eq (h : state.pushLoopSliced = .ok (next, log)) :
    Drains state next log := by
  induction state using pushLoop.induct generalizing log with
  | case1 state hscan =>
    rw [pushLoopSliced_eq, hscan] at h
    cases h
  | case2 state before rest hscan error hswitch =>
    rw [pushLoopSliced_eq, hscan] at h
    simp only [hswitch] at h
    cases h
  | case3 state before rest hscan middle hswitch ih =>
    rw [pushLoopSliced_eq, hscan] at h
    simp only [hswitch] at h
    obtain ⟨log, hrest, rfl⟩ := prepend_eq_ok h
    exact .found hscan hswitch (ih hrest)
  | case4 state emitted kept hscan =>
    rw [pushLoopSliced_eq, hscan] at h
    cases h
    exact .held hscan

/-- The loop returns the pieces that it takes. -/
theorem Drains.pushLoopSliced_eq (h : Drains state next log) :
    state.pushLoopSliced = .ok (next, log) := by
  induction h with
  | held scanned => rw [TaggedReasoningParserState.pushLoopSliced_eq, scanned]
  | found scanned switched _ ih =>
    rw [TaggedReasoningParserState.pushLoopSliced_eq, scanned]
    simp only [switched, ih, prepend_ok]
    rfl

/-- The pieces that are taken and what is kept are the pending text. -/
theorem Drains.pending_eq (h : Drains state next log) :
    state.pending = taken log ++ next.pending := by
  induction h with
  | @held state emitted kept scanned =>
    have hheld := (scan_eq_held_iff state.delimiter_ne_nil state.forbidden_ne_nil).mp scanned
    simpa using hheld.1
  | @found state middle next before rest log scanned switched _ ih =>
    have hfound := (scan_eq_found_iff state.delimiter_ne_nil state.forbidden_ne_nil).mp scanned
    rw [switch_pending switched] at ih
    rw [hfound.1, ih]
    simp

theorem Drains.definition_eq (h : Drains state next log) :
    next.definition = state.definition := by
  induction h with
  | held => rfl
  | found _ switched _ ih => rw [ih, switch_definition switched]

/-- What is kept would be kept again. -/
theorem Drains.settled (h : Drains state next log) :
    scan next.delimiter next.forbidden next.pending = .held [] next.pending := by
  induction h with
  | @held state emitted kept scanned =>
    exact scan_kept state.delimiter_ne_nil state.forbidden_ne_nil scanned
  | found _ _ _ ih => exact ih

/-- The delimiters of a mode are the two of the definition. -/
theorem delimiter_forbidden_cases (state : TaggedReasoningParserState) :
    (state.delimiter = state.definition.startDelimiter ∧
      state.forbidden = state.definition.endDelimiter) ∨
    (state.delimiter = state.definition.endDelimiter ∧
      state.forbidden = state.definition.startDelimiter) := by
  cases hmode : state.mode with
  | text => exact .inl ⟨by rw [delimiter, hmode], by rw [forbidden, hmode]⟩
  | reasoning => exact .inr ⟨by rw [delimiter, hmode], by rw [forbidden, hmode]⟩

end TaggedReasoningParserState

namespace TaggedReasoningParserDefinition

open TaggedReasoningParserState

/-- Neither delimiter can interrupt the other one. -/
def Uninterrupted (definition : TaggedReasoningParserDefinition) : Prop :=
  ¬ Interrupts definition.startDelimiter definition.endDelimiter ∧
  ¬ Interrupts definition.endDelimiter definition.startDelimiter

/-- Pushing all chunks succeeds, with these pieces taken. -/
def Pushes (definition : TaggedReasoningParserDefinition) (chunks : List Text)
    (state : TaggedReasoningParserState) (log : List (Drained ReasoningSegment)) : Prop :=
  pushAll pushSliced definition.state chunks = .ok (state, log)

/-- After every sequence of pushes that succeed the pending text is the end of the input, and it
is bounded. All slices are cut between characters. -/
structure StaysBounded (definition : TaggedReasoningParserDefinition) : Prop where
  cuts : ∀ chunks, pushAll pushSliced definition.state chunks ≠ .error .panic
  holds_back : ∀ state : TaggedReasoningParserState, state.definition = definition →
    HoldsBack state.delimiter state.forbidden state.pending
  conserves : ∀ chunks state log, definition.Pushes chunks state log →
    chunks.flatten = taken log ++ state.pending
  short : ∀ chunks state log, definition.Pushes chunks state log →
    Short definition.startDelimiter definition.endDelimiter state.pending

/-- Also, no delimiter of the input is torn, whatever arrives later. -/
structure BuffersSafely (definition : TaggedReasoningParserDefinition) : Prop
    extends definition.StaysBounded where
  untorn : ∀ chunks state log, definition.Pushes chunks state log → ∀ more,
    ¬ Torn [definition.startDelimiter, definition.endDelimiter] log (chunks.flatten ++ more)

variable {definition : TaggedReasoningParserDefinition} {state next : TaggedReasoningParserState}
  {chunks : List Text} {input delta : Text} {log history : List (Drained ReasoningSegment)}

/-- What a loop hands over is sealed by what follows it, in either mode. -/
theorem sealed_of_mode {front kept : Text}
    (h : Sealed state.delimiter state.forbidden front kept) :
    Sealed state.definition.startDelimiter state.definition.endDelimiter front kept := by
  rcases state.delimiter_forbidden_cases with ⟨hd, hf⟩ | ⟨hd, hf⟩
  · rwa [hd, hf] at h
  · rw [hd, hf] at h
    exact h.symm

/-- No delimiter begins in what a loop hands over. -/
theorem unbroken_of_drains (h : Drains state next log)
    (huninterrupted : state.definition.Uninterrupted) :
    Unbroken state.definition.startDelimiter state.definition.endDelimiter log next.pending := by
  induction h with
  | @held state emitted kept scanned =>
    have hheld := (scan_eq_held_iff state.delimiter_ne_nil state.forbidden_ne_nil).mp scanned
    exact ⟨sealed_of_mode hheld.sealed, trivial⟩
  | @found state middle next before rest log scanned switched drains ih =>
    have hfound := (scan_eq_found_iff state.delimiter_ne_nil state.forbidden_ne_nil).mp scanned
    have hinterrupts : ¬ Interrupts state.delimiter state.forbidden := by
      rcases state.delimiter_forbidden_cases with ⟨hd, hf⟩ | ⟨hd, hf⟩
      · rw [hd, hf]
        exact huninterrupted.1
      · rw [hd, hf]
        exact huninterrupted.2
    rw [switch_definition switched] at ih
    refine ⟨?_, ih huninterrupted⟩
    have hsealed := sealed_of_mode (hfound.sealed hinterrupts)
    rw [← switch_pending switched, drains.pending_eq] at hsealed
    simpa using hsealed

/-- What is known after any number of pushes. -/
structure Buffered (definition : TaggedReasoningParserDefinition)
    (state : TaggedReasoningParserState) (input : Text)
    (log : List (Drained ReasoningSegment)) : Prop where
  definition_eq : state.definition = definition
  conserves : input = taken log ++ state.pending
  settled : scan state.delimiter state.forbidden state.pending = .held [] state.pending
  unbroken : definition.Uninterrupted →
    Unbroken definition.startDelimiter definition.endDelimiter log state.pending

/-- Nothing is pending at first. -/
theorem buffered_state (definition : TaggedReasoningParserDefinition) :
    definition.Buffered definition.state [] [] :=
  ⟨rfl, rfl, scan_nil definition.startDelimiter_ne_nil definition.endDelimiter_ne_nil,
    fun _ => trivial⟩

/-- One more push. -/
theorem Buffered.step (h : definition.Buffered state input history)
    (hpush : state.pushSliced delta = .ok (next, log)) :
    definition.Buffered next (input ++ delta) (history ++ log) := by
  have hdrains := drains_of_pushLoopSliced_eq hpush
  have hpending : state.pending ++ delta = taken log ++ next.pending := hdrains.pending_eq
  refine ⟨hdrains.definition_eq.trans h.definition_eq, ?_, hdrains.settled, ?_⟩
  · rw [h.conserves, List.append_assoc, hpending, taken_append, List.append_assoc]
  · intro huninterrupted
    have hbefore := (h.unbroken huninterrupted).append_kept delta
    rw [hpending] at hbefore
    have hafter := unbroken_of_drains hdrains (h.definition_eq ▸ huninterrupted)
    rw [extend, h.definition_eq] at hafter
    exact hbefore.append hafter

/-- Any number of pushes. -/
theorem Pushes.buffered (h : definition.Pushes chunks state log) :
    definition.Buffered state chunks.flatten log :=
  pushAll_invariant (fun state pushed history => definition.Buffered state pushed.flatten history)
    (fun hbuffered hpush => by
      rw [List.flatten_append, List.flatten_singleton]
      exact hbuffered.step hpush)
    [] (buffered_state definition) h

/-- What is pending is short. -/
theorem Buffered.short (h : definition.Buffered state input log) :
    Short definition.startDelimiter definition.endDelimiter state.pending := by
  have hshort := short_of_scan state.delimiter_ne_nil state.forbidden_ne_nil h.settled
  rcases state.delimiter_forbidden_cases with ⟨hd, hf⟩ | ⟨hd, hf⟩
  · rwa [hd, hf, h.definition_eq] at hshort
  · rw [hd, hf, h.definition_eq] at hshort
    exact hshort.symm

/-- The pending text is always bounded. -/
theorem staysBounded (definition : TaggedReasoningParserDefinition) :
    definition.StaysBounded where
  cuts chunks := pushAll_ne_error pushSliced_ne_panic _ chunks
  holds_back state _ := holdsBack state.delimiter_ne_nil state.forbidden_ne_nil state.pending
  conserves _ _ _ hpushes := hpushes.buffered.conserves
  short _ _ _ hpushes := hpushes.buffered.short

/-- A push of what the loop accepts. -/
theorem pushes_singleton {chunk : Text} (h : Drains (definition.state.extend chunk) state log) :
    definition.Pushes [chunk] state log := by
  rw [Pushes, pushAll_singleton]
  exact h.pushLoopSliced_eq

/-- If the start delimiter can interrupt the end delimiter, an end delimiter is torn that is cut
behind it. -/
theorem torn_of_start_interrupts
    (h : Interrupts definition.startDelimiter definition.endDelimiter) :
    ∃ chunk state log more, definition.Pushes [chunk] state log ∧
      Torn [definition.startDelimiter, definition.endDelimiter] log (chunk ++ more) := by
  obtain ⟨front, back, heq, hfront, hback, hfirst⟩ := h.exists_first
  have hstart := definition.startDelimiter_ne_nil
  have hend := definition.endDelimiter_ne_nil
  have hscan := scan_interrupted hstart hend heq hback hfirst
  set chunk := front ++ definition.startDelimiter with hchunk
  have hheld : Drains ⟨definition, .reasoning, [], true⟩ ⟨definition, .reasoning, [], true⟩
      [Drained.content [] _] := .held (scan_nil hend hstart)
  have hdrains : Drains (definition.state.extend chunk) ⟨definition, .reasoning, [], true⟩
      (Drained.content front _ :: Drained.reserved definition.startDelimiter [] ::
        [Drained.content [] _]) := .found hscan rfl hheld
  refine ⟨chunk, _, _, back, pushes_singleton hdrains, ?_⟩
  have hinput : chunk ++ back = taken ([] : List (Drained ReasoningSegment)) ++
      (front ++ (definition.startDelimiter ++ back) ++ []) := by
    simp [hchunk]
  rw [hinput]
  exact torn_of_append (by simp [heq]) hfront (by simp [hstart]) [] _ _ []

/-- If the end delimiter can interrupt the start delimiter, a start delimiter inside the section
is torn that is cut behind it. -/
theorem torn_of_end_interrupts
    (h : Interrupts definition.endDelimiter definition.startDelimiter) :
    ∃ chunk state log more, definition.Pushes [chunk] state log ∧
      Torn [definition.startDelimiter, definition.endDelimiter] log (chunk ++ more) := by
  obtain ⟨front, back, heq, hfront, hback, hfirst⟩ := h.exists_first
  have hstart := definition.startDelimiter_ne_nil
  have hend := definition.endDelimiter_ne_nil
  have hscan := scan_interrupted hend hstart heq hback hfirst
  set rest := front ++ definition.endDelimiter with hrest
  set chunk := definition.startDelimiter ++ rest with hchunk
  have hheld : Drains ⟨definition, .text, [], true⟩ ⟨definition, .text, [], true⟩
      [Drained.content [] _] := .held (scan_nil hstart hend)
  have hinside : Drains ⟨definition, .reasoning, rest, true⟩ ⟨definition, .text, [], true⟩
      (Drained.content front _ :: Drained.reserved definition.endDelimiter [] ::
        [Drained.content [] _]) := .found hscan rfl hheld
  have hdrains : Drains (definition.state.extend chunk) ⟨definition, .text, [], true⟩
      (Drained.content [] _ :: Drained.reserved definition.startDelimiter [] ::
        Drained.content front _ :: Drained.reserved definition.endDelimiter [] ::
        [Drained.content [] _]) :=
    .found (scan_delimiter_append hstart hend rest) rfl hinside
  refine ⟨chunk, _, _, back, pushes_singleton hdrains, ?_⟩
  have hinput : chunk ++ back = taken [Drained.content [] (pushReasoningSegment .text []),
      Drained.reserved definition.startDelimiter []] ++
        (front ++ (definition.endDelimiter ++ back) ++ []) := by
    simp [hchunk, hrest]
  rw [hinput]
  exact torn_of_append (by simp [heq]) hfront (by simp [hend]) [_, _] _ _ []

/-- The reasoning parser buffers safely exactly if neither delimiter can interrupt the other. -/
theorem buffersSafely_iff_uninterrupted (definition : TaggedReasoningParserDefinition) :
    definition.BuffersSafely ↔ definition.Uninterrupted := by
  constructor
  · intro h
    refine ⟨fun hinterrupts => ?_, fun hinterrupts => ?_⟩
    · obtain ⟨chunk, state, log, more, hpushes, htorn⟩ := torn_of_start_interrupts hinterrupts
      exact h.untorn _ _ _ hpushes more (by simpa using htorn)
    · obtain ⟨chunk, state, log, more, hpushes, htorn⟩ := torn_of_end_interrupts hinterrupts
      exact h.untorn _ _ _ hpushes more (by simpa using htorn)
  · intro huninterrupted
    refine ⟨definition.staysBounded, fun chunks state log hpushes more => ?_⟩
    rw [hpushes.buffered.conserves]
    exact (hpushes.buffered.unbroken huninterrupted).not_torn definition.startDelimiter_ne_nil
      definition.endDelimiter_ne_nil more

end TaggedReasoningParserDefinition

end Locus.Parser
