import Locus.Parser.Drained
import Locus.Parser.Tool

/-!
# The slices of the tool parser

The loop of the tool parser with positions in bytes, and the search for the end of an
envelope. They cut between characters only. What is kept outside an envelope is shorter than
the longer delimiter, what is kept inside is within the limit, and no delimiter is torn by the
text between the envelopes, unless the start delimiter can interrupt the end delimiter.
-/

namespace Locus.Parser

open Locus.Lib

/-- The loop of `complete_call` with positions in bytes, unless a slice is not cut between
characters. Each turn searches behind the end delimiter that was tried. -/
def completeCallSlicedFrom (serde : Serde) (definition : TaggedJsonToolParserDefinition)
    (pending : Text) (searchFrom : ℕ) : Option (Option (ℕ × String × Text)) :=
  match _hcut : splitAt? pending searchFrom with
  | none => none
  | some (_, rest) =>
    match findBytes definition.endDelimiter rest with
    | none => some none
    | some relative =>
      let position := searchFrom + relative
      match splitAt? pending position with
      | none => none
      | some (envelope, _) =>
        match parseToolEnvelope serde envelope with
        | .ok (name, arguments) => some (some (position, name, arguments))
        | .error _ => completeCallSlicedFrom serde definition pending
            (position + byteLen definition.endDelimiter)
termination_by byteLen pending + 1 - searchFrom
decreasing_by
  have hlen := byteLen_of_splitAt? _hcut
  have hpos := byteLen_pos definition.endDelimiter_ne_nil
  omega

/-- `TaggedJsonToolParserState::complete_call` with positions in bytes -/
def completeCallSliced (serde : Serde) (definition : TaggedJsonToolParserDefinition)
    (pending : Text) : Option (Option (ℕ × String × Text)) :=
  completeCallSlicedFrom serde definition pending 0

section CompleteCall

variable {serde : Serde} {definition : TaggedJsonToolParserDefinition} {pending : Text}
  {searchFrom : ℕ}

/-- The position of a call in bytes. -/
def callInBytes (pending : Text) (call : ℕ × String × Text) : ℕ × String × Text :=
  (bytesBefore pending call.1, call.2)

/-- One turn of the loop. -/
theorem completeCallSlicedFrom_eq :
    completeCallSlicedFrom serde definition pending (bytesBefore pending searchFrom) =
      match find definition.endDelimiter (pending.drop searchFrom) with
      | none => some none
      | some relative =>
        match parseToolEnvelope serde (pending.take (searchFrom + relative)) with
        | .ok (name, arguments) =>
          some (some (bytesBefore pending (searchFrom + relative), name, arguments))
        | .error _ => completeCallSlicedFrom serde definition pending
            (bytesBefore pending (searchFrom + relative + definition.endDelimiter.length)) := by
  have hcut := splitAt?_bytesBefore pending searchFrom
  rw [completeCallSlicedFrom]
  split
  next hnone =>
    rw [hcut] at hnone
    cases hnone
  next front rest hsome =>
    rw [hcut] at hsome
    cases hsome
    rw [findBytes_eq definition.endDelimiter_ne_nil]
    cases hfind : find definition.endDelimiter (pending.drop searchFrom) with
    | none => rfl
    | some relative =>
      have hocc := ((find_eq_some_iff definition.endDelimiter_ne_nil).mp hfind).1
      rw [OccursAt, List.drop_drop] at hocc
      have hend : bytesBefore pending (searchFrom + relative) + byteLen definition.endDelimiter =
          bytesBefore pending (searchFrom + relative + definition.endDelimiter.length) := by
        rw [bytesBefore_add _ (searchFrom + relative), bytesBefore_length hocc]
      simp only [Option.map_some, ← bytesBefore_add, splitAt?_bytesBefore, hend]

/-- The search for a call cuts between characters only. -/
theorem completeCallSlicedFrom_bytesBefore (pending : Text) (searchFrom : ℕ) :
    completeCallSlicedFrom serde definition pending (bytesBefore pending searchFrom) =
      some ((completeCallFrom serde definition pending searchFrom).map (callInBytes pending)) := by
  induction searchFrom using completeCallFrom.induct serde definition pending with
  | case1 searchFrom hfind =>
    rw [completeCallSlicedFrom_eq, completeCallFrom_none hfind, hfind]
    rfl
  | case2 searchFrom relative hfind at_ name arguments hparse =>
    change parseToolEnvelope serde (pending.take (searchFrom + relative)) = _ at hparse
    rw [completeCallSlicedFrom_eq, completeCallFrom_some hfind, hfind]
    simp only [hparse]
    rfl
  | case3 searchFrom relative hfind at_ error hparse ih =>
    change parseToolEnvelope serde (pending.take (searchFrom + relative)) = _ at hparse
    rw [completeCallSlicedFrom_eq, completeCallFrom_some hfind, hfind]
    simp only [hparse]
    exact ih

/-- A call is found at the same place. -/
theorem completeCallSliced_eq (pending : Text) :
    completeCallSliced serde definition pending =
      some ((completeCall serde definition pending).map (callInBytes pending)) :=
  completeCallSlicedFrom_bytesBefore pending 0

end CompleteCall

namespace TaggedJsonToolParserState

/-- The loop of `push` with positions in bytes. Each turn takes a piece from the front of the
pending text, so there are finitely many. -/
def pushLoopSliced (serde : Serde) (state : TaggedJsonToolParserState) :
    Except Halt (TaggedJsonToolParserState × List (Drained ToolSegment)) :=
  match state.mode with
  | .text =>
    match _hscan : scanSliced state.definition.startDelimiter state.definition.endDelimiter
        state.pending with
    | none => .error .panic
    | some .unexpected =>
      .error (.error (.processing (.unexpectedToolDelimiter state.definition.endDelimiter)))
    | some (.found before rest) =>
      prepend [Drained.content before (textSegment before),
        Drained.reserved state.definition.startDelimiter []]
        (pushLoopSliced serde { state with mode := .tool, pending := rest })
    | some (.held emitted kept) =>
      .ok ({ state with pending := kept }, [Drained.content emitted (textSegment emitted)])
  | .tool =>
    match completeCallSliced serde state.definition state.pending with
    | none => .error .panic
    | some none =>
      if byteLen state.pending > state.definition.maxBufferedBytes then
        .error (.error (.processing (.toolCallTooLong state.definition.maxBufferedBytes)))
      else .ok (state, [])
    | some (some (endPosition, name, arguments)) =>
      if endPosition > state.definition.maxBufferedBytes then
        .error (.error (.processing (.toolCallTooLong state.definition.maxBufferedBytes)))
      else
        match _hcut : splitAt? state.pending
            (endPosition + byteLen state.definition.endDelimiter) with
        | none => .error .panic
        | some (consumed, rest) =>
          prepend [Drained.reserved consumed [.call name arguments]]
            (pushLoopSliced serde { state with mode := .text, pending := rest })
termination_by byteLen state.pending
decreasing_by
  · rw [scanSliced_eq state.definition.startDelimiter_ne_nil
      state.definition.endDelimiter_ne_nil, Option.some_inj] at _hscan
    have hfound := (scan_eq_found_iff state.definition.startDelimiter_ne_nil
      state.definition.endDelimiter_ne_nil).mp _hscan
    have hlen := congrArg byteLen hfound.1
    have hpos := byteLen_pos state.definition.startDelimiter_ne_nil
    simp only [byteLen_append] at hlen ⊢
    omega
  · have hlen := byteLen_of_splitAt? _hcut
    have hpos := byteLen_pos state.definition.endDelimiter_ne_nil
    omega

/-- `TaggedJsonToolParserState::push` with positions in bytes -/
def pushSliced (serde : Serde) (state : TaggedJsonToolParserState) (delta : Text) :
    Except Halt (TaggedJsonToolParserState × List (Drained ToolSegment)) :=
  (state.extend delta).pushLoopSliced serde

variable {serde : Serde} {definition : TaggedJsonToolParserDefinition}

/-- The loop in text mode. -/
theorem pushLoopSliced_text (pending : Text) :
    pushLoopSliced serde ⟨definition, .text, pending⟩ =
      match scan definition.startDelimiter definition.endDelimiter pending with
      | .unexpected =>
        .error (.error (.processing (.unexpectedToolDelimiter definition.endDelimiter)))
      | .found before rest =>
        prepend [Drained.content before (textSegment before),
          Drained.reserved definition.startDelimiter []]
          (pushLoopSliced serde ⟨definition, .tool, rest⟩)
      | .held emitted kept =>
        .ok (⟨definition, .text, kept⟩, [Drained.content emitted (textSegment emitted)]) := by
  have hsliced := scanSliced_eq definition.startDelimiter_ne_nil definition.endDelimiter_ne_nil
    pending
  rw [pushLoopSliced]
  simp only
  split
  next hscan =>
    rw [hscan] at hsliced
    cases hsliced
  next hscan =>
    rw [hscan, Option.some_inj] at hsliced
    rw [← hsliced]
  next before rest hscan =>
    rw [hscan, Option.some_inj] at hsliced
    rw [← hsliced]
  next emitted kept hscan =>
    rw [hscan, Option.some_inj] at hsliced
    rw [← hsliced]

/-- The loop in tool mode. -/
theorem pushLoopSliced_tool (pending : Text) :
    pushLoopSliced serde ⟨definition, .tool, pending⟩ =
      match completeCall serde definition pending with
      | none =>
        if byteLen pending > definition.maxBufferedBytes then
          .error (.error (.processing (.toolCallTooLong definition.maxBufferedBytes)))
        else .ok (⟨definition, .tool, pending⟩, [])
      | some (position, name, arguments) =>
        if byteLen (pending.take position) > definition.maxBufferedBytes then
          .error (.error (.processing (.toolCallTooLong definition.maxBufferedBytes)))
        else
          prepend [Drained.reserved (pending.take (position + definition.endDelimiter.length))
            [.call name arguments]] (pushLoopSliced serde
            ⟨definition, .text, pending.drop (position + definition.endDelimiter.length)⟩) := by
  rw [pushLoopSliced]
  simp only [completeCallSliced_eq]
  cases hcall : completeCall serde definition pending with
  | none => rfl
  | some call =>
    obtain ⟨position, name, arguments⟩ := call
    have hocc := (completeCallFrom_occursAt hcall).2
    have hcut := splitAt?_bytesBefore pending (position + definition.endDelimiter.length)
    rw [bytesBefore_add, bytesBefore_length hocc] at hcut
    simp only [Option.map_some, callInBytes]
    split
    next hlong => rw [bytesBefore] at hlong; rw [if_pos hlong]
    next hfits =>
      rw [bytesBefore] at hfits
      rw [if_neg hfits]
      split
      next hnone =>
        rw [hcut] at hnone
        cases hnone
      next hsome =>
        rw [hcut] at hsome
        cases hsome
        rfl

/-- Positions in bytes make no difference to a push. -/
theorem returned_pushLoopSliced (serde : Serde) (state : TaggedJsonToolParserState) :
    returned (state.pushLoopSliced serde) = (state.pushLoop serde).mapError Halt.error := by
  obtain ⟨definition, mode, pending⟩ := state
  -- Each turn of the loop leaves a shorter text.
  induction hlen : pending.length using Nat.strong_induction_on generalizing mode pending with
  | _ n ih =>
    cases mode with
    | text =>
      rw [pushLoopSliced_text, pushLoop_text]
      cases hscan : scan definition.startDelimiter definition.endDelimiter pending with
      | unexpected => rfl
      | found before rest =>
        have hfound := (scan_eq_found_iff definition.startDelimiter_ne_nil
          definition.endDelimiter_ne_nil).mp hscan
        have hshort := congrArg List.length hfound.1
        have hpos := List.length_pos_iff.mpr definition.startDelimiter_ne_nil
        simp only [List.length_append] at hshort
        have hsegments : segments [Drained.content before (textSegment before),
            Drained.reserved definition.startDelimiter []] = textSegment before := by
          simp [segments, Drained.output]
        simp only
        rw [returned_prepend, ih rest.length (by omega) .tool rest rfl, hsegments,
          ← mapError_prepend]
      | held emitted kept => simp [returned, Except.map, Except.mapError, segments, Drained.output]
    | tool =>
      rw [pushLoopSliced_tool, pushLoop_tool]
      cases hcall : completeCall serde definition pending with
      | none =>
        simp only
        split <;> rfl
      | some call =>
        obtain ⟨position, name, arguments⟩ := call
        have hle := add_length_le_of_completeCall hcall
        have hpos := List.length_pos_iff.mpr definition.endDelimiter_ne_nil
        simp only
        split
        next => rfl
        next =>
          rw [returned_prepend, ih _ (by rw [List.length_drop]; omega) .text _ rfl,
            mapError_prepend]
          rfl

/-- No slice is cut inside a character. -/
theorem pushSliced_ne_panic (serde : Serde) (state : TaggedJsonToolParserState) (delta : Text) :
    state.pushSliced serde delta ≠ .error .panic :=
  ne_panic_of_returned (returned_pushLoopSliced serde (state.extend delta))

end TaggedJsonToolParserState

open TaggedJsonToolParserState

/-- A text that the loop accepts, and the pieces that it takes from it. -/
inductive ToolDrains (serde : Serde) (definition : TaggedJsonToolParserDefinition) :
    ToolMode → Text → TaggedJsonToolParserState → List (Drained ToolSegment) → Prop
  | stop {pending emitted kept : Text}
      (scanned : scan definition.startDelimiter definition.endDelimiter pending =
        .held emitted kept) :
      ToolDrains serde definition .text pending ⟨definition, .text, kept⟩
        [Drained.content emitted (textSegment emitted)]
  | start {pending before rest : Text} {next : TaggedJsonToolParserState}
      {log : List (Drained ToolSegment)}
      (scanned : scan definition.startDelimiter definition.endDelimiter pending =
        .found before rest)
      (drains : ToolDrains serde definition .tool rest next log) :
      ToolDrains serde definition .text pending next
        (Drained.content before (textSegment before) ::
          Drained.reserved definition.startDelimiter [] :: log)
  | wait {pending : Text} (incomplete : completeCall serde definition pending = none)
      (fits : byteLen pending ≤ definition.maxBufferedBytes) :
      ToolDrains serde definition .tool pending ⟨definition, .tool, pending⟩ []
  | call {pending : Text} {position : ℕ} {name : String} {arguments : Text}
      {next : TaggedJsonToolParserState} {log : List (Drained ToolSegment)}
      (complete : completeCall serde definition pending = some (position, name, arguments))
      (drains : ToolDrains serde definition .text
        (pending.drop (position + definition.endDelimiter.length)) next log) :
      ToolDrains serde definition .tool pending next
        (Drained.reserved (pending.take (position + definition.endDelimiter.length))
          [.call name arguments] :: log)

section Drains

variable {serde : Serde} {definition : TaggedJsonToolParserDefinition} {mode : ToolMode}
  {pending : Text} {next : TaggedJsonToolParserState} {log : List (Drained ToolSegment)}

/-- The loop takes the pieces that it returns. -/
theorem toolDrains_of_pushLoopSliced_eq
    (h : pushLoopSliced serde ⟨definition, mode, pending⟩ = .ok (next, log)) :
    ToolDrains serde definition mode pending next log := by
  -- Each turn of the loop leaves a shorter text.
  induction hlen : pending.length using Nat.strong_induction_on
    generalizing mode pending log with
  | _ n ih =>
    cases mode with
    | text =>
      rw [pushLoopSliced_text] at h
      split at h
      next => cases h
      next before rest hscan =>
        obtain ⟨log, hrest, rfl⟩ := prepend_eq_ok h
        have hfound := (scan_eq_found_iff definition.startDelimiter_ne_nil
          definition.endDelimiter_ne_nil).mp hscan
        have hshort := congrArg List.length hfound.1
        have hpos := List.length_pos_iff.mpr definition.startDelimiter_ne_nil
        simp only [List.length_append] at hshort
        exact .start hscan (ih rest.length (by omega) hrest rfl)
      next emitted kept hscan =>
        cases h
        exact .stop hscan
    | tool =>
      rw [pushLoopSliced_tool] at h
      split at h
      next hcall =>
        split at h
        next => cases h
        next hfits =>
          cases h
          exact .wait hcall (Nat.not_lt.mp hfits)
      next position name arguments hcall =>
        split at h
        next => cases h
        next =>
          obtain ⟨log, hrest, rfl⟩ := prepend_eq_ok h
          have hle := add_length_le_of_completeCall hcall
          have hpos := List.length_pos_iff.mpr definition.endDelimiter_ne_nil
          exact .call hcall (ih _ (by rw [List.length_drop]; omega) hrest rfl)

theorem ToolDrains.definition_eq (h : ToolDrains serde definition mode pending next log) :
    next.definition = definition := by
  induction h with
  | stop => rfl
  | start _ _ ih => exact ih
  | wait => rfl
  | call _ _ ih => exact ih

/-- The pieces that are taken and what is kept are the pending text. -/
theorem ToolDrains.pending_eq (h : ToolDrains serde definition mode pending next log) :
    pending = taken log ++ next.pending := by
  induction h with
  | stop scanned =>
    have hheld := (scan_eq_held_iff definition.startDelimiter_ne_nil
      definition.endDelimiter_ne_nil).mp scanned
    simpa using hheld.1
  | start scanned _ ih =>
    have hfound := (scan_eq_found_iff definition.startDelimiter_ne_nil
      definition.endDelimiter_ne_nil).mp scanned
    rw [hfound.1, ih]
    simp
  | wait => rfl
  | call _ _ ih =>
    rw [taken_cons, Drained.text_reserved, List.append_assoc, ← ih, List.take_append_drop]

/-- What is kept would be kept again, or is within the limit. -/
def TaggedJsonToolParserState.Bounded (state : TaggedJsonToolParserState) : Prop :=
  match state.mode with
  | .text => scan state.definition.startDelimiter state.definition.endDelimiter state.pending =
      .held [] state.pending
  | .tool => byteLen state.pending ≤ state.definition.maxBufferedBytes

theorem ToolDrains.bounded (h : ToolDrains serde definition mode pending next log) :
    next.Bounded := by
  induction h with
  | stop scanned =>
    exact scan_kept definition.startDelimiter_ne_nil definition.endDelimiter_ne_nil scanned
  | start _ _ ih => exact ih
  | wait _ fits => exact fits
  | call _ _ ih => exact ih

/-- No delimiter begins in the text that is handed over. -/
theorem ToolDrains.unbroken (h : ToolDrains serde definition mode pending next log)
    (hinterrupts : ¬ Interrupts definition.startDelimiter definition.endDelimiter) :
    Unbroken definition.startDelimiter definition.endDelimiter log next.pending := by
  induction h with
  | stop scanned =>
    have hheld := (scan_eq_held_iff definition.startDelimiter_ne_nil
      definition.endDelimiter_ne_nil).mp scanned
    exact ⟨hheld.sealed, trivial⟩
  | start scanned drains ih =>
    have hfound := (scan_eq_found_iff definition.startDelimiter_ne_nil
      definition.endDelimiter_ne_nil).mp scanned
    refine ⟨?_, ih⟩
    have hsealed := hfound.sealed hinterrupts
    rw [drains.pending_eq] at hsealed
    simpa using hsealed
  | wait => trivial
  | call _ _ ih => exact ih

end Drains

namespace TaggedJsonToolParserDefinition

/-- Pushing all chunks succeeds, with these pieces taken. -/
def Pushes (definition : TaggedJsonToolParserDefinition) (serde : Serde) (chunks : List Text)
    (state : TaggedJsonToolParserState) (log : List (Drained ToolSegment)) : Prop :=
  pushAll (pushSliced serde) definition.state chunks = .ok (state, log)

/-- After every sequence of pushes that succeed the pending text is the end of the input, and it
is bounded in either mode. All slices are cut between characters. -/
structure StaysBounded (definition : TaggedJsonToolParserDefinition) (serde : Serde) : Prop where
  cuts : ∀ chunks, pushAll (pushSliced serde) definition.state chunks ≠ .error .panic
  holds_back : ∀ buffer, HoldsBack definition.startDelimiter definition.endDelimiter buffer
  conserves : ∀ chunks state log, definition.Pushes serde chunks state log →
    chunks.flatten = taken log ++ state.pending
  short : ∀ chunks state log, definition.Pushes serde chunks state log → state.mode = .text →
    Short definition.startDelimiter definition.endDelimiter state.pending
  limited : ∀ chunks state log, definition.Pushes serde chunks state log → state.mode = .tool →
    byteLen state.pending ≤ definition.maxBufferedBytes

/-- Also, no delimiter of the input is torn, whatever arrives later. -/
structure BuffersSafely (definition : TaggedJsonToolParserDefinition) (serde : Serde) : Prop
    extends definition.StaysBounded serde where
  untorn : ∀ chunks state log, definition.Pushes serde chunks state log → ∀ more,
    ¬ Torn [definition.startDelimiter, definition.endDelimiter] log (chunks.flatten ++ more)

variable {serde : Serde} {definition : TaggedJsonToolParserDefinition}
  {state next : TaggedJsonToolParserState} {chunks : List Text} {input delta : Text}
  {log history : List (Drained ToolSegment)}

/-- What is known after any number of pushes. -/
structure Buffered (definition : TaggedJsonToolParserDefinition)
    (state : TaggedJsonToolParserState) (input : Text) (log : List (Drained ToolSegment)) :
    Prop where
  definition_eq : state.definition = definition
  conserves : input = taken log ++ state.pending
  bounded : state.Bounded
  unbroken : ¬ Interrupts definition.startDelimiter definition.endDelimiter →
    Unbroken definition.startDelimiter definition.endDelimiter log state.pending

/-- Nothing is pending at first. -/
theorem buffered_state (definition : TaggedJsonToolParserDefinition) :
    definition.Buffered definition.state [] [] :=
  ⟨rfl, rfl, scan_nil definition.startDelimiter_ne_nil definition.endDelimiter_ne_nil,
    fun _ => trivial⟩

/-- One more push. -/
theorem Buffered.step (h : definition.Buffered state input history)
    (hpush : state.pushSliced serde delta = .ok (next, log)) :
    definition.Buffered next (input ++ delta) (history ++ log) := by
  obtain ⟨definition', mode, pending⟩ := state
  obtain ⟨rfl, hconserves, -, hunbroken⟩ := h
  have hdrains := toolDrains_of_pushLoopSliced_eq hpush
  have hpending : pending ++ delta = taken log ++ next.pending := hdrains.pending_eq
  refine ⟨hdrains.definition_eq, ?_, hdrains.bounded, ?_⟩
  · rw [hconserves, List.append_assoc, hpending, taken_append, List.append_assoc]
  · intro hinterrupts
    have hbefore := (hunbroken hinterrupts).append_kept delta
    rw [hpending] at hbefore
    exact hbefore.append (hdrains.unbroken hinterrupts)

/-- Any number of pushes. -/
theorem Pushes.buffered (h : definition.Pushes serde chunks state log) :
    definition.Buffered state chunks.flatten log :=
  pushAll_invariant (fun state pushed history => definition.Buffered state pushed.flatten history)
    (fun hbuffered hpush => by
      rw [List.flatten_append, List.flatten_singleton]
      exact hbuffered.step hpush)
    [] (buffered_state definition) h

/-- What is pending outside an envelope is short. -/
theorem Buffered.short (h : definition.Buffered state input log) (hmode : state.mode = .text) :
    Short definition.startDelimiter definition.endDelimiter state.pending := by
  obtain ⟨rfl, -, hbounded, -⟩ := h
  rw [Bounded, hmode] at hbounded
  exact short_of_scan state.definition.startDelimiter_ne_nil
    state.definition.endDelimiter_ne_nil hbounded

/-- What is pending inside an envelope is within the limit. -/
theorem Buffered.limited (h : definition.Buffered state input log) (hmode : state.mode = .tool) :
    byteLen state.pending ≤ definition.maxBufferedBytes := by
  obtain ⟨rfl, -, hbounded, -⟩ := h
  rwa [Bounded, hmode] at hbounded

/-- The pending text is always bounded. -/
theorem staysBounded (definition : TaggedJsonToolParserDefinition) (serde : Serde) :
    definition.StaysBounded serde where
  cuts chunks := pushAll_ne_error (pushSliced_ne_panic serde) _ chunks
  holds_back buffer :=
    holdsBack definition.startDelimiter_ne_nil definition.endDelimiter_ne_nil buffer
  conserves _ _ _ hpushes := hpushes.buffered.conserves
  short _ _ _ hpushes := hpushes.buffered.short
  limited _ _ _ hpushes := hpushes.buffered.limited

/-- Nothing is complete in an empty buffer. -/
theorem completeCall_nil : completeCall serde definition [] = none := by
  refine completeCallFrom_none ((find_eq_none_iff definition.endDelimiter_ne_nil).mpr ?_)
  intro i hocc
  have hle := hocc.add_length_le definition.endDelimiter_ne_nil
  have hpos := List.length_pos_iff.mpr definition.endDelimiter_ne_nil
  rw [List.drop_nil, List.length_nil] at hle
  omega

/-- If the start delimiter can interrupt the end delimiter, an end delimiter is torn that is cut
behind it. -/
theorem torn_of_interrupts (serde : Serde)
    (h : Interrupts definition.startDelimiter definition.endDelimiter) :
    ∃ chunk state log more, definition.Pushes serde [chunk] state log ∧
      Torn [definition.startDelimiter, definition.endDelimiter] log (chunk ++ more) := by
  obtain ⟨front, back, heq, hfront, hback, hfirst⟩ := h.exists_first
  have hstart := definition.startDelimiter_ne_nil
  have hscan := scan_interrupted hstart definition.endDelimiter_ne_nil heq hback hfirst
  set chunk := front ++ definition.startDelimiter with hchunk
  have htool : pushLoopSliced serde ⟨definition, .tool, []⟩ = .ok (⟨definition, .tool, []⟩, []) := by
    rw [pushLoopSliced_tool, completeCall_nil]
    exact if_neg (Nat.not_lt.mpr (Nat.zero_le _))
  have hpushes : definition.Pushes serde [chunk] ⟨definition, .tool, []⟩
      [Drained.content front (textSegment front),
        Drained.reserved definition.startDelimiter []] := by
    have hpush : definition.state.pushSliced serde chunk =
        pushLoopSliced serde ⟨definition, .text, chunk⟩ := rfl
    rw [Pushes, pushAll_singleton, hpush, pushLoopSliced_text, hscan]
    simp only [htool, prepend_ok, List.append_nil]
  refine ⟨chunk, _, _, back, hpushes, ?_⟩
  have hinput : chunk ++ back = taken ([] : List (Drained ToolSegment)) ++
      (front ++ (definition.startDelimiter ++ back) ++ []) := by
    simp [hchunk]
  rw [hinput]
  exact torn_of_append (by simp [heq]) hfront (by simp [hstart]) [] _ _ []

/-- The tool parser buffers safely exactly if the start delimiter cannot interrupt the end
delimiter. -/
theorem buffersSafely_iff_not_interrupts (definition : TaggedJsonToolParserDefinition)
    (serde : Serde) :
    definition.BuffersSafely serde ↔
      ¬ Interrupts definition.startDelimiter definition.endDelimiter := by
  constructor
  · intro h hinterrupts
    obtain ⟨chunk, state, log, more, hpushes, htorn⟩ := torn_of_interrupts serde hinterrupts
    exact h.untorn _ _ _ hpushes more (by simpa using htorn)
  · intro hinterrupts
    refine ⟨definition.staysBounded serde, fun chunks state log hpushes more => ?_⟩
    rw [hpushes.buffered.conserves]
    exact (hpushes.buffered.unbroken hinterrupts).not_torn definition.startDelimiter_ne_nil
      definition.endDelimiter_ne_nil more

end TaggedJsonToolParserDefinition

end Locus.Parser
