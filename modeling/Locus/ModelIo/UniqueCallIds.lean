import Locus.ModelIo.CallIds

/-!
# Unique call ids

With a tool parser selected all calls are parsed from text, and there cannot be more calls
than characters. Without one all calls are the engine's own, under the ids it gives them.
-/

namespace Locus.ModelIo

open Locus.Core Locus.Lib Locus.Parser BasicOutputPipeline

variable {serde : Serde} {pipeline middle next : BasicOutputPipeline}
  {output output' : List ModelEvent} {requestId : RequestId} {text : Text}

/-- The number of characters that the parsers hold back. -/
def heldLength (pipeline : BasicOutputPipeline) : ℕ :=
  pipeline.reasoningParser.elim 0 (fun parser => parser.pending.length) +
    pipeline.toolParser.elim 0 fun parser => parser.pending.length

/-- A step that starts no more calls than it was given characters, and none at all without
a tool parser. -/
structure Within (pipeline next : BasicOutputPipeline) (output : List ModelEvent) (length : ℕ) :
    Prop where
  decoder : next.decoder = pipeline.decoder
  toolParser : next.toolParser.isSome = pipeline.toolParser.isSome
  silent : pipeline.toolParser = none → startedCallIds output = []
  room : (startedCallIds output).length + heldLength next ≤ heldLength pipeline + length

/-- A step that reports no call is within any length. -/
theorem Reports.within (h : Reports pipeline next output []) (length : ℕ) :
    Within pipeline next output length where
  decoder := h.decoder
  toolParser := by rw [h.toolParser]
  silent _ := h.started
  room := by
    rw [h.started, heldLength, heldLength, h.reasoningParser, h.toolParser, List.length_nil]
    omega

/-- Lengths add up over steps. -/
theorem Within.trans {length length' : ℕ} (h : Within pipeline middle output length)
    (h' : Within middle next output' length') :
    Within pipeline next (output ++ output') (length + length') where
  decoder := h'.decoder.trans h.decoder
  toolParser := h'.toolParser.trans h.toolParser
  silent hnone := by
    have hmiddle : middle.toolParser = none :=
      Option.not_isSome_iff_eq_none.mp (by simp [h.toolParser, hnone])
    rw [startedCallIds_append, h.silent hnone, h'.silent hmiddle, List.nil_append]
  room := by
    have hroom := h.room
    have hroom' := h'.room
    rw [startedCallIds_append, List.length_append]
    omega

/-- The segments of the tool parser report their calls. -/
theorem reports_segments {segments : List ToolSegment}
    (h : pushAll (processToolSegment serde requestId) pipeline segments = .ok (next, output)) :
    ∃ callIds, Reports pipeline next output callIds ∧ callIds.length = callCount segments := by
  refine pushAll_invariant (fun state pushed history => ∃ callIds,
    Reports pipeline state history callIds ∧ callIds.length = callCount pushed)
    ?_ [] ⟨[], .refl pipeline, rfl⟩ h
  rintro state next segment pushed history output ⟨callIds, hreports, hlength⟩ hstep
  cases segment with
  | text text =>
    obtain ⟨hstep, -⟩ := reports_processToolSegment_text hstep
    exact ⟨_, hreports.trans hstep, by simp [hlength, callCount, ToolSegment.isCall]⟩
  | call name arguments =>
    obtain ⟨hstep, -⟩ := reports_processToolSegment_call hstep
    exact ⟨_, hreports.trans hstep, by simp [hlength, callCount, ToolSegment.isCall]⟩

/-- Visible text starts no more calls than it has characters. -/
theorem within_processVisibleText
    (h : pipeline.processVisibleText serde requestId text = .ok (next, output)) :
    Within pipeline next output text.length := by
  unfold processVisibleText at h
  split at h
  next parser hparser =>
    split at h
    next => cases h
    next parser' segments hpush =>
      obtain ⟨callIds, hreports, hlength⟩ := reports_segments h
      have hle := TaggedJsonToolParserState.callCount_le_of_push hpush
      refine ⟨hreports.decoder, by simp [hreports.toolParser, hparser], ?_, ?_⟩
      · intro hnone
        rw [hparser] at hnone
        cases hnone
      · rw [hreports.started, hlength, heldLength, heldLength, hreports.reasoningParser,
          hreports.toolParser, hparser]
        simp only [Option.elim_some]
        omega
  next =>
    rw [pushAll_singleton] at h
    exact (reports_processToolSegment_text h).1.within _

/-- A segment of the reasoning parser starts no more calls than it has characters of text. -/
theorem within_processReasoningSegment {segment : ReasoningSegment}
    (h : pipeline.processReasoningSegment serde requestId segment = .ok (next, output)) :
    Within pipeline next output (textOf [segment]).length := by
  cases segment with
  | reasoning text =>
    cases h
    exact Reports.within ⟨rfl, rfl, rfl, rfl⟩ _
  | text text =>
    have hwithin := within_processVisibleText h
    rwa [textOf, List.flatMap_singleton]

/-- The segments of the reasoning parser start no more calls than they have characters of
text. -/
theorem within_segments {segments : List ReasoningSegment}
    (h : pushAll (processReasoningSegment serde requestId) pipeline segments =
      .ok (next, output)) : Within pipeline next output (textOf segments).length := by
  refine pushAll_invariant (fun state pushed history =>
    Within pipeline state history (textOf pushed).length)
    ?_ [] ((Reports.refl pipeline).within 0) h
  intro state next segment pushed history output hwithin hstep
  rw [textOf_append, List.length_append]
  exact hwithin.trans (within_processReasoningSegment hstep)

/-- Text starts no more calls than it has characters. -/
theorem within_processTextDelta
    (h : pipeline.processTextDelta serde requestId text = .ok (next, output)) :
    Within pipeline next output text.length := by
  unfold processTextDelta at h
  split at h
  next parser hparser =>
    split at h
    next => cases h
    next parser' segments hpush =>
      obtain ⟨hdecoder, htool, hsilent, hroom⟩ := within_segments h
      have hle := TaggedReasoningParserState.length_le_of_push hpush
      refine ⟨hdecoder, htool, hsilent, ?_⟩
      simp only [heldLength, hparser, Option.elim_some] at hroom ⊢
      omega
  next =>
    have hwithin := within_segments h
    rwa [textOf, List.flatMap_singleton] at hwithin

/-- Every event but a call of the engine starts no more calls than it has characters. -/
theorem within_process {engineEvent : EngineEvent} (hnative : nativeCallId engineEvent = none)
    (h : pipeline.process serde engineEvent = .ok (next, output)) :
    Within pipeline next output (textLength pipeline.decoder engineEvent) := by
  cases engineEvent with
  | accepted =>
    cases h
    exact Reports.within ⟨rfl, rfl, rfl, rfl⟩ _
  | tokenDelta =>
    simp only [process] at h
    split at h
    next => cases h
    next text hdecode =>
      rw [textLength, hdecode]
      exact within_processTextDelta h
  | textDelta => exact within_processTextDelta h
  | reasoningDelta =>
    simp only [process] at h
    split at h
    next => cases h
    next =>
      cases h
      exact Reports.within ⟨rfl, rfl, rfl, rfl⟩ _
  | toolCallStarted => cases hnative
  | toolCallArgumentsDelta => exact (reports_appendToolArguments h).1.within _
  | toolCallCompleted => exact (reports_completeToolCall h).1.within _
  | usageUpdate =>
    cases h
    exact Reports.within ⟨rfl, rfl, rfl, rfl⟩ _
  | finished =>
    obtain ⟨rfl, -, rfl⟩ := of_finishOutput h
    exact Reports.within ⟨rfl, rfl, rfl, rfl⟩ _

/-- A call of the engine is started under its own id, without a tool parser. -/
theorem reports_process_native {engineEvent : EngineEvent} {callId : String}
    (hnative : nativeCallId engineEvent = some callId)
    (h : pipeline.process serde engineEvent = .ok (next, output)) :
    pipeline.toolParser = none ∧ Reports pipeline next output [callId] := by
  cases engineEvent with
  | toolCallStarted requestId sequenceNumber callId' name =>
    cases hnative
    simp only [process] at h
    split at h
    next => cases h
    next hparser =>
      exact ⟨Option.not_isSome_iff_eq_none.mp hparser, (reports_startToolCall h).1⟩
  | _ => cases hnative

/-- Events of the engine keep the numbers if a tool parser is selected. -/
theorem Numbered.process {engineEvent : EngineEvent} {history : List ModelEvent}
    (hn : Numbered pipeline history) (hnative : nativeCallId engineEvent = none)
    (h : pipeline.process serde engineEvent = .ok (next, output)) :
    Numbered next (history ++ output) := by
  cases engineEvent with
  | accepted =>
    cases h
    exact hn.of_silent rfl rfl
  | tokenDelta =>
    simp only [BasicOutputPipeline.process] at h
    split at h
    next => cases h
    next => exact numbered_keptBySegments.processTextDelta hn h
  | textDelta => exact numbered_keptBySegments.processTextDelta hn h
  | reasoningDelta =>
    simp only [BasicOutputPipeline.process] at h
    split at h
    next => cases h
    next =>
      cases h
      exact hn.of_silent rfl rfl
  | toolCallStarted => cases hnative
  | toolCallArgumentsDelta =>
    obtain ⟨hreports, hindex⟩ := reports_appendToolArguments h
    exact hn.of_silent hreports.started hindex
  | toolCallCompleted =>
    obtain ⟨hreports, hindex⟩ := reports_completeToolCall h
    exact hn.of_silent hreports.started hindex
  | usageUpdate =>
    cases h
    exact hn.of_silent rfl rfl
  | finished =>
    obtain ⟨rfl, -, rfl⟩ := of_finishOutput h
    exact hn.of_silent rfl rfl

variable {decoder : List UInt32 → Except ModelIoError Text}
  {reasoningParser : Option TaggedReasoningParserDefinition}
  {toolParser : Option TaggedJsonToolParserDefinition} {contract : OutputContract}
  {events : List EngineEvent} {last : BasicOutputPipeline} {emitted : List ModelEvent}

/-- Without a tool parser the started calls are those of the engine. -/
theorem startedCallIds_run_native (hnone : pipeline.toolParser = none)
    (h : pipeline.run serde events = .ok (last, emitted)) :
    startedCallIds emitted = nativeCallIds events := by
  refine (pushAll_invariant (fun state pushed history => state.toolParser = none ∧
    startedCallIds history = nativeCallIds pushed) ?_ [] ⟨hnone, startedCallIds_nil⟩ h).2
  rintro state next event pushed history output ⟨hparser, hids⟩ hstep
  cases hnative : nativeCallId event with
  | none =>
    have hwithin := within_process hnative hstep
    refine ⟨Option.not_isSome_iff_eq_none.mp (by simp [hwithin.toolParser, hparser]), ?_⟩
    simp [hids, hwithin.silent hparser, hnative]
  | some callId =>
    obtain ⟨-, hreports⟩ := reports_process_native hnative hstep
    refine ⟨hreports.toolParser.trans hparser, ?_⟩
    simp [hids, hreports.started, hnative]

/-- With a tool parser all calls are parsed, and there are no more of them than characters. -/
theorem numbered_run (hsome : pipeline.toolParser.isSome = true)
    (hheld : heldLength pipeline = 0) (hindex : pipeline.nextToolIndex = 0)
    (h : pipeline.run serde events = .ok (last, emitted)) :
    nativeCallIds events = [] ∧ Numbered last emitted ∧
      (startedCallIds emitted).length ≤ (events.map (textLength pipeline.decoder)).sum := by
  have hinv := pushAll_invariant (fun state pushed history =>
    Within pipeline state history (pushed.map (textLength pipeline.decoder)).sum ∧
      nativeCallIds pushed = [] ∧ Numbered state history) ?_ []
    ⟨(Reports.refl pipeline).within 0, rfl, [], rfl, hindex⟩ h
  · obtain ⟨hwithin, hnative, hnumbered⟩ := hinv
    have hroom := hwithin.room
    rw [hheld] at hroom
    exact ⟨hnative, hnumbered, by simpa using Nat.le_of_add_right_le hroom⟩
  · rintro state next event pushed history output ⟨hwithin, hids, hnumbered⟩ hstep
    cases hnative : nativeCallId event with
    | none =>
      have hstep' := within_process hnative hstep
      rw [hwithin.decoder] at hstep'
      refine ⟨?_, by simp [hids, hnative], hnumbered.process hnative hstep⟩
      simpa using hwithin.trans hstep'
    | some callId =>
      have hparser := (reports_process_native hnative hstep).1
      have hstate := hwithin.toolParser
      rw [hparser, hsome] at hstate
      cases hstate

/-- The ids of the started calls are distinct if the engine gives no id to two of its own
calls and there are too few characters for the index to wrap around. An id that the engine
gives twice is started twice. -/
theorem nodup_startedCallIds
    (h : (outputPipeline decoder reasoningParser toolParser contract).run serde events =
      .ok (last, emitted)) :
    ((nativeCallIds events).Nodup → (events.map (textLength decoder)).sum ≤ 2 ^ 64 →
      (startedCallIds emitted).Nodup) ∧
    ((startedCallIds emitted).Nodup → (nativeCallIds events).Nodup) := by
  cases toolParser with
  | none =>
    rw [startedCallIds_run_native rfl h]
    exact ⟨fun hnodup _ => hnodup, id⟩
  | some definition =>
    have hheld : heldLength (outputPipeline decoder reasoningParser (some definition)
        contract) = 0 := by
      cases reasoningParser with
      | none => rfl
      | some definition => rfl
    obtain ⟨hnative, ⟨requestIds, hids, -⟩, hlength⟩ := numbered_run rfl hheld rfl h
    constructor
    · intro _ hbound
      have hcount : requestIds.length = (startedCallIds emitted).length := by
        rw [hids, parsedCallIds, List.length_mapIdx]
      rw [hids]
      exact nodup_parsedCallIds (hcount.le.trans (hlength.trans hbound))
    · intro _
      rw [hnative]
      exact List.nodup_nil

/-- Two calls under two ids. -/
theorem nodup_startedCallIds_sample :
    (startedCallIds [.toolCallStarted "r" "a" "f",
      .toolCallArgumentsDelta "r" "a" sampleArguments,
      .toolCallCompleted "r" "a" sampleArguments, .toolCallStarted "r" "b" "f",
      .toolCallArgumentsDelta "r" "b" sampleArguments,
      .toolCallCompleted "r" "b" sampleArguments]).Nodup := by
  have hrun : (outputPipeline sampleDecoder none none sampleContract).run sampleSerde
      (sampleCall "a" ++ sampleCall "b") = .ok (_, _) := rfl
  exact (nodup_startedCallIds hrun).1 (by decide) (by decide)

/-- The id of a completed call is accepted again. -/
theorem not_nodup_startedCallIds_sample : ∃ last emitted,
    (outputPipeline sampleDecoder none none sampleContract).run sampleSerde
      (sampleCall "a" ++ sampleCall "a") = .ok (last, emitted) ∧
    ¬ (startedCallIds emitted).Nodup :=
  ⟨_, _, rfl, by decide⟩

end Locus.ModelIo
