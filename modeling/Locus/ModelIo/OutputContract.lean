import Locus.ModelIo.History
import Locus.ModelIo.PipelineSpecs

/-!
# The semantic output contract

Whatever the engine reports, the events that leave the pipeline form an orderly history.
Every function of the pipeline keeps the account of the history, and so does every run.
-/

namespace Locus.ModelIo

open Locus.Core Locus.Lib Locus.Parser BasicOutputPipeline

variable {serde : Serde} {contract : OutputContract} {pipeline next last : BasicOutputPipeline}
  {history output emitted : List ModelEvent} {requestId : RequestId} {callId name : String}
  {text delta : Text} {reason : EngineFinishReason} {usage : Usage}

/-- A requested and selected tool is allowed. -/
theorem allows_of_selected (hrequested : contract.requested name = true)
    (hselected : contract.selected name = true) : contract.Allows name := by
  constructor
  · simpa [OutputContract.requested] using hrequested
  · unfold OutputContract.selected at hselected
    cases hchoice : contract.toolChoice with
    | auto => trivial
    | none =>
      rw [hchoice] at hselected
      cases hselected
    | required => trivial
    | function selected =>
      rw [hchoice] at hselected
      exact (beq_iff_eq.mp hselected).symm

/-- Starting a call keeps the account. -/
theorem Tracks.startToolCall (ht : Tracks serde contract pipeline history)
    (h : pipeline.startToolCall requestId callId name = .ok (next, output)) :
    Tracks serde contract next (history ++ output) := by
  obtain ⟨hrequested, hselected, rfl, rfl⟩ := of_startToolCall h
  refine ht.concat rfl (fun callId' => ?_) (by simp [ModelEvent.addedText]) ?_ ?_ ?_
  · simp [trackCall, Std.TreeMap.getElem?_insert]
  · simp [ModelEvent.IsStart]
  · simp
  · rw [ht.keepsContract] at hrequested hselected
    exact allows_of_selected hrequested hselected

/-- Adding arguments keeps the account. -/
theorem Tracks.appendToolArguments (ht : Tracks serde contract pipeline history)
    (h : pipeline.appendToolArguments requestId callId delta = .ok (next, output)) :
    Tracks serde contract next (history ++ output) := by
  obtain ⟨arguments, hopen, rfl, rfl⟩ := of_appendToolArguments h
  refine ht.concat rfl (fun callId' => ?_) (by simp [ModelEvent.addedText]) ?_ ?_ ?_
  · by_cases heq : callId = callId'
    · subst heq
      simp [trackCall, hopen]
    · simp [trackCall, Std.TreeMap.getElem?_insert, heq]
  · simp [ModelEvent.IsStart]
  · simp
  · simp [MayFollow, ← ht.toolArguments, hopen]

/-- Completing a call keeps the account. -/
theorem Tracks.completeToolCall (ht : Tracks serde contract pipeline history)
    (h : pipeline.completeToolCall serde requestId callId = .ok (next, output)) :
    Tracks serde contract next (history ++ output) := by
  obtain ⟨arguments, hopen, hobject, rfl, rfl⟩ := of_completeToolCall h
  refine ht.concat rfl (fun callId' => ?_) (by simp [ModelEvent.addedText]) ?_ ?_ ?_
  · simp [trackCall, Std.TreeMap.getElem?_erase]
  · simp [ModelEvent.IsStart]
  · exact fun _ _ => .inr ⟨_, _, _, rfl⟩
  · exact ⟨(ht.toolArguments callId).symm.trans hopen, hobject⟩

/-- A segment of the tool parser keeps the account. -/
theorem Tracks.processToolSegment {segment : ToolSegment}
    (ht : Tracks serde contract pipeline history)
    (h : pipeline.processToolSegment serde requestId segment = .ok (next, output)) :
    Tracks serde contract next (history ++ output) := by
  cases segment with
  | text text =>
    cases h
    exact ht.concat rfl (fun _ => rfl) rfl (by simp [ModelEvent.IsStart])
      (fun hsaw hempty => .inl ⟨hsaw, hempty⟩) trivial
  | call name arguments =>
    obtain ⟨_, _, _, _, _, hstart, happend, hcomplete, rfl⟩ := of_processToolSegment_call h
    have hindexed := ht.of_parsers pipeline.reasoningParser pipeline.toolParser
      (pipeline.nextToolIndex + 1)
    have hthird := ((hindexed.startToolCall hstart).appendToolArguments
      happend).completeToolCall hcomplete
    simpa only [List.append_assoc] using hthird

/-- Text keeps the account. -/
theorem tracks_keptBySegments : KeptBySegments serde (Tracks serde contract) where
  parsers _ _ ht := ht.of_parsers _ _ _
  reasoning _ _ ht := ht.skip (fun _ _ => rfl) rfl (by simp [ModelEvent.IsStart]) trivial
  segment ht h := ht.processToolSegment h

/-- A call is required by two choices. -/
theorem requiresCall_iff : contract.requiresCall = true ↔
    contract.toolChoice = .required ∨ ∃ name, contract.toolChoice = .function name := by
  unfold OutputContract.requiresCall
  cases contract.toolChoice with
  | auto => simp
  | none => simp
  | required => simp
  | function name => simp

/-- Structured output is required by all formats but one. -/
theorem requiresJson_iff : contract.requiresJson = true ↔ contract.responseFormat ≠ .text := by
  unfold OutputContract.requiresJson
  cases contract.responseFormat with
  | text => simp
  | jsonObject => simp
  | jsonSchema name description schema strict => simp

/-- An end keeps the account. -/
theorem Tracks.finishOutput (ht : Tracks serde contract pipeline history)
    (h : pipeline.finishOutput serde requestId reason usage = .ok (next, output)) :
    Tracks serde contract next (history ++ output) := by
  obtain ⟨rfl, hvalid, rfl⟩ := of_finishOutput h
  obtain ⟨hjson, hempty, hcall⟩ := of_validateCompletedOutput hvalid
  refine ht.skip (fun _ _ => rfl) rfl (by simp [ModelEvent.IsStart]) ⟨fun callId => ?_, ?_, ?_⟩
  · rw [← ht.toolArguments]
    exact Std.TreeMap.getElem?_of_isEmpty hempty
  · rw [← requiresCall_iff, ← ht.keepsContract]
    exact fun hrequired => ht.completed (hcall hrequired) hempty
  · rw [← requiresJson_iff, ← ht.keepsContract, ← ht.text]
    exact hjson

/-- Every event keeps the account. -/
theorem Tracks.process {engineEvent : EngineEvent} (ht : Tracks serde contract pipeline history)
    (h : pipeline.process serde engineEvent = .ok (next, output)) :
    Tracks serde contract next (history ++ output) := by
  cases engineEvent with
  | accepted =>
    cases h
    exact ht.skip (fun _ _ => rfl) rfl (by simp [ModelEvent.IsStart]) trivial
  | tokenDelta =>
    simp only [BasicOutputPipeline.process] at h
    split at h
    next => cases h
    next => exact tracks_keptBySegments.processTextDelta ht h
  | textDelta => exact tracks_keptBySegments.processTextDelta ht h
  | reasoningDelta =>
    simp only [BasicOutputPipeline.process] at h
    split at h
    next => cases h
    next =>
      cases h
      exact ht.skip (fun _ _ => rfl) rfl (by simp [ModelEvent.IsStart]) trivial
  | toolCallStarted =>
    simp only [BasicOutputPipeline.process] at h
    split at h
    next => cases h
    next => exact ht.startToolCall h
  | toolCallArgumentsDelta => exact ht.appendToolArguments h
  | toolCallCompleted => exact ht.completeToolCall h
  | usageUpdate =>
    cases h
    exact ht.skip (fun _ _ => rfl) rfl (by simp [ModelEvent.IsStart]) trivial
  | finished => exact ht.finishOutput h

variable {decoder : List UInt32 → Except ModelIoError Text}
  {reasoningParser : Option TaggedReasoningParserDefinition}
  {toolParser : Option TaggedJsonToolParserDefinition} {events : List EngineEvent}

/-- A new pipeline tracks the empty history. -/
theorem tracks_outputPipeline :
    Tracks serde contract (outputPipeline decoder reasoningParser toolParser contract) [] where
  keepsContract := rfl
  toolArguments callId := by simp [outputPipeline, openArguments]
  text := rfl
  sawToolCall := by simp [outputPipeline]
  completed h := by cases h
  orderly before event after h := by simp at h

/-- After any run the pipeline tracks the history of its events. -/
theorem tracks_run
    (h : (outputPipeline decoder reasoningParser toolParser contract).run serde events =
      .ok (last, emitted)) : Tracks serde contract last emitted := by
  have htracks := pushAll_induction Tracks.process tracks_outputPipeline h
  rwa [List.nil_append] at htracks

/-- A call is reported as the reason exactly if there was one and the engine says so. -/
theorem reportedReason_eq_toolCall_iff : pipeline.reportedReason reason = .toolCall ↔
    pipeline.sawToolCall = true ∧
      (reason = .stop ∨ ∃ nameSpace, reason = .runtimeSpecific nameSpace "tool_calls") := by
  unfold reportedReason
  cases reason with
  | stop => simp [interpretFinish]
  | length => simp [interpretFinish, runtimeReportedToolCall]
  | cancelled => simp [interpretFinish, runtimeReportedToolCall]
  | error => simp [interpretFinish, runtimeReportedToolCall]
  | runtimeSpecific nameSpace value => simp [interpretFinish, runtimeReportedToolCall]

/-- The events of a sequence that is processed up to its end are an orderly history that
ends with the reason that its calls and the engine give. -/
theorem output_contract
    (h : (outputPipeline decoder reasoningParser toolParser contract).run serde
      (events ++ [.finished requestId reason usage]) = .ok (last, emitted)) :
    Orderly serde contract emitted ∧
    ∃ front modelReason, emitted = front ++ [.finished requestId modelReason usage] ∧
      (modelReason = .toolCall ↔ (∃ event ∈ front, event.IsStart) ∧
        (reason = .stop ∨ ∃ nameSpace, reason = .runtimeSpecific nameSpace "tool_calls")) := by
  refine ⟨(tracks_run h).orderly, ?_⟩
  obtain ⟨next, front, output, hfront, hfinish, rfl⟩ := pushAll_concat_eq_ok h
  have hsaw := (tracks_run hfront).sawToolCall
  obtain ⟨-, -, rfl⟩ := of_finishOutput hfinish
  refine ⟨front, next.reportedReason reason, rfl, ?_⟩
  rw [reportedReason_eq_toolCall_iff, hsaw]

/-- One call that ends the output. -/
theorem output_contract_sample :
    Orderly sampleSerde sampleContract
      [.toolCallStarted "r" "a" "f", .toolCallArgumentsDelta "r" "a" sampleArguments,
        .toolCallCompleted "r" "a" sampleArguments, .finished "r" .toolCall ⟨1, 2⟩] := by
  have hrun : (outputPipeline sampleDecoder none none sampleContract).run sampleSerde
      (sampleCall "a" ++ [.finished "r" .stop ⟨1, 2⟩]) = .ok (_, _) := rfl
  exact (output_contract hrun).1

end Locus.ModelIo
