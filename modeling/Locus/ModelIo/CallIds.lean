import Locus.Lib.Separators
import Locus.ModelIo.PipelineSpecs
import Locus.Parser.TextLength

/-!
# Call ids

A started call is looked up among the calls that are still open, so the engine may give
the id of a completed call to another one. Calls that are parsed from text get ids of
their own, which differ as long as their index does not wrap around.
-/

namespace Locus.ModelIo

open Locus.Core Locus.Lib Locus.Parser BasicOutputPipeline

/-- The id of the call that the engine starts. -/
def nativeCallId : EngineEvent → Option String
  | .toolCallStarted _ _ callId _ => some callId
  | _ => none

/-- The ids of the calls that the engine starts. -/
def nativeCallIds (events : List EngineEvent) : List String :=
  events.filterMap nativeCallId

/-- The id of the call that an event starts. -/
def ModelEvent.startedCallId : ModelEvent → Option String
  | .toolCallStarted _ callId _ => some callId
  | _ => none

/-- The ids of all calls that are started. -/
def startedCallIds (history : List ModelEvent) : List String :=
  history.filterMap ModelEvent.startedCallId

/-- The number of characters of an event that the parsers get to see. -/
def textLength (decoder : List UInt32 → Except ModelIoError Text) : EngineEvent → ℕ
  | .tokenDelta _ _ tokenIds =>
    match decoder tokenIds with
    | .error _ => 0
    | .ok text => text.length
  | .textDelta _ _ text => text.length
  | _ => 0

/-- The id of a parsed call. -/
def parsedCallId (requestId : RequestId) (index : ℕ) : String :=
  "call_" ++ requestId ++ "_" ++ toString index

/-- The ids of parsed calls that were made for these requests. -/
def parsedCallIds (requestIds : List RequestId) : List String :=
  requestIds.mapIdx fun index requestId => parsedCallId requestId (index % 2 ^ 64)

variable {serde : Serde} {pipeline next : BasicOutputPipeline} {history output : List ModelEvent}
  {event : ModelEvent} {requestId : RequestId} {callId name : String} {text delta : Text}

@[simp] theorem startedCallIds_nil : startedCallIds [] = [] :=
  rfl

@[simp] theorem startedCallIds_append (history output : List ModelEvent) :
    startedCallIds (history ++ output) = startedCallIds history ++ startedCallIds output :=
  List.filterMap_append

@[simp] theorem nativeCallIds_append (events rest : List EngineEvent) :
    nativeCallIds (events ++ rest) = nativeCallIds events ++ nativeCallIds rest :=
  List.filterMap_append

@[simp] theorem nativeCallIds_singleton (event : EngineEvent) :
    nativeCallIds [event] = (nativeCallId event).toList := by
  cases h : nativeCallId event <;> simp [nativeCallIds, h]

/-- Ids of parsed calls with different indices differ, whatever the requests are. -/
theorem index_eq_of_parsedCallId_eq {requestId requestId' : RequestId} {index index' : ℕ}
    (h : parsedCallId requestId index = parsedCallId requestId' index') : index = index' := by
  have hlist := congrArg String.toList h
  simp only [parsedCallId, String.toList_append] at hlist
  have hword := eq_of_append_separator_eq (notMem_toString (c := '_') rfl index)
    (notMem_toString rfl index') (by simpa using hlist)
  exact Nat.repr_injective (String.toList_injective hword)

/-- Ids of parsed calls are distinct until the index wraps around. -/
theorem nodup_parsedCallIds {requestIds : List RequestId} (h : requestIds.length ≤ 2 ^ 64) :
    (parsedCallIds requestIds).Nodup := by
  refine List.pairwise_iff_getElem.mpr fun i j hi hj hlt heq => ?_
  simp only [parsedCallIds, List.length_mapIdx] at hi hj
  simp only [parsedCallIds, List.getElem_mapIdx] at heq
  have hindex := index_eq_of_parsedCallId_eq heq
  rw [Nat.mod_eq_of_lt (by omega), Nat.mod_eq_of_lt (by omega)] at hindex
  omega

/-- What a step emits about calls, and what it leaves of the parsers. -/
structure Reports (pipeline next : BasicOutputPipeline) (output : List ModelEvent)
    (callIds : List String) : Prop where
  decoder : next.decoder = pipeline.decoder
  reasoningParser : next.reasoningParser = pipeline.reasoningParser
  toolParser : next.toolParser = pipeline.toolParser
  started : startedCallIds output = callIds

/-- A step that changes nothing reports nothing. -/
theorem Reports.refl (pipeline : BasicOutputPipeline) : Reports pipeline pipeline [] [] :=
  ⟨rfl, rfl, rfl, rfl⟩

/-- Two steps report one after the other. -/
theorem Reports.trans {middle : BasicOutputPipeline} {output' : List ModelEvent}
    {callIds callIds' : List String} (h : Reports pipeline middle output callIds)
    (h' : Reports middle next output' callIds') :
    Reports pipeline next (output ++ output') (callIds ++ callIds') where
  decoder := h'.decoder.trans h.decoder
  reasoningParser := h'.reasoningParser.trans h.reasoningParser
  toolParser := h'.toolParser.trans h.toolParser
  started := by rw [startedCallIds_append, h.started, h'.started]

/-- Starting a call reports it. -/
theorem reports_startToolCall
    (h : pipeline.startToolCall requestId callId name = .ok (next, output)) :
    Reports pipeline next output [callId] ∧ next.nextToolIndex = pipeline.nextToolIndex := by
  obtain ⟨-, -, rfl, rfl⟩ := of_startToolCall h
  exact ⟨⟨rfl, rfl, rfl, rfl⟩, rfl⟩

/-- Adding arguments reports no call. -/
theorem reports_appendToolArguments
    (h : pipeline.appendToolArguments requestId callId delta = .ok (next, output)) :
    Reports pipeline next output [] ∧ next.nextToolIndex = pipeline.nextToolIndex := by
  obtain ⟨-, -, rfl, rfl⟩ := of_appendToolArguments h
  exact ⟨⟨rfl, rfl, rfl, rfl⟩, rfl⟩

/-- Completing a call reports no other. -/
theorem reports_completeToolCall
    (h : pipeline.completeToolCall serde requestId callId = .ok (next, output)) :
    Reports pipeline next output [] ∧ next.nextToolIndex = pipeline.nextToolIndex := by
  obtain ⟨-, -, -, rfl, rfl⟩ := of_completeToolCall h
  exact ⟨⟨rfl, rfl, rfl, rfl⟩, rfl⟩

/-- Text reports no call. -/
theorem reports_processToolSegment_text
    (h : pipeline.processToolSegment serde requestId (.text text) = .ok (next, output)) :
    Reports pipeline next output [] ∧ next.nextToolIndex = pipeline.nextToolIndex := by
  cases h
  exact ⟨⟨rfl, rfl, rfl, rfl⟩, rfl⟩

/-- A parsed call is reported under the next id. -/
theorem reports_processToolSegment_call {arguments : Text}
    (h : pipeline.processToolSegment serde requestId (.call name arguments) =
      .ok (next, output)) :
    Reports pipeline next output [pipeline.nextCallId requestId] ∧
      next.nextToolIndex = pipeline.nextToolIndex + 1 := by
  obtain ⟨first, second, started, appended, completed, hstart, happend, hcomplete, rfl⟩ :=
    of_processToolSegment_call h
  obtain ⟨hfirst, hindex⟩ := reports_startToolCall hstart
  obtain ⟨hsecond, hindex'⟩ := reports_appendToolArguments happend
  obtain ⟨hthird, hindex''⟩ := reports_completeToolCall hcomplete
  obtain ⟨hdecoder, hreasoning, htool, hstarted⟩ := (hfirst.trans hsecond).trans hthird
  exact ⟨⟨hdecoder, hreasoning, htool, hstarted⟩, by rw [hindex'', hindex', hindex]⟩

/-- All started calls were parsed, and the index counts them. -/
def Numbered (pipeline : BasicOutputPipeline) (history : List ModelEvent) : Prop :=
  ∃ requestIds : List RequestId, startedCallIds history = parsedCallIds requestIds ∧
    pipeline.nextToolIndex = UInt64.ofNat requestIds.length

/-- A step that reports no call leaves the numbers alone. -/
theorem Numbered.of_silent (hn : Numbered pipeline history) (hstarted : startedCallIds output = [])
    (hindex : next.nextToolIndex = pipeline.nextToolIndex) : Numbered next (history ++ output) := by
  obtain ⟨requestIds, hids, hnext⟩ := hn
  exact ⟨requestIds, by simp [hids, hstarted], hindex.trans hnext⟩

/-- A segment keeps the numbers. -/
theorem Numbered.processToolSegment {segment : ToolSegment} (hn : Numbered pipeline history)
    (h : pipeline.processToolSegment serde requestId segment = .ok (next, output)) :
    Numbered next (history ++ output) := by
  cases segment with
  | text text =>
    obtain ⟨hreports, hindex⟩ := reports_processToolSegment_text h
    exact hn.of_silent hreports.started hindex
  | call name arguments =>
    obtain ⟨hreports, hindex⟩ := reports_processToolSegment_call h
    obtain ⟨requestIds, hids, hnext⟩ := hn
    refine ⟨requestIds ++ [requestId], ?_, ?_⟩
    · rw [startedCallIds_append, hids, hreports.started, parsedCallIds, parsedCallIds,
        List.mapIdx_concat, nextCallId, hnext, UInt64.toNat_ofNat']
      rfl
    · rw [hindex, hnext, List.length_append, List.length_singleton, UInt64.ofNat_add]
      rfl

/-- Text keeps the numbers. -/
theorem numbered_keptBySegments : KeptBySegments serde Numbered where
  parsers _ _ hn := hn
  reasoning _ _ hn := hn.of_silent rfl rfl
  segment hn h := hn.processToolSegment h

end Locus.ModelIo
