import Locus.OpenAi.Chat
import Locus.OpenAi.Items

/-!
# The two forms of a chat message

A client that puts the chunks of a stream together has the collected message: the
accumulator that numbers the calls is always in step with what the client has read.
-/

namespace Locus.OpenAi

open Locus.Core Locus.Lib Locus.ModelIo Locus.Parser

/-- The message of a client is the one of the completion, up to `null` for an empty text,
with the same calls in the same order and the same reason. A role that the client has read is
the same too. -/
def ChatClient.Matches (client : ChatClient) (completion : ChatCompletion) : Prop :=
  (∀ role, client.role = some role → role = completion.message.role) ∧
  client.content = completion.message.content.getD [] ∧
  client.reasoningContent = completion.message.reasoningContent.getD [] ∧
  client.toolCalls = completion.message.toolCalls ∧
  client.finishReason = some completion.finishReason

/-- What the chat stream sends for these events, if none of them is the last. -/
def chatSentFor (requestId model : String) (history : List ModelEvent) : List ChatEvent :=
  outputs ChatState.next (ChatState.sent requestId model) {} history

/-- What a client has read when the stream is in this state. -/
def ChatState.client (state : ChatState) : ChatClient where
  role := bif state.roleSent then some "assistant" else none
  content := state.output.text
  reasoningContent := state.output.reasoning
  toolCalls := state.output.tools.mapIdx chatToolCall

variable {requestId model : String} {history : List ModelEvent} {event : ModelEvent}
  {state : ChatState} {tools : List ToolOutput} {callId : String}

@[simp] theorem chatSentFor_concat : chatSentFor requestId model (history ++ [event]) =
    chatSentFor requestId model history ++
      (history.foldl ChatState.next {}).sent requestId model event :=
  outputs_concat _ _ _

/-- The stream keeps the accumulator of the collector. -/
theorem output_chatState (history : List ModelEvent) :
    (history.foldl ChatState.next {}).output = OutputAccumulator.after history := by
  induction history using List.reverseRecOn with
  | nil => rfl
  | append_singleton history event ih => simp [ChatState.next, ih]

/-- A call under the next index is a new one. -/
theorem mergeToolCall_new (part : ChatToolCall) (h : part.index = tools.length) :
    mergeToolCall (tools.mapIdx chatToolCall) part = tools.mapIdx chatToolCall ++ [part] := by
  have hnone : ¬ ∃ call ∈ tools.mapIdx chatToolCall, call.index = part.index := by
    rintro ⟨call, hmem, hindex⟩
    obtain ⟨i, hi, rfl⟩ := List.mem_mapIdx.mp hmem
    simp only [chatToolCall] at hindex
    omega
  rw [mergeToolCall, if_neg]
  simpa using hnone

/-- The first tool with an id is changed at its position. -/
theorem updateTool_eq_modify {k : ℕ} (change : Text → Text)
    (h : tools.findIdx? (fun tool => decide (tool.callId = callId)) = some k) :
    updateTool callId change tools =
      tools.modify k fun tool => { tool with arguments := change tool.arguments } := by
  induction tools generalizing k with
  | nil => cases h
  | cons tool tools ih =>
    rw [List.findIdx?_cons] at h
    by_cases heq : tool.callId = callId
    · simp only [heq, decide_true, if_true, Option.some.injEq] at h
      subst h
      simp [updateTool, heq]
    · simp only [heq, decide_false, Bool.false_eq_true, if_false, Option.map_eq_some_iff] at h
      obtain ⟨j, hj, rfl⟩ := h
      simp [updateTool, heq, ih hj]

/-- Arguments under the index of a call are added to it. -/
theorem mergeToolCall_arguments {k : ℕ} (delta : Text)
    (h : tools.findIdx? (fun tool => decide (tool.callId = callId)) = some k) :
    mergeToolCall (tools.mapIdx chatToolCall) { index := k, arguments := delta } =
      (updateTool callId (· ++ delta) tools).mapIdx chatToolCall := by
  have hlt : k < tools.length := (List.findIdx?_eq_some_iff_findIdx_eq.mp h).1
  have hany : ((tools.mapIdx chatToolCall).any fun call => decide (call.index = k)) = true := by
    rw [List.any_eq_true]
    exact ⟨chatToolCall k tools[k], List.mem_mapIdx.mpr ⟨k, hlt, rfl⟩, by simp [chatToolCall]⟩
  rw [mergeToolCall, if_pos hany, updateTool_eq_modify _ h]
  apply List.ext_getElem?
  intro i
  rw [List.getElem?_map, List.getElem?_mapIdx, List.getElem?_mapIdx, List.getElem?_modify]
  by_cases heq : k = i
  · subst heq
    cases tools[k]? <;> simp [chatToolCall]
  · have hne : i ≠ k := fun h => heq h.symm
    cases tools[i]? <;> simp [chatToolCall, heq, hne]

/-- A started call has a position among the tools. -/
theorem exists_findIdx?_tools (h : Proper history) (hstarted : callId ∈ startedCallIds history) :
    ∃ k, (OutputAccumulator.after history).tools.findIdx?
      (fun tool => decide (tool.callId = callId)) = some k := by
  rw [← map_fst_startedCalls] at hstarted
  obtain ⟨call, hmem, rfl⟩ := List.mem_map.mp hstarted
  apply Option.isSome_iff_exists.mp
  rw [List.findIdx?_isSome, tools_after h]
  simp only [List.any_map, List.any_eq_true]
  exact ⟨call, hmem, by simp⟩

/-- The role is sent exactly if the stream has accepted the request. -/
theorem roleSent_chatState (history : List ModelEvent) :
    (history.foldl ChatState.next {}).roleSent = true ↔
      ∃ sender, ModelEvent.accepted sender ∈ history := by
  induction history using List.reverseRecOn with
  | nil => simp
  | append_singleton history event ih =>
    rw [List.foldl_append, List.foldl_cons, List.foldl_nil]
    cases event with
    | accepted sender => simp [ChatState.next]
    | _ => simpa [ChatState.next] using ih

/-- What a client reads of an event keeps it in step with the stream. -/
theorem read_sent (proper : Proper history) (may : MayCome history event)
    (hstate : state.output = OutputAccumulator.after history) :
    (state.sent requestId model event).foldl ChatClient.read state.client =
      (state.next event).client := by
  cases event with
  | accepted sender =>
    simp only [ChatState.sent, ChatState.roleChunk, ChatState.contentChunk]
    split
    next hsent =>
      simp [ChatState.next, OutputAccumulator.apply, ChatState.client, hsent]
    next hsent =>
      simp [ChatClient.read, ChatState.next, OutputAccumulator.apply, ChatState.client, hsent]
  | toolCallStarted sender started name =>
    simp only [ChatState.sent, ChatState.roleChunk, ChatState.contentChunk,
      List.nil_append, List.foldl_cons, List.foldl_nil, ChatClient.read, ChatState.client]
    rw [mergeToolCall_new _ rfl]
    simp [ChatState.next, OutputAccumulator.apply, chatToolCall]
  | toolCallArgumentsDelta sender extended delta =>
    obtain ⟨arguments, hopen⟩ := Option.isSome_iff_exists.mp may
    obtain ⟨k, hk⟩ := exists_findIdx?_tools proper (proper.started_of_open hopen)
    rw [← hstate] at hk
    simp only [ChatState.sent, ChatState.roleChunk, ChatState.contentChunk, hk,
      Option.getD_some, List.nil_append, List.foldl_cons, List.foldl_nil, ChatClient.read,
      ChatState.client]
    rw [mergeToolCall_arguments delta hk]
    simp [ChatState.next, OutputAccumulator.apply]
  | toolCallCompleted sender completed arguments =>
    -- The completion carries the arguments that are known already.
    have hsame : (state.output.apply (.toolCallCompleted sender completed arguments)).tools =
        state.output.tools := by
      rw [hstate, ← after_concat, tools_after (proper.snoc may), tools_after proper,
        startedCalls_concat]
      simp [startedCall, ModelEvent.addedArguments]
    simp only [ChatState.sent, ChatState.roleChunk, ChatState.contentChunk, List.append_nil,
      List.foldl_nil, ChatState.next, ChatState.client, hsame]
    simp [OutputAccumulator.apply]
  | finished sender reason usage => exact may.elim
  | _ =>
    simp [ChatState.sent, ChatState.roleChunk, ChatState.contentChunk, ChatClient.read,
      ChatState.next, OutputAccumulator.apply, ChatState.client]

/-- A client reads one part of a stream after the other. -/
theorem reassembleChat_append (events rest : List ChatEvent) :
    reassembleChat (events ++ rest) = rest.foldl ChatClient.read (reassembleChat events) :=
  List.foldl_append

/-- A client that has read what was sent is in step with the stream. -/
theorem reassemble_chatSentFor (h : Proper history) :
    reassembleChat (chatSentFor requestId model history) =
      (history.foldl ChatState.next {}).client := by
  induction h with
  | nil => rfl
  | @snoc history event proper may ih =>
    rw [chatSentFor_concat, reassembleChat_append, ih,
      read_sent proper may (output_chatState history), List.foldl_append, List.foldl_cons,
      List.foldl_nil]

/-- The end of the stream is not sent for an event. -/
theorem done_notMem_sent : .done ∉ state.sent requestId model event := by
  cases event with
  | accepted sender =>
    simp only [ChatState.sent, ChatState.roleChunk, ChatState.contentChunk]
    split <;> simp
  | _ => simp [ChatState.sent, ChatState.roleChunk, ChatState.contentChunk]

theorem done_notMem_chatSentFor (history : List ModelEvent) :
    .done ∉ chatSentFor requestId model history := by
  induction history using List.reverseRecOn with
  | nil => exact List.not_mem_nil
  | append_singleton history event ih =>
    rw [chatSentFor_concat, List.mem_append]
    rintro (hold | hnew)
    · exact ih hold
    · exact done_notMem_sent hnew

/-- The stream of a finished sequence. -/
theorem chatSse_finished (h : Proper history) (sender : RequestId) (reason : ModelFinishReason)
    (usage : Usage) :
    chatSse requestId model ((history ++ [ModelEvent.finished sender reason usage]).map .ok) =
      chatSentFor requestId model history ++
        [ChatEvent.chunk requestId model {} (some (chatFinishReason (some reason)))] ++
          [.done] := by
  rw [List.map_append, chatSse, chatSentFor, List.append_assoc]
  apply emitAll_outputs
  intro state event hmem
  cases event with
  | finished sender' reason' usage' => exact (h.not_finished hmem).elim
  | _ => rfl

/-- A client of the stream of a well-formed sequence puts together the collected message, with
its role if the sequence has accepted the request, and the stream ends with one `[DONE]`. -/
theorem chat_agrees {events : List ModelEvent} (h : WellFormed events) :
    ∃ completion, collectChat requestId model (events.map .ok) = .ok completion ∧
      (reassembleChat (chatSse requestId model (events.map .ok))).Matches completion ∧
      (∀ sender, .accepted sender ∈ events →
        (reassembleChat (chatSse requestId model (events.map .ok))).role =
          some completion.message.role) ∧
      ∃ chunks, chatSse requestId model (events.map .ok) = chunks ++ [.done] ∧
        .done ∉ chunks := by
  obtain ⟨body, sender, reason, usage, proper, rfl⟩ := h
  have hcollect : collectChat requestId model
      ((body ++ [ModelEvent.finished sender reason usage]).map .ok) = .ok
        { id := requestId
          model := model
          message :=
            { role := "assistant"
              content := if (OutputAccumulator.after body).text = [] then none
                else some (OutputAccumulator.after body).text
              reasoningContent := if (OutputAccumulator.after body).reasoning = [] then none
                else some (OutputAccumulator.after body).reasoning
              toolCalls := (OutputAccumulator.after body).tools.mapIdx chatToolCall }
          finishReason := chatFinishReason (some reason)
          usage := usageValue usage } := by
    rw [collectChat, collect_map_ok, after_concat]
    rfl
  have hclient : reassembleChat (chatSse requestId model
      ((body ++ [ModelEvent.finished sender reason usage]).map .ok)) =
      ⟨bif (body.foldl ChatState.next {}).roleSent then some "assistant" else none,
        (OutputAccumulator.after body).text, (OutputAccumulator.after body).reasoning,
        (OutputAccumulator.after body).tools.mapIdx chatToolCall,
        some (chatFinishReason (some reason))⟩ := by
    rw [chatSse_finished proper, reassembleChat_append, reassembleChat_append,
      reassemble_chatSentFor proper]
    simp [ChatClient.read, ChatState.client, output_chatState]
  refine ⟨_, hcollect, ?_, fun accepter haccepted => ?_, _,
    chatSse_finished proper sender reason usage, ?_⟩
  · rw [hclient]
    refine ⟨fun role hrole => ?_, ?_, ?_, rfl, rfl⟩
    · cases hsent : (body.foldl ChatState.next {}).roleSent with
      | true =>
        rw [hsent] at hrole
        exact (Option.some.inj hrole).symm
      | false =>
        rw [hsent] at hrole
        cases hrole
    · by_cases hempty : (OutputAccumulator.after body).text = [] <;> simp [hempty]
    · by_cases hempty : (OutputAccumulator.after body).reasoning = [] <;> simp [hempty]
  · have hbody : ModelEvent.accepted accepter ∈ body := by simpa using haccepted
    have hsent : (body.foldl ChatState.next {}).roleSent = true :=
      (roleSent_chatState body).mpr ⟨accepter, hbody⟩
    rw [hclient]
    exact congrArg (fun sent => bif sent then some "assistant" else none) hsent
  · rw [List.mem_append]
    rintro (hbody | hlast)
    · exact done_notMem_chatSentFor body hbody
    · cases List.mem_singleton.mp hlast

/-- Two calls at the same time are put together. -/
theorem chat_agrees_sampleInterleaved :
    ∃ completion, collectChat "request" "model" (sampleInterleaved.map .ok) = .ok completion ∧
      (reassembleChat (chatSse "request" "model" (sampleInterleaved.map .ok))).Matches completion ∧
      (∀ sender, .accepted sender ∈ sampleInterleaved →
        (reassembleChat (chatSse "request" "model" (sampleInterleaved.map .ok))).role =
          some completion.message.role) ∧
      ∃ chunks, chatSse "request" "model" (sampleInterleaved.map .ok) = chunks ++ [.done] ∧
        .done ∉ chunks :=
  chat_agrees wellFormed_sampleInterleaved

end Locus.OpenAi
