import Locus.Anthropic.Blocks
import Locus.Lib.Fallible

/-!
# Clients of a message stream

A client begins a block when it is told to and adds each delta to the block with its
index. As long as the stream goes on, the blocks of a client are those of the collector.
-/

namespace Locus.Anthropic

open Locus.Core Locus.Lib Locus.ModelIo Locus.Parser

/-- A block as a client has put it together so far. -/
structure ClientBlock where
  block : StartedBlock
  received : Text
  deriving DecidableEq

structure MessageClient where
  blocks : List ClientBlock := []
  stopReason : Option String := none
  outputTokens : Option UInt64 := none
  deriving DecidableEq

/-- The text of a delta. -/
def BlockDelta.content : BlockDelta → Text
  | .textDelta text => text
  | .inputJsonDelta partialJson => partialJson

/-- What a client makes of an event. -/
def MessageClient.read (client : MessageClient) : MessageEvent → MessageClient
  | .contentBlockStart _ block => { client with blocks := client.blocks ++ [⟨block, []⟩] }
  | .contentBlockDelta index delta => { client with
      blocks := client.blocks.modify index fun block =>
        { block with received := block.received ++ delta.content } }
  | .messageDelta stopReason outputTokens =>
    { client with stopReason := some stopReason, outputTokens := some outputTokens }
  | _ => client

/-- The message that a client puts together. -/
def reassembleMessage (events : List MessageEvent) : MessageClient :=
  events.foldl MessageClient.read {}

/-- A block of the message, with the input of a call parsed. -/
def ClientBlock.value (serde : Serde) (block : ClientBlock) :
    Except String (ContentValue serde) :=
  match block.block with
  | .text => .ok (.text block.received)
  | .toolUse id name => (serde.fromStr block.received).map (.toolUse id name)

/-- The content of the message. -/
def MessageClient.content (serde : Serde) (client : MessageClient) :
    Except String (List (ContentValue serde)) :=
  client.blocks.mapM (ClientBlock.value serde)

/-- A block of the collector as a client has it. -/
def OutputBlock.received : OutputBlock → ClientBlock
  | .text content => ⟨.text, content⟩
  | .tool id name arguments => ⟨.toolUse id name, arguments⟩

/-- The active block of a stream that goes on. -/
def activeBlock (history : List ModelEvent) (count : ℕ) : Option ActiveBlock :=
  match newestBlock history with
  | none => none
  | some .text => some (.text (count - 1))
  | some (.call callId) =>
    if (openArguments history callId).isSome then
      some (.tool (count - 1) callId (newestArguments history callId))
    else none

/-- The newest block is that of an open call whose arguments are not an object. -/
def Unclosable (serde : Serde) (history : List ModelEvent) : Prop :=
  ∃ callId, newestBlock history = some (.call callId) ∧
    (openArguments history callId).isSome = true ∧
    ¬ serde.IsObject (newestArguments history callId)

/-- The events at which the stream breaks off. -/
def Breaks (serde : Serde) (history : List ModelEvent) : ModelEvent → Prop
  | .toolCallArgumentsDelta _ callId _ => newestBlock history ≠ some (.call callId)
  | .toolCallCompleted _ callId _ =>
    newestBlock history ≠ some (.call callId) ∨ Unclosable serde history
  | .textDelta _ _ | .toolCallStarted _ _ _ | .finished _ _ _ => Unclosable serde history
  | .accepted _ | .reasoningDelta _ _ | .usage _ _ _ => False

/-- The stream and its client are in step with the collector. -/
structure Follows (history : List ModelEvent) (state : StreamState) (sent : List MessageEvent) :
    Prop where
  next : state.nextIndex = (MessageAccumulator.after history).content.length
  active : state.active = activeBlock history (MessageAccumulator.after history).content.length
  client : (reassembleMessage sent).blocks =
    (MessageAccumulator.after history).content.map OutputBlock.received

variable {serde : Serde} {requestId model : String} {history : List ModelEvent}
  {event : ModelEvent} {state : StreamState} {sent events : List MessageEvent}
  {callId : String} {arguments : Text} {count : ℕ}

/-- The inputs of calls are objects. -/
theorem parseToolInput_ok_iff :
    (∃ value, parseToolInput serde arguments = .ok value) ↔ serde.IsObject arguments := by
  unfold parseToolInput Serde.IsObject
  cases serde.fromStr arguments with
  | error error => simp
  | ok value =>
    cases hobject : serde.asObject value with
    | none => simp [hobject]
    | some object => simp [hobject]

/-- What is parsed is the JSON value. -/
theorem fromStr_of_parseToolInput {value : serde.Value}
    (h : parseToolInput serde arguments = .ok value) : serde.fromStr arguments = .ok value := by
  unfold parseToolInput at h
  cases hvalue : serde.fromStr arguments with
  | error error =>
    rw [hvalue] at h
    cases h
  | ok value' =>
    simp only [hvalue] at h
    split at h
    · cases h
      rfl
    · cases h

/-- Closing the active block breaks off exactly if it is not closable. -/
theorem closing_unclosable (hactive : state.active = activeBlock history count)
    (h : Unclosable serde history) :
    ∃ error, ∀ goOn, state.closing serde goOn = .error [streamError error] := by
  obtain ⟨callId, hnewest, hopen, hobject⟩ := h
  rw [activeBlock, hnewest] at hactive
  simp only [hopen, if_true] at hactive
  rw [← parseToolInput_ok_iff] at hobject
  cases hparse : parseToolInput serde (newestArguments history callId) with
  | error error =>
    refine ⟨error, ?_⟩
    intro goOn
    simp [StreamState.closing, StreamState.closeActive, hactive, hparse]
  | ok value => exact (hobject ⟨value, hparse⟩).elim

/-- The active block of a call is the newest block. -/
theorem of_activeBlock_tool {index : ℕ}
    (h : activeBlock history count = some (.tool index callId arguments)) :
    newestBlock history = some (.call callId) ∧ (openArguments history callId).isSome = true ∧
      arguments = newestArguments history callId := by
  unfold activeBlock at h
  split at h
  next => cases h
  next => cases h
  next callId' hnewest =>
    split at h
    next hopen =>
      cases h
      exact ⟨hnewest, hopen, rfl⟩
    next => cases h

/-- An active block of text is the newest block. -/
theorem of_activeBlock_text {index : ℕ} (h : activeBlock history count = some (.text index)) :
    newestBlock history = some .text := by
  unfold activeBlock at h
  split at h
  next => cases h
  next hnewest => exact hnewest
  next => split at h <;> cases h

/-- Any other active block is closed; the client has nothing to do. -/
theorem closing_closable (hactive : state.active = activeBlock history count)
    (h : ¬ Unclosable serde history) :
    ∃ stops, (∀ goOn, state.closing serde goOn = goOn { state with active := none } stops) ∧
      ∀ client : MessageClient, stops.foldl MessageClient.read client = client := by
  unfold StreamState.closing StreamState.closeActive
  cases hstate : state.active with
  | none =>
    have hsame : { state with active := none } = state := by rw [← hstate]
    exact ⟨[], fun _ => by rw [hsame], fun _ => rfl⟩
  | some active =>
    cases active with
    | text index => exact ⟨[.contentBlockStop index], fun _ => rfl, fun _ => rfl⟩
    | tool index callId arguments =>
      rw [hstate] at hactive
      obtain ⟨hnewest, hopen, rfl⟩ := of_activeBlock_tool hactive.symm
      have hobject : serde.IsObject (newestArguments history callId) := by
        by_contra hnot
        exact h ⟨callId, hnewest, hopen, hnot⟩
      obtain ⟨value, hvalue⟩ := parseToolInput_ok_iff.mpr hobject
      exact ⟨[.contentBlockStop index], fun _ => by simp [hvalue], fun _ => rfl⟩

/-- An unclosable block is active. -/
theorem active_of_unclosable (hactive : state.active = activeBlock history count)
    (h : Unclosable serde history) :
    ∃ callId, state.active = some (.tool (count - 1) callId (newestArguments history callId)) ∧
      newestBlock history = some (.call callId) := by
  obtain ⟨callId, hnewest, hopen, -⟩ := h
  refine ⟨callId, ?_, hnewest⟩
  rw [hactive, activeBlock, hnewest]
  simp [hopen]

/-- A stream that sends a call sends the newest one. -/
theorem Follows.newestBlock_eq (hfollows : Follows history state sent) {index : ℕ}
    (hstate : state.active = some (.tool index callId arguments)) :
    newestBlock history = some (.call callId) := by
  have hactive := hfollows.active
  rw [hstate] at hactive
  exact (of_activeBlock_tool hactive.symm).1

/-- The stream breaks off with an error. -/
theorem react_of_breaks (hfollows : Follows history state sent) (h : Breaks serde history event) :
    ∃ before error, state.react serde event = .error (before ++ [streamError error]) := by
  cases event with
  | textDelta sender text =>
    obtain ⟨callId, hstate, -⟩ := active_of_unclosable hfollows.active h
    obtain ⟨error, herror⟩ := closing_unclosable hfollows.active h
    refine ⟨[], error, ?_⟩
    simp only [StreamState.react, hstate]
    exact herror _
  | toolCallStarted sender started name =>
    obtain ⟨error, herror⟩ := closing_unclosable hfollows.active h
    exact ⟨[], error, herror _⟩
  | toolCallArgumentsDelta sender extended delta =>
    simp only [StreamState.react]
    cases hstate : state.active with
    | none => exact ⟨[], _, rfl⟩
    | some active =>
      cases active with
      | text index => exact ⟨[], _, rfl⟩
      | tool index callId arguments =>
        have hnewest := hfollows.newestBlock_eq hstate
        have hne : callId ≠ extended := by
          rintro rfl
          exact h hnewest
        simp only [if_pos hne]
        exact ⟨[], _, rfl⟩
  | toolCallCompleted sender completed arguments =>
    simp only [StreamState.react]
    cases hstate : state.active with
    | none => exact ⟨[], _, rfl⟩
    | some active =>
      cases active with
      | text index => exact ⟨[], _, rfl⟩
      | tool index callId arguments =>
        have hnewest := hfollows.newestBlock_eq hstate
        by_cases heq : callId = completed
        · subst heq
          obtain ⟨error, herror⟩ := closing_unclosable hfollows.active (h.resolve_left (· hnewest))
          simp only [if_true]
          exact ⟨[], error, herror _⟩
        · simp only [if_neg heq]
          exact ⟨[], _, rfl⟩
  | finished sender reason usage =>
    have hactive : { state with usage }.active = activeBlock history _ := hfollows.active
    obtain ⟨error, herror⟩ := closing_unclosable hactive h
    exact ⟨[], error, herror _⟩
  | _ => exact h.elim

/-- A delta for the last block is added to it. -/
theorem modify_received (content : List OutputBlock) (last : ClientBlock)
    (f : ClientBlock → ClientBlock) :
    (content.map OutputBlock.received ++ [last]).modify content.length f =
      content.map OutputBlock.received ++ [f last] := by
  induction content with
  | nil => rfl
  | cons first content ih => simp [ih]

/-- The blocks of a client after one more part of a stream. -/
theorem reassembleMessage_append (sent events : List MessageEvent) :
    reassembleMessage (sent ++ events) = events.foldl MessageClient.read (reassembleMessage sent) :=
  List.foldl_append

/-- An event that concerns no block leaves everything in step. -/
theorem Follows.skip (h : Follows history state sent)
    (hcontent : (MessageAccumulator.after (history ++ [event])).content =
      (MessageAccumulator.after history).content)
    (hactive : ∀ count, activeBlock (history ++ [event]) count = activeBlock history count) :
    Follows (history ++ [event]) state sent := by
  refine ⟨?_, ?_, ?_⟩
  · rw [hcontent, h.next]
  · rw [hcontent, hactive, h.active]
  · rw [hcontent, h.client]

/-- The stream goes on and stays in step. -/
def GoesOn (serde : Serde) (history : List ModelEvent) (event : ModelEvent) (state : StreamState)
    (sent : List MessageEvent) : Prop :=
  ∃ next out, state.react serde event = .ok (next, out) ∧
    Follows (history ++ [event]) next (sent ++ out)

theorem goesOn_textDelta (proper : Proper history) (hfollows : Follows history state sent)
    {sender : RequestId} {text : Text} (h : ¬ Breaks serde history (.textDelta sender text)) :
    GoesOn serde history (.textDelta sender text) state sent := by
  have hactive := hfollows.active
  rcases content_textDelta (hasNewest_after proper) sender text with
    ⟨init, current, hnewest, hcontent, hcontent'⟩ | ⟨hnewest, hcontent'⟩
  · have hstate : state.active = some (.text init.length) := by
      rw [hactive, activeBlock, hnewest, hcontent]
      simp
    refine ⟨state, [.contentBlockDelta init.length (.textDelta text)], ?_, ?_⟩
    · simp [StreamState.react, hstate, StreamState.sendText, StreamState.textIndex]
    · refine ⟨?_, ?_, ?_⟩
      · rw [accumulator_concat, hcontent', hfollows.next, hcontent]
        simp
      · rw [accumulator_concat, hcontent', hstate]
        simp [activeBlock, nextBlock]
      · rw [accumulator_concat, hcontent', reassembleMessage_append, List.foldl_cons,
          List.foldl_nil, MessageClient.read, hfollows.client, hcontent, List.map_append,
          List.map_singleton, modify_received]
        simp [OutputBlock.received, BlockDelta.content]
  · obtain ⟨stops, hclosing, hstops⟩ := closing_closable hactive h
    have hreact : state.react serde (.textDelta sender text) =
        StreamState.sendText text
          ({ state with active := none }.openBlock .text .text stops) := by
      rw [← hclosing fun closed events =>
        StreamState.sendText text (closed.openBlock .text .text events)]
      cases hstate : state.active with
      | none => simp only [StreamState.react, hstate]
      | some active =>
        cases active with
        | text index =>
          rw [hstate] at hactive
          exact (hnewest (of_activeBlock_text hactive.symm)).elim
        | tool index callId arguments => simp only [StreamState.react, hstate]
    refine ⟨_, _, hreact, ?_, ?_, ?_⟩
    · rw [accumulator_concat, hcontent']
      simp [StreamState.openBlock, hfollows.next]
    · rw [accumulator_concat, hcontent']
      simp [StreamState.openBlock, hfollows.next, activeBlock, nextBlock]
    · rw [accumulator_concat, hcontent', reassembleMessage_append]
      simp only [StreamState.openBlock, StreamState.textIndex, List.foldl_append, hstops,
        List.foldl_cons, List.foldl_nil, MessageClient.read, hfollows.client, hfollows.next,
        modify_received]
      simp [OutputBlock.received, BlockDelta.content]

theorem goesOn_started (hfollows : Follows history state sent) {sender : RequestId}
    {name : String} (may : MayCome history (.toolCallStarted sender callId name))
    (h : ¬ Breaks serde history (.toolCallStarted sender callId name)) :
    GoesOn serde history (.toolCallStarted sender callId name) state sent := by
  obtain ⟨stops, hclosing, hstops⟩ := closing_closable hfollows.active h
  have hfresh := newestArguments_of_fresh may
  refine ⟨_, _, hclosing _, ?_, ?_, ?_⟩
  · simp [hfollows.next, MessageAccumulator.apply]
  · simp [hfollows.next, activeBlock, nextBlock, trackCall, hfresh, ModelEvent.addedArguments,
      MessageAccumulator.apply]
  · rw [reassembleMessage_append]
    simp [hstops, MessageClient.read, hfollows.client, MessageAccumulator.apply,
      OutputBlock.received]

theorem goesOn_argumentsDelta (proper : Proper history) (hfollows : Follows history state sent)
    {sender : RequestId} {delta : Text}
    (may : MayCome history (.toolCallArgumentsDelta sender callId delta))
    (hnewest : newestBlock history = some (.call callId)) :
    GoesOn serde history (.toolCallArgumentsDelta sender callId delta) state sent := by
  have hactive := hfollows.active
  obtain ⟨init, name, hcontent, hcontent'⟩ :=
    content_argumentsDelta (hasNewest_after proper) hnewest sender delta
  have hopen : (openArguments history callId).isSome = true := may
  have hstate : state.active =
      some (.tool init.length callId (newestArguments history callId)) := by
    rw [hactive, activeBlock, hnewest, hcontent]
    simp [hopen]
  refine ⟨{ state with
      active := some (.tool init.length callId (newestArguments history callId ++ delta)) },
    [.contentBlockDelta init.length (.inputJsonDelta delta)], ?_, ?_, ?_, ?_⟩
  · simp [StreamState.react, hstate]
  · rw [accumulator_concat, hcontent', hfollows.next, hcontent]
    simp
  · rw [accumulator_concat, hcontent']
    simp [activeBlock, nextBlock, hnewest, trackCall, hopen, ModelEvent.addedArguments]
  · rw [accumulator_concat, hcontent', reassembleMessage_append, List.foldl_cons, List.foldl_nil,
      MessageClient.read, hfollows.client, hcontent, List.map_append, List.map_singleton,
      modify_received]
    simp [OutputBlock.received, BlockDelta.content]

theorem goesOn_completed (hfollows : Follows history state sent) {sender : RequestId}
    (may : MayCome history (.toolCallCompleted sender callId arguments))
    (h : ¬ Breaks serde history (.toolCallCompleted sender callId arguments)) :
    GoesOn serde history (.toolCallCompleted sender callId arguments) state sent := by
  obtain ⟨hnewest, hclosable⟩ := not_or.mp h
  rw [not_not] at hnewest
  obtain ⟨stops, hclosing, hstops⟩ := closing_closable hfollows.active hclosable
  have hopen : openArguments history callId = some arguments := may
  obtain ⟨index, hstate⟩ : ∃ index, state.active =
      some (.tool index callId (newestArguments history callId)) := by
    rw [hfollows.active, activeBlock, hnewest]
    simp [hopen]
  have hreact : state.react serde (.toolCallCompleted sender callId arguments) =
      .ok ({ state with active := none }, stops) := by
    rw [← hclosing fun closed events => .ok (closed, events)]
    simp only [StreamState.react, hstate, if_true]
  refine ⟨_, _, hreact, ?_, ?_, ?_⟩
  · simpa [MessageAccumulator.apply] using hfollows.next
  · simp [activeBlock, nextBlock, hnewest, trackCall]
  · rw [reassembleMessage_append, hstops, hfollows.client]
    simp [MessageAccumulator.apply]

/-- The stream goes on at every other event. -/
theorem goesOn_of_not_breaks (proper : Proper history) (may : MayCome history event)
    (hfollows : Follows history state sent) (h : ¬ Breaks serde history event) :
    GoesOn serde history event state sent := by
  cases event with
  | textDelta sender text => exact goesOn_textDelta proper hfollows h
  | toolCallStarted sender started name => exact goesOn_started hfollows may h
  | toolCallArgumentsDelta sender extended delta =>
    exact goesOn_argumentsDelta proper hfollows may (not_not.mp h)
  | toolCallCompleted sender completed arguments => exact goesOn_completed hfollows may h
  | finished sender reason usage => exact may.elim
  | accepted sender =>
    refine ⟨state, [], rfl, ?_⟩
    rw [List.append_nil]
    apply hfollows.skip
    · simp [MessageAccumulator.apply]
    · simp [activeBlock, nextBlock, trackCall, ModelEvent.addedArguments]
  | reasoningDelta sender text =>
    refine ⟨state, [], rfl, ?_⟩
    rw [List.append_nil]
    apply hfollows.skip
    · simp [MessageAccumulator.apply]
    · simp [activeBlock, nextBlock, trackCall, ModelEvent.addedArguments]
  | usage sender usage finalUpdate =>
    have hsame : Follows history { state with usage } sent :=
      ⟨hfollows.next, hfollows.active, hfollows.client⟩
    refine ⟨{ state with usage }, [], rfl, ?_⟩
    rw [List.append_nil]
    apply hsame.skip
    · simp [MessageAccumulator.apply]
    · simp [activeBlock, nextBlock, trackCall, ModelEvent.addedArguments]

end Locus.Anthropic
