import Locus.OpenAi.Items
import Locus.OpenAi.Responses

/-!
# The indices of a stream

The stream of a response keeps the indices of its items in variables and in a map of their
own. They are the positions of the items in the order in which they begin.
-/

namespace Locus.OpenAi

open Std (TreeMap)
open Locus.Core Locus.Lib Locus.ModelIo Locus.Parser

/-- The variables of the stream after these events. -/
def stateAfter (requestId model : String) (history : List ModelEvent) : ResponsesState :=
  history.foldl (ResponsesState.next requestId model) {}

/-- What the stream sends for these events, if none of them is the last. -/
def sentFor (requestId model : String) (history : List ModelEvent) : List ResponseEvent :=
  outputs (ResponsesState.next requestId model) (ResponsesState.sent requestId model) {} history

/-- The indices in the variables of the stream are those of the items. -/
structure Indexed (history : List ModelEvent) (state : ResponsesState) : Prop where
  output : state.output = .after history
  next : state.nextOutputIndex = (itemsOf history).length
  textStarted : state.textStarted = true ↔ .text ∈ itemsOf history
  textIndex : ∀ k, state.textOutputIndex = some k ↔ (itemsOf history)[k]? = some .text
  reasoningStarted : state.reasoningStarted = true ↔ .reasoning ∈ itemsOf history
  reasoningIndex : ∀ k, state.reasoningOutputIndex = some k ↔
    (itemsOf history)[k]? = some .reasoning
  toolIndex : ∀ callId k, state.toolOutputIndices[callId]? = some k ↔
    ∃ name, (itemsOf history)[k]? = some (Item.call callId name)

variable {requestId model : String} {history : List ModelEvent} {event : ModelEvent}
  {state : ResponsesState}

@[simp] theorem stateAfter_concat : stateAfter requestId model (history ++ [event]) =
    (stateAfter requestId model history).next requestId model event := by
  simp [stateAfter]

@[simp] theorem sentFor_concat : sentFor requestId model (history ++ [event]) =
    sentFor requestId model history ++
      (stateAfter requestId model history).sent requestId model event :=
  outputs_concat _ _ _

theorem Indexed.textStarted_eq_false (h : Indexed history state)
    (hmem : .text ∉ itemsOf history) : state.textStarted = false := by
  simpa [hmem] using h.textStarted

theorem Indexed.reasoningStarted_eq_false (h : Indexed history state)
    (hmem : .reasoning ∉ itemsOf history) : state.reasoningStarted = false := by
  simpa [hmem] using h.reasoningStarted

/-- One more event keeps the indices. -/
theorem Indexed.next_concat (h : Indexed history state) (may : MayCome history event) :
    Indexed (history ++ [event]) (state.next requestId model event) := by
  cases event with
  | textDelta sender text =>
    by_cases hmem : .text ∈ itemsOf history
    · have hstarted := h.textStarted.mpr hmem
      constructor <;>
        simp [ResponsesState.next, ResponsesState.react, hstarted, newItem, hmem, h.output, h.next,
          h.textIndex, h.reasoningStarted, h.reasoningIndex, h.toolIndex]
    · have hstarted := h.textStarted_eq_false hmem
      have hold : ∀ k, (itemsOf history)[k]? ≠ some Item.text :=
        fun k hk => hmem (List.mem_of_getElem? hk)
      constructor <;>
        simp [ResponsesState.next, ResponsesState.react, hstarted, newItem, hmem, h.output, h.next,
          h.reasoningStarted, h.reasoningIndex, h.toolIndex, getElem?_concat_eq_some, hold]
  | reasoningDelta sender text =>
    by_cases hmem : .reasoning ∈ itemsOf history
    · have hstarted := h.reasoningStarted.mpr hmem
      constructor <;>
        simp [ResponsesState.next, ResponsesState.react, hstarted, newItem, hmem, h.output, h.next,
          h.textStarted, h.textIndex, h.reasoningIndex, h.toolIndex]
    · have hstarted := h.reasoningStarted_eq_false hmem
      have hold : ∀ k, (itemsOf history)[k]? ≠ some Item.reasoning :=
        fun k hk => hmem (List.mem_of_getElem? hk)
      constructor <;>
        simp [ResponsesState.next, ResponsesState.react, hstarted, newItem, hmem, h.output, h.next,
          h.textStarted, h.textIndex, h.toolIndex, getElem?_concat_eq_some, hold]
  | toolCallStarted sender started name =>
    have hfresh : ∀ (k : ℕ) name, (itemsOf history)[k]? ≠ some (Item.call started name) := by
      intro k name hk
      apply may
      rw [← map_fst_startedCalls]
      exact List.mem_map_of_mem (call_mem_itemsOf.mp (List.mem_of_getElem? hk))
    refine ⟨?_, ?_, ?_, ?_, ?_, ?_, ?_⟩
    case refine_7 =>
      intro callId k
      simp only [ResponsesState.next, ResponsesState.react, TreeMap.getElem?_insert, itemsOf_concat,
        newItem, Option.toList_some, getElem?_concat_eq_some]
      by_cases heq : started = callId
      · subst heq
        simp [hfresh, h.next]
      · simp [heq, h.toolIndex]
    all_goals
      simp [ResponsesState.next, ResponsesState.react, newItem, h.output, h.next, h.textStarted,
        h.textIndex, h.reasoningStarted, h.reasoningIndex, getElem?_concat_eq_some]
  | _ =>
    constructor <;>
      simp [ResponsesState.next, ResponsesState.react, newItem, h.output, h.next, h.textStarted,
        h.textIndex, h.reasoningStarted, h.reasoningIndex, h.toolIndex]

/-- The indices of the stream. -/
theorem indexed_stateAfter (h : Proper history) :
    Indexed history (stateAfter requestId model history) := by
  induction h with
  | nil => constructor <;> simp [stateAfter, OutputAccumulator.after]
  | snoc _ may ih =>
    rw [stateAfter_concat]
    exact ih.next_concat may

/-- A sequence that is not finished yet is sent event by event. -/
theorem responsesSse_append (h : Proper history) (rest : List (Except ApiError ModelEvent)) :
    responsesSse requestId model (history.map .ok ++ rest) = sentFor requestId model history ++
      emitAll (ResponsesState.step requestId model) (stateAfter requestId model history) rest := by
  apply emitAll_outputs
  intro state event hmem
  cases event with
  | finished sender reason usage => exact (h.not_finished hmem).elim
  | _ => rfl

/-- The stream of a finished sequence. -/
theorem responsesSse_finished (h : Proper history) (sender : RequestId)
    (reason : ModelFinishReason) (usage : Usage) :
    responsesSse requestId model ((history ++ [ModelEvent.finished sender reason usage]).map .ok) =
      sentFor requestId model history ++
        ((stateAfter requestId model
          history).sent requestId model (.finished sender reason usage) ++
          [ResponseEvent.completed ((OutputAccumulator.after
            (history ++ [ModelEvent.finished sender reason usage])
            ).responseValue requestId model)]) := by
  have indexed : Indexed history (stateAfter requestId model history) := indexed_stateAfter h
  rw [List.map_append, responsesSse_append h]
  simp [emitAll, ResponsesState.step, ResponsesState.next, ResponsesState.react, indexed.output]

end Locus.OpenAi
