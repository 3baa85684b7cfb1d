import Locus.OpenAi.Streaming

/-!
# The items in a stream of a response

An item is announced once, under the next free index. A completion reports the end of the
call that was started last, whichever call is completed.
-/

namespace Locus.OpenAi

open Std (TreeMap)
open Locus.Core Locus.Lib Locus.ModelIo Locus.Parser

/-- The items announced under an index. -/
def addedAt (index : ℕ) (events : List ResponseEvent) : List OutputItem :=
  events.filterMap fun
    | .outputItemAdded outputIndex item => if outputIndex = index then some item else none
    | _ => none

/-- The items ended under an index. -/
def doneAt (index : Option ℕ) (events : List ResponseEvent) : List OutputItem :=
  events.filterMap fun
    | .outputItemDone outputIndex item => if outputIndex = index then some item else none
    | _ => none

variable {requestId model : String} {history : List ModelEvent} {event : ModelEvent}
  {state : ResponsesState} {callId name : String} {arguments : Text}

@[simp] theorem addedAt_append (k : ℕ) (events rest : List ResponseEvent) :
    addedAt k (events ++ rest) = addedAt k events ++ addedAt k rest :=
  List.filterMap_append

@[simp] theorem doneAt_append (index : Option ℕ) (events rest : List ResponseEvent) :
    doneAt index (events ++ rest) = doneAt index events ++ doneAt index rest :=
  List.filterMap_append

/-- An event announces the item that begins with it. -/
theorem Indexed.addedAt_sent (h : Indexed history state) (k : ℕ) :
    addedAt k (state.sent requestId model event) =
      if k = (itemsOf history).length then
        ((newItem (itemsOf history) event).map fun item => item.opening requestId).toList
      else [] := by
  cases event with
  | textDelta sender text =>
    by_cases hmem : .text ∈ itemsOf history
    · simp [ResponsesState.sent, ResponsesState.react, h.textStarted.mpr hmem, newItem, hmem,
        ResponsesState.lastToolDone, addedAt]
    · have hstarted := h.textStarted_eq_false hmem
      by_cases heq : k = (itemsOf history).length <;>
        simp [ResponsesState.sent, ResponsesState.react, hstarted, newItem, hmem,
          ResponsesState.lastToolDone, addedAt, h.next, heq, eq_comm, Item.opening]
  | reasoningDelta sender text =>
    by_cases hmem : .reasoning ∈ itemsOf history
    · simp [ResponsesState.sent, ResponsesState.react, h.reasoningStarted.mpr hmem, newItem, hmem,
        ResponsesState.lastToolDone, addedAt]
    · have hstarted := h.reasoningStarted_eq_false hmem
      by_cases heq : k = (itemsOf history).length <;>
        simp [ResponsesState.sent, ResponsesState.react, hstarted, newItem, hmem,
          ResponsesState.lastToolDone, addedAt, h.next, heq, eq_comm, Item.opening]
  | toolCallStarted sender started name =>
    by_cases heq : k = (itemsOf history).length <;>
      simp [ResponsesState.sent, ResponsesState.react, newItem, ResponsesState.lastToolDone,
        addedAt, h.next, heq, eq_comm, Item.opening, ResponsesState.startedCall]
  | toolCallCompleted sender completed arguments =>
    simp only [ResponsesState.sent, ResponsesState.react, ResponsesState.lastToolDone]
    split <;> simp [addedAt, newItem]
  | finished sender reason usage =>
    simp only [ResponsesState.sent, ResponsesState.react, ResponsesState.lastToolDone]
    split <;> split <;> simp [addedAt, newItem]
  | _ =>
    simp [ResponsesState.sent, ResponsesState.react, ResponsesState.lastToolDone, addedAt, newItem]

/-- An entry of a list with at most one more item. -/
theorem toList_getElem?_append {α β : Type*} (items : List α) (new : Option α) (f : α → β)
    (k : ℕ) : ((items ++ new.toList)[k]?.map f).toList =
      (items[k]?.map f).toList ++ if k = items.length then (new.map f).toList else [] := by
  cases new with
  | none => simp
  | some item =>
    rcases lt_trichotomy k items.length with hlt | rfl | hgt
    · have hne : k ≠ items.length := by omega
      simp [List.getElem?_append_left hlt, hne]
    · simp
    · have hout : (items ++ [item])[k]? = none := by simp; omega
      have hnone : items[k]? = none := by simp; omega
      have hne : k ≠ items.length := by omega
      simp [hout, hnone, hne]

/-- Every item is announced once, under its own index. -/
theorem addedAt_sentFor (h : Proper history) (k : ℕ) : addedAt k (sentFor requestId model history) =
    ((itemsOf history)[k]?.map fun item => item.opening requestId).toList := by
  induction h with
  | nil => rfl
  | snoc proper may ih =>
    rw [sentFor_concat, addedAt_append, ih, (indexed_stateAfter proper).addedAt_sent,
      itemsOf_concat, toList_getElem?_append]

/-- An item keeps its index. -/
theorem getElem?_itemsOf_concat {k : ℕ} {item : Item} (h : (itemsOf history)[k]? = some item)
    (event : ModelEvent) : (itemsOf (history ++ [event]))[k]? = some item := by
  obtain ⟨hlt, -⟩ := List.getElem?_eq_some_iff.mp h
  rw [itemsOf_concat, List.getElem?_append_left hlt, h]

/-- A call has one index. -/
theorem Indexed.call_unique (h : Indexed history state) {k k' : ℕ} {name' : String}
    (hk : (itemsOf history)[k]? = some (.call callId name))
    (hk' : (itemsOf history)[k']? = some (.call callId name')) : k = k' := by
  have hfirst := (h.toolIndex callId k).mpr ⟨name, hk⟩
  have hsecond := (h.toolIndex callId k').mpr ⟨name', hk'⟩
  rw [hfirst] at hsecond
  exact Option.some.inj hsecond

/-- A call with an index was started. -/
theorem started_of_getElem? {k : ℕ} (h : (itemsOf history)[k]? = some (.call callId name)) :
    callId ∈ startedCallIds history := by
  rw [← map_fst_startedCalls]
  exact List.mem_map_of_mem (call_mem_itemsOf.mp (List.mem_of_getElem? h))

/-- A started call has an index. -/
theorem getElem?_of_started (h : callId ∈ startedCallIds history) :
    ∃ (k : ℕ) (name : String), (itemsOf history)[k]? = some (.call callId name) := by
  rw [← map_fst_startedCalls] at h
  obtain ⟨⟨_, name⟩, hmem, rfl⟩ := List.mem_map.mp h
  obtain ⟨k, hk⟩ := List.mem_iff_getElem?.mp (call_mem_itemsOf.mpr hmem)
  exact ⟨k, name, hk⟩

/-- Only completions and the end of the response report the end of an item. -/
theorem doneAt_sent (hcompletion : ¬ event.IsCompletion)
    (hfinished : ∀ sender reason usage, event ≠ .finished sender reason usage)
    (index : Option ℕ) : doneAt index (state.sent requestId model event) = [] := by
  cases event with
  | textDelta sender text =>
    simp only [ResponsesState.sent, ResponsesState.react, ResponsesState.lastToolDone]
    split <;> simp [doneAt]
  | reasoningDelta sender text =>
    simp only [ResponsesState.sent, ResponsesState.react, ResponsesState.lastToolDone]
    split <;> simp [doneAt]
  | toolCallCompleted sender completed arguments =>
    exact (hcompletion ⟨sender, completed, arguments, rfl⟩).elim
  | finished sender reason usage => exact (hfinished sender reason usage rfl).elim
  | _ => simp [ResponsesState.sent, ResponsesState.react, ResponsesState.lastToolDone, doneAt]

/-- A completion reports the end of the call that was started last. -/
theorem doneAt_completed (proper : Proper history) {sender : RequestId}
    (may : MayCome history (.toolCallCompleted sender callId arguments)) :
    ∃ (k : ℕ) (last name : String), (startedCallIds history).getLast? = some last ∧
      (itemsOf history)[k]? = some (.call last name) ∧
      ∀ index, doneAt index ((stateAfter requestId model history).sent requestId model
          (.toolCallCompleted sender callId arguments)) =
        if some k = index then [(Item.call last name).final requestId history] else [] := by
  have indexed : Indexed history (stateAfter requestId model history) := indexed_stateAfter proper
  have hnonempty : startedCalls history ≠ [] := by
    intro hnil
    have hstarted := proper.started_of_open may
    rw [← map_fst_startedCalls, hnil] at hstarted
    cases hstarted
  cases hlast : (startedCalls history).getLast? with
  | none => exact (hnonempty (List.getLast?_eq_none_iff.mp hlast)).elim
  | some call =>
    obtain ⟨last, name⟩ := call
    have hmem := call_mem_itemsOf.mpr (List.mem_of_getLast? hlast)
    obtain ⟨k, hk⟩ := List.mem_iff_getElem?.mp hmem
    have hindex := (indexed.toolIndex last k).mpr ⟨name, hk⟩
    have htools := tools_after (proper.snoc may)
    have htool : ((OutputAccumulator.after history).apply
        (.toolCallCompleted sender callId arguments)).tools.getLast? =
        some ⟨last, name, callArguments history last⟩ := by
      rw [← after_concat, htools, startedCalls_concat]
      simp [startedCall, hlast, ModelEvent.addedArguments]
    refine ⟨k, last, name, ?_, hk, ?_⟩
    · rw [← map_fst_startedCalls, List.getLast?_map, hlast]
      rfl
    · intro index
      have hdone : (stateAfter requestId model history).sent requestId model
          (.toolCallCompleted sender callId arguments) =
          [.functionCallArgumentsDone callId
              (stateAfter requestId model history).toolOutputIndices[callId]? arguments,
            .outputItemDone (some k) ((Item.call last name).final requestId history)] := by
        simp [ResponsesState.sent, ResponsesState.next, ResponsesState.react,
          ResponsesState.lastToolDone, indexed.output, htool, hindex, ToolOutput.value, Item.final]
      rw [hdone]
      by_cases heq : some k = index <;> simp [doneAt, heq]

/-- No end is reported under an index that is not that of a call. -/
theorem doneAt_sentFor_of_not_call (h : Proper history) {index : Option ℕ}
    (hcall : ∀ k callId name, index = some k →
      (itemsOf history)[k]? ≠ some (.call callId name)) :
    doneAt index (sentFor requestId model history) = [] := by
  induction h with
  | nil => rfl
  | @snoc history event proper may ih =>
    have hold : ∀ k callId name, index = some k →
        (itemsOf history)[k]? ≠ some (.call callId name) := by
      intro k callId name hindex hk
      exact hcall k callId name hindex (getElem?_itemsOf_concat hk event)
    rw [sentFor_concat, doneAt_append, ih hold, List.nil_append]
    by_cases hcompletion : event.IsCompletion
    · obtain ⟨sender, completed, arguments, rfl⟩ := hcompletion
      obtain ⟨k, last, name, -, hk, hdone⟩ := doneAt_completed proper may
      rw [hdone, if_neg]
      intro hindex
      exact hold k last name hindex.symm hk
    · apply doneAt_sent hcompletion
      rintro sender reason usage rfl
      exact may

end Locus.OpenAi
