import Locus.OpenAi.ItemEnds

/-!
# The output array of a response

The stream knows whether an item has begun, the accumulator looks at whether its text is
still empty. The array lists the announced items exactly if no further delta comes while
all deltas so far are empty.
-/

namespace Locus.OpenAi

open Locus.Core Locus.Lib Locus.ModelIo Locus.Parser

/-- An item without its content, as it is announced. -/
def OutputItem.announced : OutputItem → OutputItem
  | .message id _ _ => .message id "in_progress" []
  | .reasoning id _ _ => .reasoning id "in_progress" []
  | .functionCall id callId name _ _ => .functionCall id callId name [] "in_progress"

/-- The output arrays of the completed responses in a stream. -/
def completedOutputs (sent : List ResponseEvent) : List (List OutputItem) :=
  sent.filterMap fun
    | .completed response => some response.output
    | _ => none

/-- The stream and the collected response have one output array. It has one entry for each
announced item, under the index of the announcement. -/
def OutputAgrees (requestId model : String) (events : List ModelEvent) : Prop :=
  ∃ response, collectResponse requestId model (events.map .ok) = .ok response ∧
    completedOutputs (responsesSse requestId model (events.map .ok)) = [response.output] ∧
    ∀ k, (response.output[k]?.map OutputItem.announced).toList =
      addedAt k (responsesSse requestId model (events.map .ok))

/-- No text comes while all text so far is empty, and no reasoning while all reasoning is. -/
def HasContent (before : List ModelEvent) : ModelEvent → Prop
  | .textDelta _ _ => .text ∈ itemsOf before → visibleText before ≠ []
  | .reasoningDelta _ _ => .reasoning ∈ itemsOf before → reasoningText before ≠ []
  | _ => True

instance (before : List ModelEvent) : DecidablePred (HasContent before)
  | .textDelta _ _ =>
    inferInstanceAs (Decidable (.text ∈ itemsOf before → visibleText before ≠ []))
  | .reasoningDelta _ _ =>
    inferInstanceAs (Decidable (.reasoning ∈ itemsOf before → reasoningText before ≠ []))
  | .accepted _ | .toolCallStarted _ _ _ | .toolCallArgumentsDelta _ _ _
  | .toolCallCompleted _ _ _ | .usage _ _ _ | .finished _ _ _ => isTrue trivial

/-- The key of an item. -/
def Item.key : Item → OutputItemKey
  | .text => .text
  | .reasoning => .reasoning
  | .call callId _ => .tool callId

variable {requestId model : String} {history : List ModelEvent} {event : ModelEvent}
  {callId name : String}

/-- What has content has begun, if whatever adds to it begins it. -/
theorem mem_itemsOf_of_content {item : Item} {added : ModelEvent → Text}
    (hadds : ∀ event items, added event ≠ [] → item ∉ items → newItem items event = some item)
    (h : history.flatMap added ≠ []) : item ∈ itemsOf history := by
  induction history using List.reverseRecOn with
  | nil => exact (h rfl).elim
  | append_singleton history event ih =>
    rw [itemsOf_concat, List.mem_append]
    by_cases hmem : item ∈ itemsOf history
    · exact .inl hmem
    · right
      have hadded : added event ≠ [] := by
        intro hnil
        rw [List.flatMap_append, List.flatMap_singleton, hnil, List.append_nil] at h
        exact hmem (ih h)
      rw [hadds event _ hadded hmem]
      exact List.mem_singleton_self item

theorem text_mem_itemsOf (h : visibleText history ≠ []) : .text ∈ itemsOf history := by
  refine mem_itemsOf_of_content (fun event items hadded hmem => ?_) h
  cases event with
  | textDelta sender text => exact if_neg hmem
  | _ => exact (hadded rfl).elim

theorem reasoning_mem_itemsOf (h : reasoningText history ≠ []) : .reasoning ∈ itemsOf history := by
  refine mem_itemsOf_of_content (fun event items hadded hmem => ?_) h
  cases event with
  | reasoningDelta sender text => exact if_neg hmem
  | _ => exact (hadded rfl).elim

/-- What an event adds to the order. -/
theorem outputOrder_concat : (OutputAccumulator.after (history ++ [event])).outputOrder =
    (OutputAccumulator.after history).outputOrder ++
      match event with
      | .textDelta _ _ => if visibleText history = [] then [.text] else []
      | .reasoningDelta _ _ => if reasoningText history = [] then [.reasoning] else []
      | .toolCallStarted _ callId _ => [.tool callId]
      | _ => [] := by
  obtain ⟨htext, hreasoning⟩ := text_after history
  rw [after_concat]
  cases event with
  | textDelta sender text =>
    simp only [OutputAccumulator.apply, htext]
    split <;> simp
  | reasoningDelta sender text =>
    simp only [OutputAccumulator.apply, hreasoning]
    split <;> simp
  | _ => simp [OutputAccumulator.apply]

/-- The order gets an entry for the new item, or another one for an item that still has no
content. -/
theorem outputOrder_step : (HasContent history event ∧
      (OutputAccumulator.after (history ++ [event])).outputOrder =
        (OutputAccumulator.after history).outputOrder ++
          ((newItem (itemsOf history) event).map Item.key).toList) ∨
    (¬ HasContent history event ∧ newItem (itemsOf history) event = none ∧
      ∃ item ∈ itemsOf history, (OutputAccumulator.after (history ++ [event])).outputOrder =
        (OutputAccumulator.after history).outputOrder ++ [item.key]) := by
  rw [outputOrder_concat]
  cases event with
  | textDelta sender text =>
    by_cases hmem : .text ∈ itemsOf history
    · by_cases htext : visibleText history = []
      · right
        refine ⟨by simp [HasContent, hmem, htext], by simp [newItem, hmem], .text, hmem, ?_⟩
        simp [htext, Item.key]
      · left
        simp [HasContent, newItem, hmem, htext]
    · have htext : visibleText history = [] := by
        by_contra hne
        exact hmem (text_mem_itemsOf hne)
      left
      simp [HasContent, newItem, hmem, htext, Item.key]
  | reasoningDelta sender text =>
    by_cases hmem : .reasoning ∈ itemsOf history
    · by_cases htext : reasoningText history = []
      · right
        refine ⟨by simp [HasContent, hmem, htext], by simp [newItem, hmem], .reasoning, hmem, ?_⟩
        simp [htext, Item.key]
      · left
        simp [HasContent, newItem, hmem, htext]
    · have htext : reasoningText history = [] := by
        by_contra hne
        exact hmem (reasoning_mem_itemsOf hne)
      left
      simp [HasContent, newItem, hmem, htext, Item.key]
  | _ =>
    left
    simp [HasContent, newItem, Item.key]

/-- With content the order is that of the items. -/
theorem outputOrder_eq (h : Throughout HasContent history) :
    (OutputAccumulator.after history).outputOrder = (itemsOf history).map Item.key := by
  induction history using List.reverseRecOn with
  | nil => rfl
  | append_singleton history event ih =>
    obtain ⟨hbefore, hlast⟩ := throughout_concat.mp h
    rcases outputOrder_step with ⟨-, heq⟩ | ⟨hnot, -, -⟩
    · rw [heq, ih hbefore, itemsOf_concat, List.map_append]
      cases newItem (itemsOf history) event <;> rfl
    · exact (hnot hlast).elim

/-- The order has at least one entry for each item, and more without content. -/
theorem length_outputOrder (history : List ModelEvent) :
    (itemsOf history).length ≤ (OutputAccumulator.after history).outputOrder.length ∧
      (¬ Throughout HasContent history →
        (itemsOf history).length < (OutputAccumulator.after history).outputOrder.length) := by
  induction history using List.reverseRecOn with
  | nil => exact ⟨le_refl _, fun h => (h throughout_nil).elim⟩
  | append_singleton history event ih =>
    obtain ⟨hle, hlt⟩ := ih
    rw [itemsOf_concat, List.length_append]
    rcases outputOrder_step with ⟨hcontent, heq⟩ | ⟨-, hnone, item, -, heq⟩
    · have hnew : ((newItem (itemsOf history) event).map Item.key).toList.length =
          (newItem (itemsOf history) event).toList.length := by
        cases newItem (itemsOf history) event <;> rfl
      rw [heq, List.length_append, hnew]
      constructor
      · omega
      · intro hthroughout
        have hbefore : ¬ Throughout HasContent history :=
          fun hbefore => hthroughout (throughout_concat.mpr ⟨hbefore, hcontent⟩)
        have := hlt hbefore
        omega
    · rw [heq, hnone, Option.toList_none, List.length_nil, List.length_append,
        List.length_singleton]
      constructor
      · omega
      · intro _
        omega

/-- A started call is found among the tools. -/
theorem findTool_after (h : Proper history) (hcall : (callId, name) ∈ startedCalls history) :
    findTool (OutputAccumulator.after history).tools callId =
      some ⟨callId, name, callArguments history callId⟩ := by
  have hnodup : ((startedCalls history).map Prod.fst).Nodup := by
    rw [map_fst_startedCalls]
    exact h.nodup
  rw [tools_after h, findTool]
  generalize startedCalls history = calls at hcall hnodup
  induction calls with
  | nil => cases hcall
  | cons call calls ih =>
    rw [List.map_cons, List.nodup_cons] at hnodup
    rcases List.mem_cons.mp hcall with rfl | hmem
    · simp
    · have hne : call.1 ≠ callId := by
        rintro rfl
        exact hnodup.1 (List.mem_map.mpr ⟨_, hmem, rfl⟩)
      simpa [hne] using ih hmem hnodup.2

/-- The entry of an item. -/
theorem itemFor_key (h : Proper history) {item : Item} (hmem : item ∈ itemsOf history) :
    (OutputAccumulator.after history).itemFor requestId item.key =
      some (item.final requestId history) := by
  obtain ⟨htext, hreasoning⟩ := text_after history
  cases item with
  | text => simp [OutputAccumulator.itemFor, Item.key, Item.final, htext]
  | reasoning => simp [OutputAccumulator.itemFor, Item.key, Item.final, hreasoning]
  | call callId name =>
    simp [OutputAccumulator.itemFor, Item.key, Item.final, ToolOutput.value,
      findTool_after h (call_mem_itemsOf.mp hmem)]

/-- The order has only keys of items. -/
theorem mem_outputOrder {key : OutputItemKey}
    (h : key ∈ (OutputAccumulator.after history).outputOrder) :
    ∃ item ∈ itemsOf history, item.key = key := by
  induction history using List.reverseRecOn with
  | nil => cases h
  | append_singleton history event ih =>
    have hold : key ∈ (OutputAccumulator.after history).outputOrder →
        ∃ item ∈ itemsOf (history ++ [event]), item.key = key := by
      intro hmem
      obtain ⟨item, hitem, hkey⟩ := ih hmem
      exact ⟨item, by simp [hitem], hkey⟩
    rcases outputOrder_step with ⟨-, heq⟩ | ⟨-, -, item, hitem, heq⟩
    · rw [heq, List.mem_append] at h
      rcases h with hmem | hnew
      · exact hold hmem
      · cases hitem : newItem (itemsOf history) event with
        | none => simp [hitem] at hnew
        | some item =>
          rw [hitem, Option.map_some, Option.toList_some, List.mem_singleton] at hnew
          exact ⟨item, by simp [hitem], hnew.symm⟩
    · rw [heq, List.mem_append, List.mem_singleton] at h
      rcases h with hmem | rfl
      · exact hold hmem
      · exact ⟨item, by simp [hitem], rfl⟩

/-- Every entry of the order has an item. -/
theorem length_filterMap_outputOrder (h : Proper history) :
    ((OutputAccumulator.after history).outputOrder.filterMap
        ((OutputAccumulator.after history).itemFor requestId)).length =
      (OutputAccumulator.after history).outputOrder.length := by
  rw [List.filterMap_length_eq_length]
  intro key hkey
  obtain ⟨item, hmem, rfl⟩ := mem_outputOrder hkey
  rw [itemFor_key h hmem]
  rfl

/-- With content the array has the items with their full content. -/
theorem filterMap_outputOrder (h : Proper history) (hcontent : Throughout HasContent history) :
    (OutputAccumulator.after history).outputOrder.filterMap
        ((OutputAccumulator.after history).itemFor requestId) =
      (itemsOf history).map fun item => item.final requestId history := by
  rw [outputOrder_eq hcontent, List.filterMap_map]
  have hsome : ∀ item ∈ itemsOf history,
      ((OutputAccumulator.after history).itemFor requestId ∘ Item.key) item =
        some (item.final requestId history) :=
    fun item hmem => itemFor_key h hmem
  rw [List.filterMap_congr hsome, List.filterMap_eq_map']

@[simp] theorem completedOutputs_append (sent rest : List ResponseEvent) :
    completedOutputs (sent ++ rest) = completedOutputs sent ++ completedOutputs rest :=
  List.filterMap_append

/-- Only the last event of a stream completes the response. -/
theorem completedOutputs_sent {state : ResponsesState} :
    completedOutputs (state.sent requestId model event) = [] := by
  cases event with
  | textDelta sender text =>
    simp only [ResponsesState.sent, ResponsesState.react, ResponsesState.lastToolDone]
    split <;> simp [completedOutputs]
  | reasoningDelta sender text =>
    simp only [ResponsesState.sent, ResponsesState.react, ResponsesState.lastToolDone]
    split <;> simp [completedOutputs]
  | toolCallCompleted sender completed arguments =>
    simp only [ResponsesState.sent, ResponsesState.react, ResponsesState.lastToolDone]
    split <;> simp [completedOutputs]
  | finished sender reason usage =>
    simp only [ResponsesState.sent, ResponsesState.react, ResponsesState.lastToolDone]
    split <;> split <;> simp [completedOutputs]
  | _ => simp [ResponsesState.sent, ResponsesState.react, ResponsesState.lastToolDone,
      completedOutputs]

theorem completedOutputs_sentFor (history : List ModelEvent) :
    completedOutputs (sentFor requestId model history) = [] := by
  induction history using List.reverseRecOn with
  | nil => rfl
  | append_singleton history event ih =>
    rw [sentFor_concat, completedOutputs_append, ih, completedOutputs_sent]
    rfl

/-- The end of the response leaves its output array as it is. -/
theorem output_finished (history : List ModelEvent) (sender : RequestId)
    (reason : ModelFinishReason) (usage : Usage) :
    ((OutputAccumulator.after (history ++ [ModelEvent.finished sender reason usage])).responseValue
        requestId model).output =
      (OutputAccumulator.after history).outputOrder.filterMap
        ((OutputAccumulator.after history).itemFor requestId) := by
  rw [after_concat]
  rfl

/-- An item with its content is announced as it begins. -/
theorem announced_final (item : Item) :
    (item.final requestId history).announced = item.opening requestId := by
  cases item <;> rfl

/-- The output array of a well-formed sequence lists the announced items exactly if no
further delta comes while all deltas of its kind are empty. -/
theorem outputAgrees_iff {events : List ModelEvent} (h : WellFormed events) :
    OutputAgrees requestId model events ↔ Throughout HasContent events := by
  obtain ⟨body, sender, reason, usage, proper, rfl⟩ := h
  have hcollect : collectResponse requestId model
      ((body ++ [ModelEvent.finished sender reason usage]).map .ok) =
      .ok ((OutputAccumulator.after
        (body ++ [ModelEvent.finished sender reason usage])).responseValue requestId model) := by
    rw [collectResponse, collect_map_ok]
    rfl
  have hcontent : Throughout HasContent (body ++ [ModelEvent.finished sender reason usage]) ↔
      Throughout HasContent body := by
    simp [throughout_concat, HasContent]
  rw [hcontent]
  constructor
  · rintro ⟨response, hresponse, -, hentries⟩
    rw [hcollect, Except.ok.injEq] at hresponse
    subst hresponse
    by_contra hnot
    have hlt := (length_outputOrder body).2 hnot
    have hentry := hentries (itemsOf body).length
    rw [addedAt_responsesSse proper, output_finished] at hentry
    rw [← length_filterMap_outputOrder proper] at hlt
    rw [List.getElem?_eq_getElem hlt, List.getElem?_eq_none (le_refl _)] at hentry
    cases hentry
  · intro hthroughout
    refine ⟨_, hcollect, ?_, ?_⟩
    · rw [responsesSse_finished proper, completedOutputs_append, completedOutputs_append,
        completedOutputs_sentFor, completedOutputs_sent]
      rfl
    · intro k
      rw [addedAt_responsesSse proper, output_finished, filterMap_outputOrder proper hthroughout,
        List.getElem?_map, Option.map_map]
      congr 2
      funext item
      exact announced_final item

/-- Text that is not empty is listed once. -/
theorem outputAgrees_sampleSequence : OutputAgrees "request" "model" sampleSequence :=
  (outputAgrees_iff wellFormed_sampleSequence).mpr (by decide)

/-- Text that begins with an empty delta. -/
def sampleEmptyDelta : List ModelEvent :=
  [.accepted "request", .textDelta "request" [], .textDelta "request" "a".toList,
    .finished "request" .stop ⟨1, 1⟩]

/-- There the message is announced once and listed twice. -/
theorem not_outputAgrees_sampleEmptyDelta : WellFormed sampleEmptyDelta ∧
    ¬ OutputAgrees "request" "model" sampleEmptyDelta := by
  refine ⟨⟨sampleEmptyDelta.dropLast, _, _, _, proper_of_throughout (by decide), rfl⟩, ?_⟩
  rintro ⟨response, hresponse, -, hentries⟩
  cases hresponse
  exact absurd (hentries 1) (by decide)

end Locus.OpenAi
