import Locus.Lib.Histories
import Locus.OpenAi.ResponseItems

/-!
# The ends of the items

The end of a call is reported for the tool that was started last, so every item has its
own end exactly if each call is completed before the next one is started.
-/

namespace Locus.OpenAi

open Locus.Core Locus.Lib Locus.ModelIo Locus.Parser

/-- Every item is announced once and ended once, with its full content, under its own
index, and nothing else is. -/
def ReportsItems (requestId : String) (events : List ModelEvent) (sent : List ResponseEvent) :
    Prop :=
  (∀ k, addedAt k sent = ((itemsOf events)[k]?.map fun item => item.opening requestId).toList) ∧
  (∀ k, doneAt (some k) sent =
    ((itemsOf events)[k]?.map fun item => item.final requestId events).toList) ∧
  doneAt none sent = []

/-- Only the call that was started last is completed. -/
def CompletesLast (before : List ModelEvent) : ModelEvent → Prop
  | .toolCallCompleted _ callId _ => (startedCallIds before).getLast? = some callId
  | _ => True

instance (before : List ModelEvent) : DecidablePred (CompletesLast before)
  | .toolCallCompleted _ callId _ =>
    inferInstanceAs (Decidable ((startedCallIds before).getLast? = some callId))
  | .accepted _ | .textDelta _ _ | .reasoningDelta _ _ | .toolCallStarted _ _ _
  | .toolCallArgumentsDelta _ _ _ | .usage _ _ _ | .finished _ _ _ => isTrue trivial

/-- Each call is completed while it is the one that was started last. -/
def Sequential (events : List ModelEvent) : Prop :=
  Throughout CompletesLast events

variable {requestId model : String} {history : List ModelEvent} {event : ModelEvent}
  {callId name : String} {k : ℕ}

/-- A call that gets no arguments keeps its content. -/
theorem final_call_concat (h : event.addedArguments callId = []) :
    (Item.call callId name).final requestId (history ++ [event]) =
      (Item.call callId name).final requestId history := by
  simp [Item.final, h]

/-- Only arguments of the call add to them. -/
theorem addedArguments_of_closed (may : MayCome history event)
    (hclosed : openArguments history callId = none) : event.addedArguments callId = [] := by
  cases event with
  | toolCallArgumentsDelta sender extended delta =>
    have hne : extended ≠ callId := by
      rintro rfl
      simp [MayCome, hclosed] at may
    simp [ModelEvent.addedArguments, hne]
  | _ => rfl

/-- A started call is closed by its completion only. -/
theorem closed_concat_iff (may : MayCome history event) (h : callId ∈ startedCallIds history) :
    openArguments (history ++ [event]) callId = none ↔
      openArguments history callId = none ∨
        ∃ sender arguments, event = .toolCallCompleted sender callId arguments := by
  rw [openArguments_concat]
  cases event with
  | toolCallStarted sender started name =>
    have hne : started ≠ callId := by
      rintro rfl
      exact may h
    simp [trackCall, hne]
  | toolCallArgumentsDelta sender extended delta =>
    by_cases heq : extended = callId <;> simp [trackCall, heq]
  | toolCallCompleted sender completed arguments =>
    by_cases heq : completed = callId <;> simp [trackCall, heq]
  | _ => simp [trackCall]

/-- A call among the items was there before, or it is the one that starts. -/
theorem call_getElem?_concat
    (h : (itemsOf (history ++ [event]))[k]? = some (.call callId name)) :
    (itemsOf history)[k]? = some (.call callId name) ∨
      ((itemsOf history)[k]? = none ∧ ∃ sender, event = .toolCallStarted sender callId name) := by
  rw [itemsOf_concat] at h
  cases hnew : newItem (itemsOf history) event with
  | none =>
    left
    simpa [hnew] using h
  | some item =>
    rw [hnew, Option.toList_some, getElem?_concat_eq_some] at h
    rcases h with hold | ⟨hlength, rfl⟩
    · exact .inl hold
    · right
      refine ⟨by simp [← hlength], ?_⟩
      cases event with
      | textDelta sender text =>
        simp only [newItem] at hnew
        split at hnew <;> cases hnew
      | reasoningDelta sender text =>
        simp only [newItem] at hnew
        split at hnew <;> cases hnew
      | toolCallStarted sender started name' =>
        cases hnew
        exact ⟨sender, rfl⟩
      | _ => cases hnew

/-- No end is reported under the index of another item, or of none. -/
theorem doneAt_of_not_call (h : Proper history)
    (hk : ∀ callId name, (itemsOf history)[k]? ≠ some (.call callId name)) :
    doneAt (some k) (sentFor requestId model history) = [] := by
  apply doneAt_sentFor_of_not_call h
  intro k' callId name heq
  cases heq
  exact hk callId name

/-- A completion reports the call that was started last. -/
theorem doneAt_last (proper : Proper history) (may : MayCome history event)
    (hcompletion : event.IsCompletion) (hlast : (startedCallIds history).getLast? = some callId)
    (hk : (itemsOf history)[k]? = some (.call callId name)) :
    doneAt (some k) ((stateAfter requestId model history).sent requestId model event) =
      [(Item.call callId name).final requestId history] := by
  have indexed : Indexed history (stateAfter requestId model history) := indexed_stateAfter proper
  obtain ⟨sender, completed, arguments, rfl⟩ := hcompletion
  obtain ⟨k', last, name', hlast', hk', hdone⟩ := doneAt_completed proper may
  rw [hlast] at hlast'
  cases hlast'
  have hindex := indexed.call_unique hk hk'
  subst hindex
  rw [hk] at hk'
  cases hk'
  rw [hdone, if_pos rfl]

/-- No other call is reported. -/
theorem doneAt_not_last (proper : Proper history) (may : MayCome history event)
    (hk : (itemsOf history)[k]? = some (.call callId name))
    (hother : event.IsCompletion → (startedCallIds history).getLast? ≠ some callId) :
    doneAt (some k) ((stateAfter requestId model history).sent requestId model event) = [] := by
  by_cases hcompletion : event.IsCompletion
  · have hne := hother hcompletion
    obtain ⟨sender, completed, arguments, rfl⟩ := hcompletion
    obtain ⟨k', last, name', hlast, hk', hdone⟩ := doneAt_completed proper may
    rw [hdone, if_neg]
    intro hindex
    cases hindex
    rw [hk] at hk'
    cases hk'
    exact hne hlast
  · apply doneAt_sent hcompletion
    rintro sender reason usage rfl
    exact may

/-- If the calls follow one another, the end of each completed call is reported once. -/
theorem doneAt_of_sequential (h : Proper history) (hseq : Sequential history)
    (hk : (itemsOf history)[k]? = some (.call callId name)) :
    doneAt (some k) (sentFor requestId model history) =
      if openArguments history callId = none then
        [(Item.call callId name).final requestId history]
      else [] := by
  induction h with
  | nil => cases hk
  | @snoc history event proper may ih =>
    obtain ⟨hbefore, hlast⟩ := throughout_concat.mp hseq
    rw [sentFor_concat, doneAt_append]
    rcases call_getElem?_concat hk with hold | ⟨hnone, sender, rfl⟩
    · have hclosed := closed_concat_iff may (started_of_getElem? hold)
      rw [ih hbefore hold]
      by_cases hends : ∃ sender arguments, event = .toolCallCompleted sender callId arguments
      · have hnow := hclosed.mpr (.inr hends)
        obtain ⟨sender, arguments, rfl⟩ := hends
        have hopen : openArguments history callId ≠ none := by
          rw [may]
          exact Option.some_ne_none _
        rw [if_neg hopen, if_pos hnow, final_call_concat rfl, List.nil_append]
        exact doneAt_last proper may ⟨sender, callId, arguments, rfl⟩ hlast hold
      · have hiff := hclosed.trans (or_iff_left hends)
        have hsent : doneAt (some k) ((stateAfter requestId model history).sent requestId model
            event) = [] := by
          apply doneAt_not_last proper may hold
          rintro ⟨sender, completed, arguments, rfl⟩ hsame
          cases hlast.symm.trans hsame
          exact hends ⟨sender, arguments, rfl⟩
        rw [hsent, List.append_nil]
        by_cases hopen : openArguments history callId = none
        · rw [if_pos hopen, if_pos (hiff.mpr hopen),
            final_call_concat (addedArguments_of_closed may hopen)]
        · rw [if_neg hopen, if_neg (hiff.not.mpr hopen)]
    · have hsent : doneAt (some k) ((stateAfter requestId model history).sent requestId model
          (.toolCallStarted sender callId name)) = [] := by
        apply doneAt_sent
        · rintro ⟨_, _, _, heq⟩
          cases heq
        · intro _ _ _ heq
          cases heq
      rw [doneAt_of_not_call proper (by simp [hnone]), hsent]
      simp [trackCall]

/-- A call that is not the last one started was not the last one before. -/
theorem getLast?_ne_of_concat (may : MayCome history event) (h : callId ∈ startedCallIds history)
    (hne : (startedCallIds history).getLast? ≠ some callId) :
    (startedCallIds (history ++ [event])).getLast? ≠ some callId := by
  rw [startedCallIds_append, startedCallIds_singleton]
  cases event with
  | toolCallStarted sender started name =>
    have hother : started ≠ callId := by
      rintro rfl
      exact may h
    simpa [ModelEvent.startedCallId] using hother
  | _ => simpa [ModelEvent.startedCallId] using hne

/-- If the end of each call is reported, except perhaps for the call that was started
last, the calls follow one another. -/
theorem sequential_of_doneAt (h : Proper history)
    (hdone : ∀ (k : ℕ) callId name, (itemsOf history)[k]? = some (.call callId name) →
      (startedCallIds history).getLast? ≠ some callId →
      doneAt (some k) (sentFor requestId model history) ≠ []) : Sequential history := by
  induction h with
  | nil => exact throughout_nil
  | @snoc history event proper may ih =>
    have hbefore : ∀ (k : ℕ) callId name, (itemsOf history)[k]? = some (.call callId name) →
        (startedCallIds history).getLast? ≠ some callId →
        doneAt (some k) (sentFor requestId model history) ≠ [] := by
      intro k callId name hk hne
      have hnow := hdone k callId name (getElem?_itemsOf_concat hk event)
        (getLast?_ne_of_concat may (started_of_getElem? hk) hne)
      rwa [sentFor_concat, doneAt_append, doneAt_not_last proper may hk fun _ => hne,
        List.append_nil] at hnow
    have hseq := ih hbefore
    refine throughout_concat.mpr ⟨hseq, ?_⟩
    by_contra hother
    obtain ⟨sender, callId, arguments, rfl⟩ : event.IsCompletion := by
      cases event with
      | toolCallCompleted sender callId arguments => exact ⟨sender, callId, arguments, rfl⟩
      | _ => exact (hother trivial).elim
    have hne : (startedCallIds history).getLast? ≠ some callId := hother
    -- A completed call that is not the last one has been reported, so it is closed already.
    obtain ⟨k, name, hk⟩ := getElem?_of_started (proper.started_of_open may)
    have hreported := hbefore k callId name hk hne
    rw [doneAt_of_sequential proper hseq hk, may] at hreported
    exact hreported rfl

/-- The end of the response reports the text and the reasoning, if they have begun. -/
theorem doneAt_finished {state : ResponsesState} {sender : RequestId} {reason : ModelFinishReason}
    {usage : Usage} (index : Option ℕ) :
    doneAt index (state.sent requestId model (.finished sender reason usage)) =
      (if state.textStarted = true ∧ state.textOutputIndex = index then
        [messageItem requestId "completed" state.output.text] else []) ++
      if state.reasoningStarted = true ∧ state.reasoningOutputIndex = index then
        [reasoningItem requestId "completed" state.output.reasoning] else [] := by
  simp only [ResponsesState.sent, ResponsesState.react, ResponsesState.lastToolDone,
    List.append_nil, doneAt_append]
  congr 1
  · by_cases hstarted : state.textStarted = true <;>
      by_cases hindex : state.textOutputIndex = index <;> simp [doneAt, hstarted, hindex]
  · by_cases hstarted : state.reasoningStarted = true <;>
      by_cases hindex : state.reasoningOutputIndex = index <;> simp [doneAt, hstarted, hindex]

section Begun

variable {item : Item} {started : Bool} {index : Option ℕ}

/-- What has begun has an index. -/
theorem begun_iff (hstarted : started = true ↔ item ∈ itemsOf history)
    (hindex : ∀ k, index = some k ↔ (itemsOf history)[k]? = some item) (k : ℕ) :
    (started = true ∧ index = some k) ↔ (itemsOf history)[k]? = some item := by
  rw [hindex, hstarted]
  constructor
  · rintro ⟨-, hk⟩
    exact hk
  · intro hk
    exact ⟨List.mem_of_getElem? hk, hk⟩

theorem not_begun_without_index (hstarted : started = true ↔ item ∈ itemsOf history)
    (hindex : ∀ k, index = some k ↔ (itemsOf history)[k]? = some item) :
    ¬ (started = true ∧ index = none) := by
  rintro ⟨hbegun, hnone⟩
  obtain ⟨k, hk⟩ := List.mem_iff_getElem?.mp (hstarted.mp hbegun)
  rw [(hindex k).mpr hk] at hnone
  cases hnone

end Begun

/-- No end is reported without an index. -/
theorem Indexed.doneAt_finished_none {state : ResponsesState} (h : Indexed history state)
    {sender : RequestId} {reason : ModelFinishReason} {usage : Usage} :
    doneAt none (state.sent requestId model (.finished sender reason usage)) = [] := by
  have htext := not_begun_without_index h.textStarted h.textIndex
  have hreasoning := not_begun_without_index h.reasoningStarted h.reasoningIndex
  rw [doneAt_finished, if_neg htext, if_neg hreasoning]
  rfl

/-- The whole stream announces every item once, under its own index. -/
theorem addedAt_responsesSse (h : Proper history) (sender : RequestId) (reason : ModelFinishReason)
    (usage : Usage) (k : ℕ) :
    addedAt k (responsesSse requestId model
        ((history ++ [ModelEvent.finished sender reason usage]).map .ok)) =
      ((itemsOf history)[k]?.map fun item => item.opening requestId).toList := by
  have indexed : Indexed history (stateAfter requestId model history) := indexed_stateAfter h
  have hcompleted : ∀ response, addedAt k [ResponseEvent.completed response] = [] :=
    fun _ => rfl
  rw [responsesSse_finished h, addedAt_append, addedAt_append, addedAt_sentFor h,
    indexed.addedAt_sent, hcompleted]
  simp [newItem]

/-- What the whole stream reports under an index. -/
theorem doneAt_responsesSse (h : Proper history) (sender : RequestId) (reason : ModelFinishReason)
    (usage : Usage) (k : ℕ) :
    doneAt (some k) (responsesSse requestId model
        ((history ++ [ModelEvent.finished sender reason usage]).map .ok)) =
      match (itemsOf history)[k]? with
      | some (.call _ _) => doneAt (some k) (sentFor requestId model history)
      | some item => [item.final requestId history]
      | none => [] := by
  have indexed : Indexed history (stateAfter requestId model history) := indexed_stateAfter h
  obtain ⟨htext, hreasoning⟩ := text_after history
  have hcompleted : ∀ response, doneAt (some k) [ResponseEvent.completed response] = [] :=
    fun _ => rfl
  rw [responsesSse_finished h, doneAt_append, doneAt_append, doneAt_finished, hcompleted,
    List.append_nil]
  simp only [begun_iff indexed.textStarted indexed.textIndex,
    begun_iff indexed.reasoningStarted indexed.reasoningIndex, indexed.output, htext, hreasoning]
  cases hitem : (itemsOf history)[k]? with
  | none =>
    rw [doneAt_of_not_call h (by simp [hitem])]
    simp
  | some item =>
    cases item with
    | call callId name => simp
    | text =>
      rw [doneAt_of_not_call h (by simp [hitem])]
      simp [Item.final]
    | reasoning =>
      rw [doneAt_of_not_call h (by simp [hitem])]
      simp [Item.final]

/-- The whole stream reports no end without an index. -/
theorem doneAt_none_responsesSse (h : Proper history) (sender : RequestId)
    (reason : ModelFinishReason) (usage : Usage) :
    doneAt none (responsesSse requestId model
        ((history ++ [ModelEvent.finished sender reason usage]).map .ok)) = [] := by
  have indexed : Indexed history (stateAfter requestId model history) := indexed_stateAfter h
  have hnone : doneAt none (sentFor requestId model history) = [] := by
    apply doneAt_sentFor_of_not_call h
    intro k callId name heq
    cases heq
  have hcompleted : ∀ response, doneAt none [ResponseEvent.completed response] = [] :=
    fun _ => rfl
  rw [responsesSse_finished h, doneAt_append, doneAt_append, hnone,
    indexed.doneAt_finished_none, hcompleted]
  rfl

/-- If the end of every call is reported, the calls are completed in order, and none is left
open. -/
theorem sequential_closed_of_doneAt (h : Proper history)
    (hcalls : ∀ (k : ℕ) callId name, (itemsOf history)[k]? = some (.call callId name) →
      doneAt (some k) (sentFor requestId model history) ≠ []) :
    Sequential history ∧ ∀ callId ∈ startedCallIds history,
      openArguments history callId = none := by
  have hsequential := sequential_of_doneAt h fun k callId name hk _ => hcalls k callId name hk
  refine ⟨hsequential, ?_⟩
  intro callId hstarted
  obtain ⟨k, name, hk⟩ := getElem?_of_started hstarted
  have hreported := hcalls k callId name hk
  rw [doneAt_of_sequential h hsequential hk] at hreported
  by_contra hne
  exact hreported (if_neg hne)

/-- Every item of a well-formed sequence is announced once and ended once exactly if every
call is completed, while it is the one that was started last. -/
theorem reportsItems_iff {events : List ModelEvent} (h : WellFormed events) :
    ReportsItems requestId events (responsesSse requestId model (events.map .ok)) ↔
      Sequential events ∧ ∀ callId ∈ startedCallIds events, openArguments events callId = none := by
  obtain ⟨body, sender, reason, usage, proper, rfl⟩ := h
  have hitems : itemsOf (body ++ [ModelEvent.finished sender reason usage]) = itemsOf body := by
    simp [newItem]
  have hfinal : ∀ item : Item,
      item.final requestId (body ++ [ModelEvent.finished sender reason usage]) =
        item.final requestId body := by
    intro item
    cases item <;>
      simp [Item.final, ModelEvent.addedText, addedReasoning, ModelEvent.addedArguments]
  have hseq : Sequential (body ++ [ModelEvent.finished sender reason usage]) ↔ Sequential body := by
    simp [Sequential, throughout_concat, CompletesLast]
  have hopen : ∀ callId, openArguments (body ++ [ModelEvent.finished sender reason usage]) callId =
      openArguments body callId := by
    simp [trackCall]
  have hids : startedCallIds (body ++ [ModelEvent.finished sender reason usage]) =
      startedCallIds body := by
    simp [ModelEvent.startedCallId]
  simp only [ReportsItems, hitems, hfinal, hseq, hopen, hids, doneAt_responsesSse proper]
  constructor
  · rintro ⟨-, hdone, -⟩
    have hcalls : ∀ (k : ℕ) callId name, (itemsOf body)[k]? = some (.call callId name) →
        doneAt (some k) (sentFor requestId model body) ≠ [] := by
      intro k callId name hk
      have hone := hdone k
      simp only [hk, Option.map_some, Option.toList_some] at hone
      simp [hone]
    exact sequential_closed_of_doneAt proper hcalls
  · rintro ⟨hsequential, hclosed⟩
    refine ⟨?_, ?_, ?_⟩
    · intro k
      exact addedAt_responsesSse proper sender reason usage k
    · intro k
      cases hitem : (itemsOf body)[k]? with
      | none => rfl
      | some item =>
        cases item with
        | call callId name =>
          simp only [Option.map_some, Option.toList_some]
          rw [doneAt_of_sequential proper hsequential hitem,
            if_pos (hclosed callId (started_of_getElem? hitem))]
        | text => rfl
        | reasoning => rfl
    · exact doneAt_none_responsesSse proper sender reason usage

/-- Calls that follow one another are reported. -/
theorem reportsItems_sampleSequence : ReportsItems "request" sampleSequence
    (responsesSse "request" "model" (sampleSequence.map .ok)) := by
  apply (reportsItems_iff wellFormed_sampleSequence).mpr
  constructor
  · show Throughout CompletesLast sampleSequence
    decide
  · decide

/-- Of two calls at the same time the first is not ended and the second is ended twice. -/
theorem not_reportsItems_sampleInterleaved : WellFormed sampleInterleaved ∧
    ¬ ReportsItems "request" sampleInterleaved
      (responsesSse "request" "model" (sampleInterleaved.map .ok)) := by
  refine ⟨wellFormed_sampleInterleaved, ?_⟩
  rintro ⟨-, hdone, -⟩
  exact absurd (hdone 0) (by decide)

end Locus.OpenAi
