import Locus.ModelIo.Proper
import Locus.OpenAi.Output

/-!
# The items of a response

A response has one item for its text, one for its reasoning and one for each call, in the
order in which they begin. The accumulator holds the content of each of them.
-/

namespace Locus.OpenAi

open Locus.Core Locus.ModelIo Locus.Parser

inductive Item
  | text
  | reasoning
  | call (callId name : String)
  deriving DecidableEq

/-- The item that begins with an event. -/
def newItem (items : List Item) : ModelEvent → Option Item
  | .textDelta _ _ => if .text ∈ items then none else some .text
  | .reasoningDelta _ _ => if .reasoning ∈ items then none else some .reasoning
  | .toolCallStarted _ callId name => some (.call callId name)
  | _ => none

/-- The items of a sequence of events, in the order in which they begin. -/
def itemsOf (history : List ModelEvent) : List Item :=
  history.foldl (fun items event => items ++ (newItem items event).toList) []

/-- The reasoning that an event adds. -/
def addedReasoning : ModelEvent → Text
  | .reasoningDelta _ text => text
  | _ => []

/-- All reasoning of a sequence. -/
def reasoningText (history : List ModelEvent) : Text :=
  history.flatMap addedReasoning

/-- An item as it begins. -/
def Item.opening (requestId : String) : Item → OutputItem
  | .text => messageItem requestId "in_progress" []
  | .reasoning => reasoningItem requestId "in_progress" []
  | .call callId name => .functionCall callId callId name [] "in_progress"

/-- An item with its full content. -/
def Item.final (requestId : String) (history : List ModelEvent) : Item → OutputItem
  | .text => messageItem requestId "completed" (visibleText history)
  | .reasoning => reasoningItem requestId "completed" (reasoningText history)
  | .call callId name =>
    .functionCall callId callId name (callArguments history callId) "completed"

/-- The id and the name of the call that an event starts. -/
def startedCall : ModelEvent → Option (String × String)
  | .toolCallStarted _ callId name => some (callId, name)
  | _ => none

/-- The calls of a sequence. -/
def startedCalls (history : List ModelEvent) : List (String × String) :=
  history.filterMap startedCall

variable {history : List ModelEvent} {event : ModelEvent} {callId name : String}

@[simp] theorem itemsOf_nil : itemsOf [] = [] :=
  rfl

@[simp] theorem itemsOf_concat : itemsOf (history ++ [event]) =
    itemsOf history ++ (newItem (itemsOf history) event).toList := by
  simp [itemsOf]

@[simp] theorem reasoningText_concat :
    reasoningText (history ++ [event]) = reasoningText history ++ addedReasoning event := by
  simp [reasoningText]

@[simp] theorem startedCalls_concat :
    startedCalls (history ++ [event]) = startedCalls history ++ (startedCall event).toList := by
  cases h : startedCall event <;> simp [startedCalls, h]

@[simp] theorem after_concat : OutputAccumulator.after (history ++ [event]) =
    (OutputAccumulator.after history).apply event := by
  simp [OutputAccumulator.after]

/-- The ids of the calls. -/
theorem map_fst_startedCalls (history : List ModelEvent) :
    (startedCalls history).map Prod.fst = startedCallIds history := by
  rw [startedCalls, startedCallIds, List.map_filterMap]
  congr 1
  funext event
  cases event <;> rfl

/-- A call is among the items exactly if it was started. -/
theorem call_mem_itemsOf :
    .call callId name ∈ itemsOf history ↔ (callId, name) ∈ startedCalls history := by
  induction history using List.reverseRecOn with
  | nil => simp [startedCalls]
  | append_singleton history event ih =>
    rw [itemsOf_concat, startedCalls_concat, List.mem_append, List.mem_append, ih]
    cases event with
    | textDelta requestId text =>
      simp only [newItem]
      split <;> simp [startedCall]
    | reasoningDelta requestId text =>
      simp only [newItem]
      split <;> simp [startedCall]
    | toolCallStarted requestId started name' => simp [newItem, startedCall]
    | _ => simp [newItem, startedCall]

/-- Changing one of several tools with distinct ids. -/
theorem updateTool_map {calls : List (String × String)} (hnodup : (calls.map Prod.fst).Nodup)
    (arguments : String → Text) (callId : String) (change : Text → Text) :
    updateTool callId change
        (calls.map fun call => ⟨call.1, call.2, arguments call.1⟩) =
      calls.map fun call => ⟨call.1, call.2,
        if call.1 = callId then change (arguments call.1) else arguments call.1⟩ := by
  induction calls with
  | nil => rfl
  | cons call calls ih =>
    rw [List.map_cons, List.nodup_cons] at hnodup
    simp only [List.map_cons, updateTool]
    by_cases heq : call.1 = callId
    · have hothers : calls.map (fun call => (⟨call.1, call.2, arguments call.1⟩ : ToolOutput)) =
          calls.map fun call => ⟨call.1, call.2,
            if call.1 = callId then change (arguments call.1) else arguments call.1⟩ := by
        apply List.map_congr_left
        intro other hmem
        have hne : other.1 ≠ callId := by
          intro hsame
          apply hnodup.1
          rw [heq, ← hsame]
          exact List.mem_map_of_mem hmem
        rw [if_neg hne]
      rw [if_pos heq, if_pos heq, hothers]
    · rw [if_neg heq, if_neg heq, ih hnodup.2]

/-- The accumulator holds every call with all its arguments. -/
theorem tools_after (h : Proper history) : (OutputAccumulator.after history).tools =
    (startedCalls history).map fun call => ⟨call.1, call.2, callArguments history call.1⟩ := by
  induction h with
  | nil => rfl
  | @snoc history event proper may ih =>
    have hnodup : ((startedCalls history).map Prod.fst).Nodup := by
      rw [map_fst_startedCalls]
      exact proper.nodup
    rw [after_concat, startedCalls_concat]
    simp only [callArguments_concat]
    cases event with
    | toolCallStarted requestId started name =>
      have hnil := (proper.fresh may).2
      simp [OutputAccumulator.apply, ih, startedCall, ModelEvent.addedArguments, hnil]
    | toolCallArgumentsDelta requestId extended delta =>
      simp only [OutputAccumulator.apply, ih, startedCall, Option.toList_none, List.append_nil]
      rw [updateTool_map hnodup]
      apply List.map_congr_left
      intro call _
      by_cases heq : call.1 = extended
      · simp [heq, ModelEvent.addedArguments]
      · simp [heq, Ne.symm heq, ModelEvent.addedArguments]
    | toolCallCompleted requestId completed arguments =>
      have hall := proper.openArguments_eq may
      simp only [OutputAccumulator.apply, ih, startedCall, Option.toList_none, List.append_nil]
      rw [updateTool_map hnodup]
      apply List.map_congr_left
      intro call _
      by_cases heq : call.1 = completed
      · simp [heq, hall, ModelEvent.addedArguments]
      · simp [heq, ModelEvent.addedArguments]
    | _ => simp [OutputAccumulator.apply, ih, startedCall, ModelEvent.addedArguments]

/-- The accumulator holds all text and all reasoning. -/
theorem text_after (history : List ModelEvent) :
    (OutputAccumulator.after history).text = visibleText history ∧
      (OutputAccumulator.after history).reasoning = reasoningText history := by
  induction history using List.reverseRecOn with
  | nil => exact ⟨rfl, rfl⟩
  | append_singleton history event ih =>
    rw [after_concat, visibleText_concat, reasoningText_concat, ← ih.1, ← ih.2]
    cases event <;> simp [OutputAccumulator.apply, ModelEvent.addedText, addedReasoning]

end Locus.OpenAi
