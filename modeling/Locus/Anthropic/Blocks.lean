import Locus.Anthropic.Messages
import Locus.Lib.Histories
import Locus.ModelIo.Proper

/-!
# The blocks of a message

A block is begun by text after anything else and by the start of a call. The collector
only adds to its newest block, so of the arguments of a call it has those that came while
the block of the call was the newest.
-/

namespace Locus.Anthropic

open Locus.Core Locus.Lib Locus.ModelIo Locus.Parser

inductive Block
  | text
  | call (callId : String)
  deriving DecidableEq

/-- The newest block after one more event. -/
def nextBlock (newest : Option Block) : ModelEvent → Option Block
  | .textDelta _ _ => some .text
  | .toolCallStarted _ callId _ => some (.call callId)
  | _ => newest

/-- The newest block of a sequence. -/
def newestBlock (history : List ModelEvent) : Option Block :=
  history.foldl nextBlock none

/-- Arguments of a call are added while its block is the newest. -/
def addToNewest (callId : String) (state : Option Block × Text) (event : ModelEvent) :
    Option Block × Text :=
  (nextBlock state.1 event,
    if state.1 = some (.call callId) then state.2 ++ event.addedArguments callId else state.2)

/-- The arguments of a call that came while its block was the newest. -/
def newestArguments (history : List ModelEvent) (callId : String) : Text :=
  (history.foldl (addToNewest callId) (none, [])).2

/-- Arguments and completions belong to the newest block. -/
def Undisplaced (before : List ModelEvent) : ModelEvent → Prop
  | .toolCallArgumentsDelta _ callId _ => newestBlock before = some (.call callId)
  | .toolCallCompleted _ callId _ => newestBlock before = some (.call callId)
  | _ => True

instance (before : List ModelEvent) : DecidablePred (Undisplaced before)
  | .toolCallArgumentsDelta _ callId _ =>
    inferInstanceAs (Decidable (newestBlock before = some (.call callId)))
  | .toolCallCompleted _ callId _ =>
    inferInstanceAs (Decidable (newestBlock before = some (.call callId)))
  | .accepted _ | .textDelta _ _ | .reasoningDelta _ _ | .toolCallStarted _ _ _
  | .usage _ _ _ | .finished _ _ _ => isTrue trivial

/-- The id and the arguments of a block of a call. -/
def OutputBlock.toolCall : OutputBlock → Option (String × Text)
  | .text _ => none
  | .tool id _ arguments => some (id, arguments)

variable {serde : Serde} {history : List ModelEvent} {event : ModelEvent} {callId : String}
  {arguments : Text}

@[simp] theorem toolCalls_text (text : Text) :
    [OutputBlock.text text].filterMap OutputBlock.toolCall = [] :=
  rfl

@[simp] theorem toolCalls_tool (name : String) :
    [OutputBlock.tool callId name arguments].filterMap OutputBlock.toolCall =
      [(callId, arguments)] :=
  rfl

@[simp] theorem newestBlock_concat :
    newestBlock (history ++ [event]) = nextBlock (newestBlock history) event := by
  simp [newestBlock]

/-- The newest block is known along the way. -/
theorem fst_foldl_addToNewest (history : List ModelEvent) (callId : String) :
    (history.foldl (addToNewest callId) (none, [])).1 = newestBlock history := by
  induction history using List.reverseRecOn with
  | nil => rfl
  | append_singleton history event ih => simp [addToNewest, ih]

@[simp] theorem newestArguments_concat : newestArguments (history ++ [event]) callId =
    newestArguments history callId ++
      if newestBlock history = some (.call callId) then event.addedArguments callId else [] := by
  simp only [newestArguments, List.foldl_append, List.foldl_cons, List.foldl_nil]
  rw [addToNewest, fst_foldl_addToNewest]
  split <;> simp

@[simp] theorem accumulator_concat : MessageAccumulator.after (history ++ [event]) =
    (MessageAccumulator.after history).apply event := by
  simp [MessageAccumulator.after]

/-- The newest block is that of a call that was started. -/
theorem started_of_newestBlock (h : newestBlock history = some (.call callId)) :
    callId ∈ startedCallIds history := by
  induction history using List.reverseRecOn with
  | nil => cases h
  | append_singleton history event ih =>
    rw [newestBlock_concat] at h
    rw [startedCallIds_append, List.mem_append]
    cases event with
    | textDelta sender text => cases h
    | toolCallStarted sender started name =>
      cases h
      right
      simp [ModelEvent.startedCallId]
    | _ => exact .inl (ih h)

/-- A call that was not started has no arguments. -/
theorem newestArguments_of_fresh (h : callId ∉ startedCallIds history) :
    newestArguments history callId = [] := by
  induction history using List.reverseRecOn with
  | nil => rfl
  | append_singleton history event ih =>
    rw [startedCallIds_append, List.mem_append, not_or] at h
    have hother : newestBlock history ≠ some (.call callId) :=
      fun hnewest => h.1 (started_of_newestBlock hnewest)
    rw [newestArguments_concat, if_neg hother, ih h.1]
    rfl

/-- The last block of the collector is the newest one. -/
structure HasNewest (history : List ModelEvent) (content : List OutputBlock) : Prop where
  none : newestBlock history = none → content = []
  text : newestBlock history = some .text → ∃ init text, content = init ++ [.text text]
  call : ∀ callId, newestBlock history = some (.call callId) →
    ∃ init name, content = init ++ [.tool callId name (newestArguments history callId)]

variable {content : List OutputBlock} {output : MessageAccumulator}

/-- What text adds to the blocks. -/
theorem content_textDelta (h : HasNewest history output.content) (sender : RequestId)
    (text : Text) :
    (∃ init current, newestBlock history = some .text ∧
      output.content = init ++ [OutputBlock.text current] ∧
      (output.apply (.textDelta sender text)).content =
        init ++ [OutputBlock.text (current ++ text)]) ∨
    (newestBlock history ≠ some .text ∧
      (output.apply (.textDelta sender text)).content =
        output.content ++ [OutputBlock.text text]) := by
  cases hnewest : newestBlock history with
  | none =>
    right
    have hcontent := h.none hnewest
    simp [MessageAccumulator.apply, hcontent]
  | some block =>
    cases block with
    | text =>
      obtain ⟨init, current, hcontent⟩ := h.text hnewest
      left
      exact ⟨init, current, rfl, hcontent, by simp [MessageAccumulator.apply, hcontent]⟩
    | call callId =>
      obtain ⟨init, name, hcontent⟩ := h.call callId hnewest
      right
      simp [MessageAccumulator.apply, hcontent]

/-- Arguments are added to the newest block. -/
theorem content_argumentsDelta (h : HasNewest history output.content)
    (hnewest : newestBlock history = some (.call callId)) (sender : RequestId) (delta : Text) :
    ∃ init name,
      output.content = init ++ [OutputBlock.tool callId name (newestArguments history callId)] ∧
      (output.apply (.toolCallArgumentsDelta sender callId delta)).content =
        init ++ [OutputBlock.tool callId name (newestArguments history callId ++ delta)] := by
  obtain ⟨init, name, hcontent⟩ := h.call callId hnewest
  exact ⟨init, name, hcontent, by simp [MessageAccumulator.apply, hcontent]⟩

/-- Other arguments are skipped. -/
theorem content_skipped (h : HasNewest history output.content)
    (hnewest : newestBlock history ≠ some (.call callId)) (sender : RequestId) (delta : Text) :
    (output.apply (.toolCallArgumentsDelta sender callId delta)).content = output.content := by
  cases hblock : newestBlock history with
  | none => simp [MessageAccumulator.apply, h.none hblock]
  | some block =>
    cases block with
    | text =>
      obtain ⟨init, text, hcontent⟩ := h.text hblock
      simp [MessageAccumulator.apply, hcontent]
    | call callId' =>
      obtain ⟨init, name, hcontent⟩ := h.call callId' hblock
      have hne : callId' ≠ callId := by
        rintro rfl
        exact hnewest hblock
      simp [MessageAccumulator.apply, hcontent, hne]

/-- An event that concerns no block leaves the newest one. -/
theorem HasNewest.skip (h : HasNewest history content)
    (hnext : nextBlock (newestBlock history) event = newestBlock history)
    (hadded : ∀ callId, newestBlock history = some (.call callId) →
      event.addedArguments callId = []) :
    HasNewest (history ++ [event]) content := by
  refine ⟨?_, ?_, ?_⟩
  · intro hnewest
    rw [newestBlock_concat, hnext] at hnewest
    exact h.none hnewest
  · intro hnewest
    rw [newestBlock_concat, hnext] at hnewest
    exact h.text hnewest
  · intro callId hnewest
    rw [newestBlock_concat, hnext] at hnewest
    rw [newestArguments_concat, if_pos hnewest, hadded callId hnewest, List.append_nil]
    exact h.call callId hnewest

/-- Arguments for a block that is not the newest go to no block. -/
theorem addedArguments_of_newestBlock_ne {extended : String} {delta : Text} (sender : RequestId)
    (h : newestBlock history ≠ some (.call extended))
    (hnewest : newestBlock history = some (.call callId)) :
    (ModelEvent.toolCallArgumentsDelta sender extended delta).addedArguments callId = [] := by
  have hne : extended ≠ callId := by
    rintro rfl
    exact h hnewest
  simp [ModelEvent.addedArguments, hne]

/-- The last block of the collector is the newest one. -/
theorem hasNewest_after (h : Proper history) :
    HasNewest history (MessageAccumulator.after history).content := by
  induction h with
  | nil =>
    refine ⟨fun _ => rfl, ?_, ?_⟩
    · intro hnewest
      cases hnewest
    · intro callId hnewest
      cases hnewest
  | @snoc history event proper may ih =>
    rw [accumulator_concat]
    cases event with
    | textDelta sender text =>
      refine ⟨?_, ?_, ?_⟩
      · intro hnewest
        simp [nextBlock] at hnewest
      · intro _
        rcases content_textDelta ih sender text with ⟨init, current, -, -, hcontent⟩ | ⟨-, hcontent⟩
        · exact ⟨init, _, hcontent⟩
        · exact ⟨_, text, hcontent⟩
      · intro callId hnewest
        simp [nextBlock] at hnewest
    | toolCallStarted sender started name =>
      refine ⟨?_, ?_, ?_⟩
      · intro hnewest
        simp [nextBlock] at hnewest
      · intro hnewest
        simp [nextBlock] at hnewest
      · intro callId hnewest
        have heq : started = callId := by simpa [nextBlock] using hnewest
        subst heq
        have hfresh := newestArguments_of_fresh may
        refine ⟨(MessageAccumulator.after history).content, name, ?_⟩
        simp [MessageAccumulator.apply, hfresh, ModelEvent.addedArguments]
    | toolCallArgumentsDelta sender extended delta =>
      by_cases hnewest : newestBlock history = some (.call extended)
      · obtain ⟨init, name, -, hcontent⟩ := content_argumentsDelta ih hnewest sender delta
        refine ⟨?_, ?_, ?_⟩
        · intro hnone
          simp [nextBlock, hnewest] at hnone
        · intro htext
          simp [nextBlock, hnewest] at htext
        · intro callId hcall
          have heq : extended = callId := by simpa [nextBlock, hnewest] using hcall
          subst heq
          exact ⟨init, name, by simp [hcontent, hnewest, ModelEvent.addedArguments]⟩
      · rw [content_skipped ih hnewest]
        exact ih.skip rfl fun callId hcall =>
          addedArguments_of_newestBlock_ne sender hnewest hcall
    | _ => exact ih.skip rfl fun _ _ => rfl

/-- Without arguments for the newest block nothing is added. -/
theorem newestArguments_concat_of_nil
    (h : ∀ callId, newestBlock history = some (.call callId) → event.addedArguments callId = []) :
    newestArguments (history ++ [event]) = newestArguments history := by
  funext callId
  rw [newestArguments_concat]
  split
  next hnewest => rw [h callId hnewest, List.append_nil]
  next => exact List.append_nil _

/-- Arguments for the newest call go to its block, which is the last, and to no other. -/
theorem toolCalls_argumentsDelta (proper : Proper history) {sender : RequestId}
    {extended : String} {delta : Text} (hblock : newestBlock history = some (.call extended))
    (h : (MessageAccumulator.after history).content.filterMap OutputBlock.toolCall =
      (startedCallIds history).map fun callId => (callId, newestArguments history callId)) :
    ((MessageAccumulator.after history).apply
        (.toolCallArgumentsDelta sender extended delta)).content.filterMap OutputBlock.toolCall =
      (startedCallIds history).map fun callId => (callId, newestArguments
        (history ++ [ModelEvent.toolCallArgumentsDelta sender extended delta]) callId) := by
  obtain ⟨init, name, hcontent, hcontent'⟩ :=
    content_argumentsDelta (hasNewest_after proper) hblock sender delta
  rw [hcontent, List.filterMap_append, toolCalls_tool] at h
  have hids : startedCallIds history =
      (init.filterMap OutputBlock.toolCall).map Prod.fst ++ [extended] := by
    simpa [Function.comp_def] using (congrArg (List.map Prod.fst) h).symm
  have hnodup := proper.nodup
  rw [hids] at h hnodup
  rw [List.map_append, List.map_singleton] at h
  obtain ⟨hothers, -⟩ := List.append_inj' h rfl
  have hkept : ∀ callId ∈ (init.filterMap OutputBlock.toolCall).map Prod.fst,
      newestArguments (history ++ [ModelEvent.toolCallArgumentsDelta sender extended delta])
        callId = newestArguments history callId := by
    intro callId hmem
    have hne : extended ≠ callId := by
      rintro rfl
      exact (List.nodup_append.mp hnodup).2.2 _ hmem _ (List.mem_singleton_self _) rfl
    simp [ModelEvent.addedArguments, hne]
  have hlast : newestArguments
      (history ++ [ModelEvent.toolCallArgumentsDelta sender extended delta]) extended =
      newestArguments history extended ++ delta := by
    simp [hblock, ModelEvent.addedArguments]
  rw [hids, hcontent', List.filterMap_append, toolCalls_tool, List.map_append,
    List.map_singleton, hlast]
  congr 1
  refine hothers.trans (List.map_congr_left ?_)
  intro callId hmem
  rw [hkept callId hmem]

/-- The collector has a block for each call, with the arguments that came while it was the
newest. -/
theorem toolCalls_after (h : Proper history) :
    (MessageAccumulator.after history).content.filterMap OutputBlock.toolCall =
      (startedCallIds history).map fun callId => (callId, newestArguments history callId) := by
  induction h with
  | nil => rfl
  | @snoc history event proper may ih =>
    have hnewest := hasNewest_after proper
    rw [accumulator_concat, startedCallIds_append, startedCallIds_singleton]
    cases event with
    | textDelta sender text =>
      rw [newestArguments_concat_of_nil fun _ _ => rfl]
      rcases content_textDelta hnewest sender text with
        ⟨init, current, -, hcontent, hcontent'⟩ | ⟨-, hcontent'⟩
      · rw [hcontent] at ih
        rw [hcontent']
        simpa [ModelEvent.startedCallId] using ih
      · rw [hcontent']
        simpa [ModelEvent.startedCallId] using ih
    | toolCallStarted sender started name =>
      have hfresh := newestArguments_of_fresh may
      rw [newestArguments_concat_of_nil fun _ _ => rfl]
      simp [MessageAccumulator.apply, ih, ModelEvent.startedCallId, hfresh]
    | toolCallArgumentsDelta sender extended delta =>
      by_cases hblock : newestBlock history = some (.call extended)
      · rw [toolCalls_argumentsDelta proper hblock ih]
        simp [ModelEvent.startedCallId]
      · rw [content_skipped hnewest hblock, newestArguments_concat_of_nil fun callId hcall =>
          addedArguments_of_newestBlock_ne sender hblock hcall]
        simpa [ModelEvent.startedCallId] using ih
    | _ =>
      rw [newestArguments_concat_of_nil fun _ _ => rfl]
      simpa [MessageAccumulator.apply, ModelEvent.startedCallId] using ih

end Locus.Anthropic
