import Locus.Lib.Histories
import Locus.ModelIo.Pipeline

/-!
# Histories of model events

What a contract demands of the events of a request, and how the pipeline accounts for
them. Calls are opened, filled and completed in order; the pipeline's map of open calls is
the history's own account of them.
-/

namespace Locus.ModelIo

open Locus.Core Locus.Lib Locus.Parser

/-- The tool exists and the choice of the contract allows it. -/
def OutputContract.Allows (contract : OutputContract) (name : String) : Prop :=
  (∃ tool ∈ contract.tools, tool.name = name) ∧
    match contract.toolChoice with
    | .none => False
    | .function selected => name = selected
    | .auto => True
    | .required => True

/-- What an event does to the arguments of a call. -/
def trackCall (callId : String) (arguments : Option Text) : ModelEvent → Option Text
  | .toolCallStarted _ started _ => if started = callId then some [] else arguments
  | .toolCallArgumentsDelta _ extended delta =>
    if extended = callId then arguments.map (· ++ delta) else arguments
  | .toolCallCompleted _ completed _ => if completed = callId then none else arguments
  | _ => arguments

/-- The deltas of a call since its start, if it is open. -/
def openArguments (history : List ModelEvent) (callId : String) : Option Text :=
  history.foldl (trackCall callId) none

/-- The text that an event adds. -/
def ModelEvent.addedText : ModelEvent → Text
  | .textDelta _ text => text
  | _ => []

/-- All text of a history. -/
def visibleText (history : List ModelEvent) : Text :=
  history.flatMap ModelEvent.addedText

/-- The event starts a call. -/
def ModelEvent.IsStart (event : ModelEvent) : Prop :=
  ∃ requestId callId name, event = .toolCallStarted requestId callId name

/-- The event completes a call. -/
def ModelEvent.IsCompletion (event : ModelEvent) : Prop :=
  ∃ requestId callId arguments, event = .toolCallCompleted requestId callId arguments

/-- An event that may follow a history: a start of an allowed call, arguments of an open
call, a completion of an open call with all its arguments, or an end with everything
done. -/
def MayFollow (serde : Serde) (contract : OutputContract) (history : List ModelEvent) :
    ModelEvent → Prop
  | .toolCallStarted _ _ name => contract.Allows name
  | .toolCallArgumentsDelta _ callId _ => (openArguments history callId).isSome
  | .toolCallCompleted _ callId arguments =>
    openArguments history callId = some arguments ∧ serde.IsObject arguments
  | .finished _ _ _ =>
    (∀ callId, openArguments history callId = none) ∧
    ((contract.toolChoice = .required ∨ ∃ name, contract.toolChoice = .function name) →
      ∃ event ∈ history, event.IsCompletion) ∧
    (contract.responseFormat ≠ .text → serde.IsObject (visibleText history))
  | _ => True

/-- Every event of the history may follow those before it. -/
def Orderly (serde : Serde) (contract : OutputContract) (history : List ModelEvent) : Prop :=
  ∀ before event after, history = before ++ event :: after → MayFollow serde contract before event

/-- The pipeline's account of the history of its events. -/
structure Tracks (serde : Serde) (contract : OutputContract) (pipeline : BasicOutputPipeline)
    (history : List ModelEvent) : Prop where
  keepsContract : pipeline.contract = contract
  toolArguments : ∀ callId, pipeline.toolArguments[callId]? = openArguments history callId
  text : pipeline.text = visibleText history
  sawToolCall : pipeline.sawToolCall = true ↔ ∃ event ∈ history, event.IsStart
  completed : pipeline.sawToolCall = true → pipeline.toolArguments.isEmpty = true →
    ∃ event ∈ history, event.IsCompletion
  orderly : Orderly serde contract history

variable {serde : Serde} {contract : OutputContract} {pipeline next : BasicOutputPipeline}
  {history : List ModelEvent} {event : ModelEvent} {callId : String}

@[simp] theorem openArguments_concat :
    openArguments (history ++ [event]) callId =
      trackCall callId (openArguments history callId) event := by
  simp [openArguments]

@[simp] theorem visibleText_concat :
    visibleText (history ++ [event]) = visibleText history ++ event.addedText := by
  simp [visibleText]

/-- One more event keeps a history orderly if it may follow. -/
theorem Orderly.concat (h : Orderly serde contract history)
    (hfollow : MayFollow serde contract history event) :
    Orderly serde contract (history ++ [event]) :=
  throughout_concat.mpr ⟨h, hfollow⟩

/-- What one more event does to the account. -/
theorem Tracks.concat (h : Tracks serde contract pipeline history)
    (hcontract : next.contract = pipeline.contract)
    (harguments : ∀ callId : String, next.toolArguments[callId]? =
      trackCall callId pipeline.toolArguments[callId]? event)
    (htext : next.text = pipeline.text ++ event.addedText)
    (hsaw : next.sawToolCall = true ↔ pipeline.sawToolCall = true ∨ event.IsStart)
    (hcompleted : next.sawToolCall = true → next.toolArguments.isEmpty = true →
      (pipeline.sawToolCall = true ∧ pipeline.toolArguments.isEmpty = true) ∨ event.IsCompletion)
    (hfollow : MayFollow serde contract history event) :
    Tracks serde contract next (history ++ [event]) where
  keepsContract := hcontract.trans h.keepsContract
  toolArguments callId := by rw [harguments, openArguments_concat, h.toolArguments]
  text := by rw [htext, visibleText_concat, h.text]
  sawToolCall := by simp [hsaw, h.sawToolCall, or_and_right, exists_or]
  completed := by
    intro hnext hempty
    rcases hcompleted hnext hempty with ⟨hpipeline, hbefore⟩ | hcompletion
    · obtain ⟨event', hmem, hcompletion⟩ := h.completed hpipeline hbefore
      exact ⟨event', by simp [hmem], hcompletion⟩
    · exact ⟨event, by simp, hcompletion⟩
  orderly := h.orderly.concat hfollow

/-- The account does not depend on the parsers and the index. -/
theorem Tracks.of_parsers (h : Tracks serde contract pipeline history)
    (reasoningParser : Option TaggedReasoningParserState)
    (toolParser : Option TaggedJsonToolParserState) (nextToolIndex : UInt64) :
    Tracks serde contract { pipeline with reasoningParser, toolParser, nextToolIndex } history :=
  ⟨h.keepsContract, h.toolArguments, h.text, h.sawToolCall, h.completed, h.orderly⟩

/-- An event that concerns neither calls nor text changes nothing. -/
theorem Tracks.skip (h : Tracks serde contract pipeline history)
    (htrack : ∀ callId arguments, trackCall callId arguments event = arguments)
    (htext : event.addedText = []) (hstart : ¬ event.IsStart)
    (hfollow : MayFollow serde contract history event) :
    Tracks serde contract pipeline (history ++ [event]) :=
  h.concat rfl (fun callId => (htrack callId _).symm) (by simp [htext]) (by simp [hstart])
    (fun hsaw hempty => .inl ⟨hsaw, hempty⟩) hfollow

end Locus.ModelIo
