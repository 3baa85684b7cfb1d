import Locus.ModelIo.CallIds
import Locus.ModelIo.History

/-!
# Proper sequences of model events

What the encoders of the public protocols may rely on: ids of calls are distinct,
arguments and completions belong to open calls, a completion carries all arguments of its
call, and the sequence ends when it is finished. Calls may be open at the same time.
-/

namespace Locus.ModelIo

open Locus.Core Locus.Lib Locus.Parser

/-- An event that may come next, except for the last one. -/
def MayCome (history : List ModelEvent) : ModelEvent → Prop
  | .toolCallStarted _ callId _ => callId ∉ startedCallIds history
  | .toolCallArgumentsDelta _ callId _ => (openArguments history callId).isSome
  | .toolCallCompleted _ callId arguments => openArguments history callId = some arguments
  | .finished _ _ _ => False
  | _ => True

/-- A sequence that is not finished yet. -/
inductive Proper : List ModelEvent → Prop
  | nil : Proper []
  | snoc {history : List ModelEvent} {event : ModelEvent} (proper : Proper history)
      (may : MayCome history event) : Proper (history ++ [event])

instance (history : List ModelEvent) : DecidablePred (MayCome history)
  | .toolCallStarted _ callId _ => inferInstanceAs (Decidable (callId ∉ startedCallIds history))
  | .toolCallArgumentsDelta _ callId _ =>
    inferInstanceAs (Decidable ((openArguments history callId).isSome = true))
  | .toolCallCompleted _ callId arguments =>
    inferInstanceAs (Decidable (openArguments history callId = some arguments))
  | .finished _ _ _ => isFalse id
  | .accepted _ | .textDelta _ _ | .reasoningDelta _ _ | .usage _ _ _ => isTrue trivial

/-- A finished sequence. -/
def WellFormed (events : List ModelEvent) : Prop :=
  ∃ body requestId reason usage, Proper body ∧ events = body ++ [.finished requestId reason usage]

/-- The arguments that an event adds to a call. -/
def ModelEvent.addedArguments (callId : String) : ModelEvent → Text
  | .toolCallArgumentsDelta _ extended delta => if extended = callId then delta else []
  | _ => []

/-- All arguments of a call. -/
def callArguments (history : List ModelEvent) (callId : String) : Text :=
  history.flatMap (ModelEvent.addedArguments callId)

variable {history : List ModelEvent} {event : ModelEvent} {callId : String} {arguments : Text}

@[simp] theorem callArguments_concat : callArguments (history ++ [event]) callId =
    callArguments history callId ++ event.addedArguments callId := by
  simp [callArguments]

@[simp] theorem startedCallIds_singleton :
    startedCallIds [event] = event.startedCallId.toList := by
  cases h : event.startedCallId <;> simp [startedCallIds, h]

/-- A sequence is proper if each event may come after those before it. -/
theorem proper_of_throughout (h : Throughout MayCome history) : Proper history := by
  induction history using List.reverseRecOn with
  | nil => exact .nil
  | append_singleton history event ih =>
    obtain ⟨hbefore, hlast⟩ := throughout_concat.mp h
    exact (ih hbefore).snoc hlast

/-- A sequence that is not finished has no end in it. -/
theorem Proper.not_finished (h : Proper history) {requestId : RequestId}
    {reason : ModelFinishReason} {usage : Usage} :
    .finished requestId reason usage ∉ history := by
  induction h with
  | nil => exact List.not_mem_nil
  | @snoc history event proper may ih =>
    intro hmem
    rcases List.mem_append.mp hmem with hold | hlast
    · exact ih hold
    · cases List.mem_singleton.mp hlast
      exact may

/-- A call that was not started has no arguments. -/
theorem Proper.fresh (h : Proper history) (hfresh : callId ∉ startedCallIds history) :
    openArguments history callId = none ∧ callArguments history callId = [] := by
  induction h with
  | nil => exact ⟨rfl, rfl⟩
  | @snoc history event proper may ih =>
    rw [startedCallIds_append, List.mem_append, not_or] at hfresh
    obtain ⟨hnone, hnil⟩ := ih hfresh.1
    rw [openArguments_concat, callArguments_concat, hnone, hnil]
    cases event with
    | toolCallStarted requestId started name =>
      have hne : started ≠ callId := by
        rintro rfl
        exact hfresh.2 (by simp [ModelEvent.startedCallId])
      simp [trackCall, ModelEvent.addedArguments, hne]
    | toolCallArgumentsDelta requestId extended delta =>
      have hne : extended ≠ callId := by
        rintro rfl
        simp [MayCome, hnone] at may
      simp [trackCall, ModelEvent.addedArguments, hne]
    | toolCallCompleted requestId completed arguments =>
      simp [trackCall, ModelEvent.addedArguments]
    | _ => exact ⟨rfl, rfl⟩

/-- What is known of the arguments of an open call is all of them. -/
theorem Proper.openArguments_eq (h : Proper history)
    (hopen : openArguments history callId = some arguments) :
    arguments = callArguments history callId := by
  induction h generalizing arguments with
  | nil => cases hopen
  | @snoc history event proper may ih =>
    rw [openArguments_concat] at hopen
    rw [callArguments_concat]
    cases event with
    | toolCallStarted requestId started name =>
      by_cases heq : started = callId
      · subst heq
        have hnil := (proper.fresh may).2
        simp only [trackCall, if_true, Option.some.injEq] at hopen
        rw [← hopen, hnil]
        rfl
      · simp only [trackCall, heq, if_false] at hopen
        rw [ih hopen]
        exact (List.append_nil _).symm
    | toolCallArgumentsDelta requestId extended delta =>
      by_cases heq : extended = callId
      · subst heq
        simp only [trackCall, if_true, Option.map_eq_some_iff] at hopen
        obtain ⟨before, hbefore, rfl⟩ := hopen
        rw [ih hbefore]
        simp [ModelEvent.addedArguments]
      · simp only [trackCall, heq, if_false] at hopen
        rw [ih hopen]
        simp [ModelEvent.addedArguments, heq]
    | toolCallCompleted requestId completed arguments' =>
      by_cases heq : completed = callId
      · simp [trackCall, heq] at hopen
      · simp only [trackCall, heq, if_false] at hopen
        rw [ih hopen]
        exact (List.append_nil _).symm
    | _ =>
      rw [ih hopen]
      exact (List.append_nil _).symm

/-- Only started calls are open. -/
theorem Proper.started_of_open (h : Proper history)
    (hopen : openArguments history callId = some arguments) : callId ∈ startedCallIds history := by
  by_contra hfresh
  rw [(h.fresh hfresh).1] at hopen
  cases hopen

/-- The ids of the calls are distinct. -/
theorem Proper.nodup (h : Proper history) : (startedCallIds history).Nodup := by
  induction h with
  | nil => exact List.nodup_nil
  | @snoc history event proper may ih =>
    rw [startedCallIds_append, startedCallIds_singleton]
    cases event with
    | toolCallStarted requestId started name =>
      exact List.Nodup.append ih (List.nodup_singleton _)
        (by simpa [MayCome, ModelEvent.startedCallId] using may)
    | _ => simpa [ModelEvent.startedCallId] using ih

/-- Text and two calls, one after the other. -/
def sampleSequence : List ModelEvent :=
  [.accepted "request", .textDelta "request" "a".toList,
    .toolCallStarted "request" "a" "f", .toolCallArgumentsDelta "request" "a" sampleArguments,
    .toolCallCompleted "request" "a" sampleArguments, .toolCallStarted "request" "b" "f",
    .toolCallArgumentsDelta "request" "b" sampleArguments,
    .toolCallCompleted "request" "b" sampleArguments, .finished "request" .toolCall ⟨1, 1⟩]

theorem wellFormed_sampleSequence : WellFormed sampleSequence :=
  ⟨sampleSequence.dropLast, _, _, _, proper_of_throughout (by decide), rfl⟩

/-- Two calls at the same time. -/
def sampleInterleaved : List ModelEvent :=
  [.accepted "request", .toolCallStarted "request" "a" "f",
    .toolCallArgumentsDelta "request" "a" sampleArguments, .toolCallStarted "request" "b" "f",
    .toolCallArgumentsDelta "request" "b" sampleArguments,
    .toolCallCompleted "request" "a" sampleArguments,
    .toolCallCompleted "request" "b" sampleArguments, .finished "request" .toolCall ⟨1, 1⟩]

theorem wellFormed_sampleInterleaved : WellFormed sampleInterleaved :=
  ⟨sampleInterleaved.dropLast, _, _, _, proper_of_throughout (by decide), rfl⟩

end Locus.ModelIo
