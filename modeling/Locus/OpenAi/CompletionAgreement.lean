import Locus.ModelIo.Proper
import Locus.OpenAi.Completions

/-!
# The two forms of a text

A client that puts the chunks of a stream together has the text, the reason and the usage that
are collected, or the error. This needs no order of the events: of every stream that stops where
the service stops, both forms are the same.
-/

namespace Locus.OpenAi

open Locus.Core Locus.Lib Locus.ModelIo Locus.Parser

/-- Nothing comes after an item. -/
def IsLast : Except ApiError ModelEvent → Prop
  | .error _ => True
  | .ok (.finished _ _ _) => True
  | .ok _ => False

/-- Nothing comes after an error or after the end of the output. -/
def StopsAtEnd (stream : List (Except ApiError ModelEvent)) : Prop :=
  ∀ front item back, stream = front ++ item :: back → IsLast item → back = []

/-- The output was finished. -/
def HasEnd (stream : List (Except ApiError ModelEvent)) : Prop :=
  ∃ sender reason usage, .ok (.finished sender reason usage) ∈ stream

/-- The client has what was collected. -/
structure CompletionClient.Matches (client : CompletionClient) (includeUsage : Bool)
    (completion : TextCompletion) : Prop where
  text : client.text = completion.text
  failure : client.failure = none
  finishReason : client.complete = true → client.finishReason = some completion.finishReason
  usage : client.complete = true →
    client.usage = if includeUsage then some completion.usage else none

variable {requestId model : String} {includeUsage : Bool}
  {stream : List (Except ApiError ModelEvent)} {body : List ModelEvent}

/-- A stream that stops at its end has events that are not the last, and at most one that is. -/
theorem StopsAtEnd.cases (h : StopsAtEnd stream) :
    ∃ body : List ModelEvent, (∀ event ∈ body, ¬IsLast (.ok event)) ∧
      (stream = body.map .ok ∨ (∃ error, stream = body.map .ok ++ [.error error]) ∨
        ∃ sender reason usage, stream = body.map .ok ++ [.ok (.finished sender reason usage)]) := by
  induction stream with
  | nil => exact ⟨[], by simp, .inl rfl⟩
  | cons item rest ih =>
    by_cases hlast : IsLast item
    · obtain rfl := h [] item rest rfl hlast
      refine ⟨[], by simp, .inr ?_⟩
      cases item with
      | error error => exact .inl ⟨error, rfl⟩
      | ok event =>
        cases event with
        | finished sender reason usage => exact .inr ⟨sender, reason, usage, rfl⟩
        | _ => exact hlast.elim
    · have hrest : StopsAtEnd rest := fun front other back heq =>
        h (item :: front) other back (by rw [heq]; rfl)
      obtain ⟨body, hbody, hcases⟩ := ih hrest
      cases item with
      | error error => exact absurd trivial hlast
      | ok event =>
        refine ⟨event :: body, List.forall_mem_cons.mpr ⟨hlast, hbody⟩, ?_⟩
        rcases hcases with rfl | ⟨error, rfl⟩ | ⟨sender, reason, usage, rfl⟩
        · exact .inl rfl
        · exact .inr (.inl ⟨error, rfl⟩)
        · exact .inr (.inr ⟨sender, reason, usage, rfl⟩)

/-- Before the end, the client has read the text of the accumulator. -/
theorem read_outputs (output : OutputAccumulator) (hbody : ∀ event ∈ body, ¬IsLast (.ok event)) :
    (outputs OutputAccumulator.apply (fun _ => textChunk requestId model) output body).foldl
        CompletionClient.read { text := output.text } =
      { text := (body.foldl OutputAccumulator.apply output).text } := by
  induction body generalizing output with
  | nil => rfl
  | cons event rest ih =>
    obtain ⟨hfirst, hrest⟩ := List.forall_mem_cons.mp hbody
    rw [outputs, List.foldl_append, List.foldl_cons, ← ih _ hrest]
    congr 1
    cases event with
    | finished sender reason usage => exact absurd trivial hfirst
    | _ => simp [textChunk, CompletionClient.read, OutputAccumulator.apply]

/-- The stream before its end. -/
theorem reassemble_body (hbody : ∀ event ∈ body, ¬IsLast (.ok event))
    (rest : List (Except ApiError ModelEvent)) :
    reassembleCompletion (completionSse requestId model includeUsage (body.map .ok ++ rest)) =
      (emitAll (completionStep requestId model includeUsage) (OutputAccumulator.after body)
        rest).foldl CompletionClient.read { text := (OutputAccumulator.after body).text } := by
  have hemit : emitAll (completionStep requestId model includeUsage) {} (body.map .ok ++ rest) =
      outputs OutputAccumulator.apply (fun _ => textChunk requestId model) {} body ++
        emitAll (completionStep requestId model includeUsage) (OutputAccumulator.after body)
          rest := by
    apply emitAll_outputs
    intro state event hmem
    cases event with
    | finished sender reason usage => exact absurd trivial (hbody _ hmem)
    | _ => rfl
  rw [reassembleCompletion, completionSse, hemit, List.foldl_append]
  congr 1
  exact read_outputs {} hbody

/-- The body of a stream is collected before what follows. -/
theorem collect_body (rest : List (Except ApiError ModelEvent)) :
    collect (body.map .ok ++ rest) =
      rest.foldlM (fun output result => result.map output.apply) (OutputAccumulator.after body) := by
  rw [collect, List.foldlM_append, foldlM_map_ok]
  rfl

/-- The client of a stream that breaks off. -/
theorem reassemble_unfinished (hbody : ∀ event ∈ body, ¬IsLast (.ok event)) :
    reassembleCompletion (completionSse requestId model includeUsage (body.map .ok)) =
      { text := (OutputAccumulator.after body).text } := by
  simpa [emitAll] using reassemble_body hbody []

/-- The client of a stream with an error. -/
theorem reassemble_failed (hbody : ∀ event ∈ body, ¬IsLast (.ok event)) (error : ApiError) :
    reassembleCompletion
        (completionSse requestId model includeUsage (body.map .ok ++ [.error error])) =
      { text := (OutputAccumulator.after body).text, failure := some error } := by
  rw [reassemble_body hbody]
  rfl

/-- The client of a stream that is finished. -/
theorem reassemble_finished (hbody : ∀ event ∈ body, ¬IsLast (.ok event)) (sender : RequestId)
    (reason : ModelFinishReason) (usage : Usage) :
    reassembleCompletion (completionSse requestId model includeUsage
        (body.map .ok ++ [.ok (.finished sender reason usage)])) =
      { text := (OutputAccumulator.after body).text
        finishReason := some (completionFinishReason (some reason))
        usage := if includeUsage then some (completionUsageValue usage) else none
        complete := true } := by
  rw [reassemble_body hbody]
  cases includeUsage <;>
    simp [emitAll, completionStep, lastChunks, CompletionClient.read, OutputAccumulator.apply]

/-- A stream whose events are not the last has no end. -/
theorem not_hasEnd (hbody : ∀ event ∈ body, ¬IsLast (.ok event)) : ¬HasEnd (body.map .ok) := by
  rintro ⟨sender, reason, usage, hmem⟩
  obtain ⟨event, hevent, heq⟩ := List.mem_map.mp hmem
  cases heq
  exact hbody _ hevent trivial

/-- A client that reads the stream has the collected text, or its error. It has read the end
exactly if the output was finished. -/
theorem completion_agrees (h : StopsAtEnd stream) :
    (∀ error, collectCompletion requestId model stream = .error error →
      (reassembleCompletion (completionSse requestId model includeUsage stream)).failure =
        some error ∧
      (reassembleCompletion (completionSse requestId model includeUsage stream)).complete =
        false) ∧
    ∀ completion, collectCompletion requestId model stream = .ok completion →
      (reassembleCompletion (completionSse requestId model includeUsage stream)).Matches
        includeUsage completion ∧
      ((reassembleCompletion (completionSse requestId model includeUsage stream)).complete = true ↔
        HasEnd stream) := by
  obtain ⟨body, hbody, hcases⟩ := h.cases
  rcases hcases with rfl | ⟨error, rfl⟩ | ⟨sender, reason, usage, rfl⟩
  · rw [collectCompletion, collect_map_ok, reassemble_unfinished hbody]
    constructor
    · rintro error ⟨⟩
    · rintro completion ⟨⟩
      exact ⟨⟨rfl, rfl, nofun, nofun⟩, iff_of_false nofun (not_hasEnd hbody)⟩
  · rw [collectCompletion, collect_body, reassemble_failed hbody]
    constructor
    · rintro other ⟨⟩
      exact ⟨rfl, rfl⟩
    · rintro completion ⟨⟩
  · rw [collectCompletion, collect_body, reassemble_finished hbody]
    constructor
    · rintro error ⟨⟩
    · rintro completion ⟨⟩
      have hend : HasEnd (body.map .ok ++ [.ok (.finished sender reason usage)]) :=
        ⟨sender, reason, usage, by simp⟩
      exact ⟨⟨rfl, rfl, fun _ => rfl, fun _ => rfl⟩, iff_of_true rfl hend⟩

/-- One more item after a sequence that is not finished. -/
theorem stopsAtEnd_concat {history : List ModelEvent} (proper : Proper history)
    (item : Except ApiError ModelEvent) : StopsAtEnd (history.map .ok ++ [item]) := by
  intro front last back heq hlast
  rcases List.eq_nil_or_concat back with rfl | ⟨between, final, rfl⟩
  · rfl
  · -- The item that nothing should follow would be one of the sequence.
    have hshift : history.map .ok ++ [item] = (front ++ last :: between) ++ [final] := by
      rw [heq]
      simp
    have hfront : history.map .ok = front ++ last :: between := (List.append_inj' hshift rfl).1
    have hmem : last ∈ history.map .ok := by simp [hfront]
    obtain ⟨event, hevent, rfl⟩ := List.mem_map.mp hmem
    cases event with
    | finished sender reason usage => exact (proper.not_finished hevent).elim
    | _ => exact hlast.elim

/-- Text that is cut at a limit. -/
def sampleCut : List (Except ApiError ModelEvent) :=
  [ModelEvent.textDelta "request" "hi".toList].map .ok ++
    [.ok (.finished "request" .length ⟨1, 2⟩)]

theorem completion_agrees_sampleCut :
    (reassembleCompletion (completionSse "request" "model" true sampleCut)).Matches true
      ⟨"request", "model", "hi".toList, "length", ⟨1, 2, 3⟩⟩ ∧
    (reassembleCompletion (completionSse "request" "model" true sampleCut)).complete = true := by
  have hstops : StopsAtEnd sampleCut := stopsAtEnd_concat (proper_of_throughout (by decide)) _
  have hend : HasEnd sampleCut := ⟨"request", .length, ⟨1, 2⟩, by simp [sampleCut]⟩
  obtain ⟨hmatches, hcomplete⟩ := (completion_agrees hstops).2 _ rfl
  exact ⟨hmatches, hcomplete.mpr hend⟩

end Locus.OpenAi
