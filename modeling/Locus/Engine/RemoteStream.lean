import Locus.Core.Events
import Locus.Engine.Adapter
import Locus.Parser.Definition
import Mathlib.Tactic.Common

/-!
# The stream of a remote completion

`RemoteCompletionAdapter::execute` turns the server-sent events of a remote engine into
engine events. It reads one chunk after the other, up to the marker `[DONE]`, the end of the
transport or the first error. It does not ask why it stopped: a transport that ends too early
looks like a completion that has stopped.
-/

namespace Locus.Engine

open Locus.Core Locus.Parser

structure CompletionChoice where
  index : UInt64
  text : Text := []
  finishReason : Option String := none

structure CompletionUsage where
  promptTokens : UInt64 := 0
  completionTokens : UInt64 := 0

structure RemoteError where
  message : String

structure CompletionChunk where
  choices : List CompletionChoice := []
  usage : Option CompletionUsage := none
  error : Option RemoteError := none

/-- `map_finish_reason` -/
def mapFinishReason (reason : String) : EngineFinishReason :=
  match reason with
  | "stop" => .stop
  | "length" => .length
  | "abort" | "cancelled" => .cancelled
  | value => .runtimeSpecific "openai.completion.finish_reason" value

/-- The variables of the loop of the stream. The number of the next text wraps around. -/
structure StreamState where
  sequenceNumber : UInt64
  usage : Usage
  finishReason : Option EngineFinishReason

/-- The variables before the loop. -/
def StreamState.initial : StreamState where
  sequenceNumber := 1
  usage := ⟨0, 0⟩
  finishReason := none

/-- What `events.next()` returns as long as the transport lives: the data of an event, or the
text of an error. -/
abbrev SseItem := Except String String

section Stream

variable (parse : String → Except String CompletionChunk) (requestId : RequestId)

/-- One turn of the loop over the choices of a chunk. -/
def takeChoice (state : StreamState) (choice : CompletionChoice) :
    StreamState × List EngineEvent :=
  if choice.index ≠ 0 then (state, [])
  else
    let (state, events) :=
      if choice.text = [] then (state, [])
      else
        ({ state with sequenceNumber := state.sequenceNumber + 1 },
          [.textDelta requestId state.sequenceNumber choice.text])
    match choice.finishReason with
    | none => (state, events)
    | some reason => ({ state with finishReason := some (mapFinishReason reason) }, events)

/-- The loop over the choices of a chunk. -/
def takeChoices : StreamState → List CompletionChoice → StreamState × List EngineEvent
  | state, [] => (state, [])
  | state, choice :: choices =>
    let (next, events) := takeChoice requestId state choice
    let (last, rest) := takeChoices next choices
    (last, events ++ rest)

/-- The usage of a chunk. -/
def takeUsage (state : StreamState) : Option CompletionUsage → StreamState × List EngineEvent
  | none => (state, [])
  | some remote =>
    let usage : Usage := ⟨remote.promptTokens, remote.completionTokens⟩
    ({ state with usage := usage }, [.usageUpdate requestId usage true])

/-- A chunk without an error. -/
def takeChunk (state : StreamState) (chunk : CompletionChunk) : StreamState × List EngineEvent :=
  let (next, events) := takeUsage requestId state chunk.usage
  let (last, rest) := takeChoices requestId next chunk.choices
  (last, events ++ rest)

/-- The event after the loop. -/
def StreamState.finished (state : StreamState) : EngineEvent :=
  .finished requestId (state.finishReason.getD .stop) state.usage

/-- The loop over the events. -/
def readItems : StreamState → List SseItem → List (Except EngineError EngineEvent)
  | state, [] => [.ok (state.finished requestId)]
  | _, .error error :: _ =>
    [.error (.execution ("invalid completion event stream: " ++ error))]
  | state, .ok data :: items =>
    if data = "[DONE]" then [.ok (state.finished requestId)]
    else
      match parse data with
      | .error error => [.error (.execution ("invalid completion chunk: " ++ error))]
      | .ok chunk =>
        match chunk.error with
        | some error => [.error (.execution ("remote engine error: " ++ error.message))]
        | none =>
          let (next, events) := takeChunk requestId state chunk
          events.map .ok ++ readItems next items

/-- The stream of `RemoteCompletionAdapter::execute`, for the events received until the
transport ends. -/
def completionStream (received : List SseItem) : List (Except EngineError EngineEvent) :=
  .ok (.accepted requestId) :: readItems parse requestId .initial received

end Stream

section Property

variable (parse : String → Except String CompletionChunk)

/-- The chunk that an event carries, if it is neither the marker nor an error. -/
def chunkOf : SseItem → Option CompletionChunk
  | .error _ => none
  | .ok data =>
    if data = "[DONE]" then none
    else
      match parse data with
      | .error _ => none
      | .ok chunk => if chunk.error.isSome then none else some chunk

/-- The chunks before the end or the first error. -/
def chunksBefore : List SseItem → List CompletionChunk
  | [] => []
  | item :: items =>
    match chunkOf parse item with
    | none => []
    | some chunk => chunk :: chunksBefore items

/-- The marker is received. -/
def DoneReceived (received : List SseItem) : Prop :=
  (received.find? fun item => (chunkOf parse item).isNone) = some (.ok "[DONE]")

/-- The texts of the first choice in a chunk. -/
def CompletionChunk.texts (chunk : CompletionChunk) : List Text :=
  (chunk.choices.filter fun choice => choice.index = 0).map CompletionChoice.text

/-- The texts of the first choice. -/
def choiceTexts (chunks : List CompletionChunk) : List Text :=
  chunks.flatMap CompletionChunk.texts

/-- The first choice has a reason to finish. -/
def HasFinishReason (chunks : List CompletionChunk) : Prop :=
  ∃ chunk ∈ chunks, ∃ choice ∈ chunk.choices, choice.index = 0 ∧ choice.finishReason.isSome

/-- The number and the text of a text delta. -/
def deltaOf : EngineEvent → Option (UInt64 × Text)
  | .textDelta _ sequenceNumber text => some (sequenceNumber, text)
  | _ => none

/-- The event may come between the first and the last one. -/
def IsUpdate : EngineEvent → Prop
  | .textDelta _ _ _ => True
  | .usageUpdate _ _ _ => True
  | _ => False

/-- The stream ends as it should: with an error, or as finished if the remote engine has said
so. -/
def EndsWell (received : List SseItem) : Except EngineError EngineEvent → Prop
  | .error _ => True
  | .ok (.finished _ _ _) =>
    HasFinishReason (chunksBefore parse received) ∨ DoneReceived parse received
  | .ok _ => False

/-- The stream reports what was received. -/
def Reports (requestId : RequestId) (received : List SseItem)
    (stream : List (Except EngineError EngineEvent)) : Prop :=
  ∃ (updates : List EngineEvent) (last : Except EngineError EngineEvent),
    stream = .ok (.accepted requestId) :: (updates.map .ok ++ [last]) ∧
    (∀ update ∈ updates, IsUpdate update) ∧
    ((updates.filterMap deltaOf).map Prod.fst).Pairwise (· < ·) ∧
    ((updates.filterMap deltaOf).map Prod.snd).flatten =
      (choiceTexts (chunksBefore parse received)).flatten ∧
    EndsWell parse received last

/-- The remote engine says before the transport ends that it has finished or failed: an event is
the marker or an error, or the first choice has a reason to finish. -/
def Concluded (received : List SseItem) : Prop :=
  (∃ item ∈ received, chunkOf parse item = none) ∨ HasFinishReason (chunksBefore parse received)

/-- The texts that are sent on. -/
def sentTexts (chunks : List CompletionChunk) : List Text :=
  (choiceTexts chunks).filter fun text => text ≠ []

end Property

section Numbers

/-- Texts with consecutive numbers. -/
def numbered : UInt64 → List Text → List (UInt64 × Text)
  | _, [] => []
  | number, text :: texts => (number, text) :: numbered (number + 1) texts

variable {number : UInt64} {texts : List Text}

theorem numbered_append (number : UInt64) (texts rest : List Text) :
    numbered number (texts ++ rest) =
      numbered number texts ++ numbered (number + UInt64.ofNat texts.length) rest := by
  induction texts generalizing number with
  | nil => simp [numbered]
  | cons text texts ih =>
    have hnext : number + 1 + UInt64.ofNat texts.length =
        number + UInt64.ofNat (texts.length + 1) := by
      rw [UInt64.ofNat_add, UInt64.add_assoc, UInt64.add_comm 1]
      rfl
    simp [numbered, ih, hnext]

@[simp] theorem map_snd_numbered : (numbered number texts).map Prod.snd = texts := by
  induction texts generalizing number with
  | nil => rfl
  | cons text texts ih => simp [numbered, ih]

theorem map_fst_numbered : (numbered number texts).map Prod.fst =
    (List.range texts.length).map fun i => number + UInt64.ofNat i := by
  induction texts generalizing number with
  | nil => rfl
  | cons text texts ih =>
    have hnext (i : ℕ) : number + 1 + UInt64.ofNat i = number + UInt64.ofNat (i + 1) := by
      rw [UInt64.ofNat_add, UInt64.add_assoc, UInt64.add_comm 1]
      rfl
    simp [numbered, ih, List.range_succ_eq_map, hnext]

/-- The numbers from one on increase until they wrap around. -/
theorem pairwise_numbered_iff :
    ((numbered 1 texts).map Prod.fst).Pairwise (· < ·) ↔ texts.length < 2 ^ 64 := by
  have hvalue (i : ℕ) (hi : i < 2 ^ 64 - 1) : (1 + UInt64.ofNat i).toNat = i + 1 := by
    rw [UInt64.toNat_add, UInt64.toNat_ofNat', UInt64.toNat_one]
    omega
  rw [map_fst_numbered, List.pairwise_map]
  constructor
  · intro h
    by_contra hlong
    have hlast : (1 : UInt64) + UInt64.ofNat (2 ^ 64 - 1) = 0 := by decide
    have hlt := List.pairwise_iff_getElem.mp h 0 (2 ^ 64 - 1) (by simp; omega) (by simp; omega)
      (by omega)
    simp only [List.getElem_range] at hlt
    rw [hlast] at hlt
    exact absurd hlt (by simp)
  · intro hshort
    refine List.pairwise_iff_getElem.mpr fun i j hi hj hlt => ?_
    simp only [List.length_range] at hi hj
    simp only [List.getElem_range]
    rw [UInt64.lt_iff_toNat_lt, hvalue i (by omega), hvalue j (by omega)]
    omega

end Numbers

section Sending

/-- The events of a part of the stream are updates, and carry these texts with consecutive
numbers. -/
structure Sends (state next : StreamState) (texts : List Text) (events : List EngineEvent) :
    Prop where
  updates : ∀ event ∈ events, IsUpdate event
  deltas : events.filterMap deltaOf = numbered state.sequenceNumber texts
  number : next.sequenceNumber = state.sequenceNumber + UInt64.ofNat texts.length

variable {state middle next : StreamState} {texts rest : List Text}
  {events more : List EngineEvent}

/-- Nothing is sent. -/
theorem Sends.nothing (h : next.sequenceNumber = state.sequenceNumber) :
    Sends state next [] [] where
  updates := by simp
  deltas := rfl
  number := by simp [h]

/-- One part of the stream follows the other. -/
theorem Sends.append (h : Sends state middle texts events) (hrest : Sends middle next rest more) :
    Sends state next (texts ++ rest) (events ++ more) where
  updates := fun event hmem => by
    rcases List.mem_append.mp hmem with hmem | hmem
    · exact h.updates event hmem
    · exact hrest.updates event hmem
  deltas := by
    rw [List.filterMap_append, h.deltas, hrest.deltas, h.number, numbered_append]
  number := by
    rw [hrest.number, h.number, List.length_append, UInt64.ofNat_add, UInt64.add_assoc]

variable (requestId : RequestId)

/-- A choice sends its text if it is the first one and says something. -/
theorem sends_takeChoice (state : StreamState) (choice : CompletionChoice) :
    Sends state (takeChoice requestId state choice).1
      ((([choice].filter fun choice => choice.index = 0).map CompletionChoice.text).filter
        fun text => text ≠ [])
      (takeChoice requestId state choice).2 := by
  unfold takeChoice
  by_cases hindex : choice.index = 0
  · by_cases htext : choice.text = []
    · cases hreason : choice.finishReason with
      | none => simpa [hindex, htext, hreason] using Sends.nothing rfl
      | some reason =>
        have hnothing : Sends state
            { state with finishReason := some (mapFinishReason reason) } [] [] := .nothing rfl
        simpa [hindex, htext, hreason] using hnothing
    · cases choice.finishReason with
      | none => constructor <;> simp [hindex, htext, IsUpdate, deltaOf, numbered]
      | some reason => constructor <;> simp [hindex, htext, IsUpdate, deltaOf, numbered]
  · simpa [hindex] using Sends.nothing rfl

theorem sends_takeChoices (state : StreamState) (choices : List CompletionChoice) :
    Sends state (takeChoices requestId state choices).1
      (((choices.filter fun choice => choice.index = 0).map CompletionChoice.text).filter
        fun text => text ≠ [])
      (takeChoices requestId state choices).2 := by
  induction choices generalizing state with
  | nil => exact .nothing rfl
  | cons choice choices ih =>
    have hboth := (sends_takeChoice requestId state choice).append (ih _)
    rw [← List.filter_append, ← List.map_append, ← List.filter_append] at hboth
    exact hboth

theorem sends_takeUsage (state : StreamState) (usage : Option CompletionUsage) :
    Sends state (takeUsage requestId state usage).1 [] (takeUsage requestId state usage).2 := by
  cases usage with
  | none => exact .nothing rfl
  | some remote => constructor <;> simp [takeUsage, IsUpdate, deltaOf, numbered]

/-- A chunk sends the texts of its first choice. -/
theorem sends_takeChunk (state : StreamState) (chunk : CompletionChunk) :
    Sends state (takeChunk requestId state chunk).1 (chunk.texts.filter fun text => text ≠ [])
      (takeChunk requestId state chunk).2 :=
  (sends_takeUsage requestId state chunk.usage).append (sends_takeChoices requestId _ chunk.choices)

variable {parse : String → Except String CompletionChunk}

/-- How the stream ends: with an error, or as finished behind the marker or the last chunk. -/
inductive Ending (parse : String → Except String CompletionChunk) (requestId : RequestId)
    (received : List SseItem) : Except EngineError EngineEvent → Prop
  | failed (error : EngineError) (refused : ∃ item ∈ received, chunkOf parse item = none) :
      Ending parse requestId received (.error error)
  | done (reason : EngineFinishReason) (usage : Usage) (marked : DoneReceived parse received) :
      Ending parse requestId received (.ok (.finished requestId reason usage))
  | silent (reason : EngineFinishReason) (usage : Usage)
      (chunks : ∀ item ∈ received, chunkOf parse item ≠ none) :
      Ending parse requestId received (.ok (.finished requestId reason usage))

/-- A chunk before the others changes nothing about the end. -/
theorem Ending.cons {item : SseItem} {received : List SseItem}
    {last : Except EngineError EngineEvent} {chunk : CompletionChunk}
    (hchunk : chunkOf parse item = some chunk) (h : Ending parse requestId received last) :
    Ending parse requestId (item :: received) last := by
  cases h with
  | failed error refused =>
    obtain ⟨item', hmem, hnone⟩ := refused
    exact .failed error ⟨item', List.mem_cons_of_mem _ hmem, hnone⟩
  | done reason usage marked =>
    refine .done reason usage ?_
    rw [DoneReceived, List.find?_cons_of_neg (by simp [hchunk])]
    exact marked
  | silent reason usage chunks =>
    refine .silent reason usage fun item' hmem => ?_
    rcases List.mem_cons.mp hmem with rfl | hmem
    · simp [hchunk]
    · exact chunks item' hmem

/-- The loop ends at what is not a chunk. -/
theorem readItems_of_chunkOf_eq_none {item : SseItem} {received : List SseItem}
    (h : chunkOf parse item = none) (state : StreamState) :
    ∃ last, readItems parse requestId state (item :: received) = [last] ∧
      Ending parse requestId (item :: received) last := by
  have hrefused : ∃ item' ∈ item :: received, chunkOf parse item' = none :=
    ⟨item, List.mem_cons_self, h⟩
  cases item with
  | error error => exact ⟨_, rfl, .failed _ hrefused⟩
  | ok data =>
    by_cases hdone : data = "[DONE]"
    · rw [readItems, if_pos hdone]
      refine ⟨_, rfl, .done _ _ ?_⟩
      rw [DoneReceived, List.find?_cons_of_pos (by simp [h]), hdone]
    · rw [readItems, if_neg hdone]
      rw [chunkOf, if_neg hdone] at h
      split at h
      next => exact ⟨_, rfl, .failed _ hrefused⟩
      next chunk hparse =>
        split at h
        next herror =>
          obtain ⟨error, herror⟩ := Option.isSome_iff_exists.mp herror
          simp only [herror]
          exact ⟨_, rfl, .failed _ hrefused⟩
        next => cases h

/-- The loop goes on behind a chunk. -/
theorem readItems_of_chunkOf_eq_some {item : SseItem} {received : List SseItem}
    {chunk : CompletionChunk} (h : chunkOf parse item = some chunk) (state : StreamState) :
    readItems parse requestId state (item :: received) =
      (takeChunk requestId state chunk).2.map .ok ++
        readItems parse requestId (takeChunk requestId state chunk).1 received := by
  cases item with
  | error error => cases h
  | ok data =>
    rw [chunkOf] at h
    split at h
    next => cases h
    next hdata =>
      split at h
      next => cases h
      next chunk' hparse =>
        split at h
        next => cases h
        next herror =>
          cases h
          rw [readItems, if_neg hdata, hparse]
          simp only [Option.not_isSome_iff_eq_none.mp herror]

/-- The loop sends the texts of the chunks that it reads, and then ends. -/
theorem readItems_eq (parse : String → Except String CompletionChunk) (state : StreamState)
    (received : List SseItem) :
    ∃ next updates last, readItems parse requestId state received =
      updates.map .ok ++ [last] ∧
      Sends state next (sentTexts (chunksBefore parse received)) updates ∧
      Ending parse requestId received last := by
  induction received generalizing state with
  | nil => exact ⟨state, [], _, rfl, .nothing rfl, .silent _ _ (by simp)⟩
  | cons item received ih =>
    rw [chunksBefore]
    cases hchunk : chunkOf parse item with
    | none =>
      obtain ⟨last, hlast, hending⟩ := readItems_of_chunkOf_eq_none requestId hchunk state
      exact ⟨state, [], last, hlast, .nothing rfl, hending⟩
    | some chunk =>
      obtain ⟨next, updates, last, hrest, hsends, hending⟩ :=
        ih (takeChunk requestId state chunk).1
      refine ⟨next, (takeChunk requestId state chunk).2 ++ updates, last, ?_, ?_,
        hending.cons requestId hchunk⟩
      · rw [readItems_of_chunkOf_eq_some requestId hchunk, hrest, List.map_append,
          List.append_assoc]
      · have hboth := (sends_takeChunk requestId state chunk).append hsends
        rwa [sentTexts, choiceTexts, ← List.filter_append, ← List.flatMap_cons] at hboth

end Sending

/-- What is sent on has the texts of the first choice. -/
theorem flatten_sentTexts (chunks : List CompletionChunk) :
    (sentTexts chunks).flatten = (choiceTexts chunks).flatten :=
  List.flatten_filter_ne_nil

/-- The stream reports what was received exactly if the remote engine concludes before the
transport ends, and the numbers of the texts do not wrap around. -/
theorem reports_iff (parse : String → Except String CompletionChunk) (requestId : RequestId)
    (received : List SseItem) :
    Reports parse requestId received (completionStream parse requestId received) ↔
      Concluded parse received ∧ (sentTexts (chunksBefore parse received)).length < 2 ^ 64 := by
  obtain ⟨next, updates, last, hstream, hsends, hending⟩ :=
    readItems_eq requestId parse .initial received
  rw [Reports, completionStream, hstream]
  constructor
  · rintro ⟨updates', last', heq, -, hnumbers, -, hends⟩
    obtain ⟨hupdates, hlast⟩ := List.append_inj' (List.cons.inj heq).2 rfl
    cases List.map_injective_iff.mpr (fun _ _ h => Except.ok.inj h) hupdates
    cases hlast
    rw [hsends.deltas] at hnumbers
    refine ⟨?_, pairwise_numbered_iff.mp hnumbers⟩
    cases hending with
    | failed error refused => exact .inl refused
    | done reason usage marked =>
      exact .inl ⟨_, List.mem_of_find?_eq_some marked, by simpa using List.find?_some marked⟩
    | silent reason usage chunks =>
      rcases hends with hreason | hdone
      · exact .inr hreason
      · have hnone := List.find?_some hdone
        exact absurd (by simpa using hnone) (chunks _ (List.mem_of_find?_eq_some hdone))
  · rintro ⟨hconcluded, hshort⟩
    refine ⟨updates, last, rfl, hsends.updates, ?_, ?_, ?_⟩
    · rw [hsends.deltas]
      exact pairwise_numbered_iff.mpr hshort
    · rw [hsends.deltas, map_snd_numbered, flatten_sentTexts]
    · cases hending with
      | failed error refused => trivial
      | done reason usage marked => exact .inr marked
      | silent reason usage chunks =>
        rcases hconcluded with ⟨item, hmem, hnone⟩ | hreason
        · exact absurd hnone (chunks item hmem)
        · exact .inl hreason

/-- The data of an event with a part of a text. -/
def partialData : String :=
  "\x7b\"choices\":[\x7b\"index\":0,\"text\":\"Hel\"\x7d]\x7d"

/-- Its chunk. -/
def partialChunk : CompletionChunk where
  choices := [⟨0, "Hel".toList, none⟩]

/-- JSON as far as that event needs it. -/
def partialParse (data : String) : Except String CompletionChunk :=
  if data = partialData then .ok partialChunk else .error "expected value"

/-- A transport that ends after a part of the text, without a reason to finish and without the
marker, is reported as a completion that has stopped. -/
theorem not_reports_partialData :
    completionStream partialParse "r" [.ok partialData] =
      [.ok (.accepted "r"), .ok (.textDelta "r" 1 "Hel".toList),
        .ok (.finished "r" .stop ⟨0, 0⟩)] ∧
    ¬ Reports partialParse "r" [.ok partialData]
      (completionStream partialParse "r" [.ok partialData]) := by
  have hstream : completionStream partialParse "r" [.ok partialData] =
      [Except.ok (.accepted "r")] ++ ([Except.ok (.textDelta "r" 1 "Hel".toList)] ++
        [Except.ok (.finished "r" .stop ⟨0, 0⟩)]) := by
    rfl
  refine ⟨hstream, ?_⟩
  rw [hstream]
  rintro ⟨updates, last, heq, -, -, -, hends⟩
  have hrest : [Except.ok (.textDelta "r" 1 "Hel".toList)] ++
      [Except.ok (.finished "r" .stop ⟨0, 0⟩)] = updates.map Except.ok ++ [last] := (List.cons.inj heq).2
  obtain ⟨-, hlast⟩ := List.append_inj' hrest rfl
  cases hlast
  rcases hends with ⟨chunk, hchunk, choice, hchoice, -, hreason⟩ | hdone
  · cases List.mem_singleton.mp hchunk
    cases List.mem_singleton.mp hchoice
    cases hreason
  · cases hdone

end Locus.Engine
