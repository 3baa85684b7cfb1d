import Locus.Anthropic.Messages

/-!
# The grammar of a message stream

Whatever events and errors the stream receives, what it sends is a word of the protocol:
a start, blocks with consecutive indices one at a time, and at most one end.
-/

namespace Locus.Anthropic

open Locus.Core Locus.Lib Locus.ModelIo Locus.Parser

inductive BlockKind
  | text
  | toolUse
  deriving DecidableEq

def StartedBlock.kind : StartedBlock → BlockKind
  | .text => .text
  | .toolUse _ _ => .toolUse

def BlockDelta.kind : BlockDelta → BlockKind
  | .textDelta _ => .text
  | .inputJsonDelta _ => .toolUse

/-- How far a word of the protocol is read. -/
inductive Phase
  | blank
  | between (nextIndex : ℕ)
  | inBlock (index : ℕ) (kind : BlockKind)
  | ended
  | done
  deriving DecidableEq

namespace Phase

/-- The events that a phase allows. -/
def read : Phase → MessageEvent → Option Phase
  | .blank, .messageStart _ _ _ => some (.between 0)
  | .between nextIndex, .contentBlockStart index block =>
    if index = nextIndex then some (.inBlock index block.kind) else none
  | .inBlock index kind, .contentBlockDelta index' delta =>
    if index' = index ∧ delta.kind = kind then some (.inBlock index kind) else none
  | .inBlock index _, .contentBlockStop index' =>
    if index' = index then some (.between (index + 1)) else none
  | .between _, .messageDelta _ _ => some .ended
  | .ended, .messageStop => some .done
  | .blank, .error _ _ | .between _, .error _ _ | .inBlock _ _, .error _ _ => some .done
  | _, _ => none

/-- Read a whole word. -/
def reads (phase : Phase) (events : List MessageEvent) : Option Phase :=
  events.foldlM read phase

end Phase

/-- The phase that a stream is in. -/
def StreamState.phase (state : StreamState) : Phase :=
  if state.started then
    match state.active with
    | none => .between state.nextIndex
    | some (.text index) => .inBlock index .text
    | some (.tool index _ _) => .inBlock index .toolUse
  else .blank

/-- The index of the active block is the one before the next index. -/
structure StreamState.Counted (state : StreamState) : Prop where
  text : ∀ index, state.active = some (.text index) → state.nextIndex = index + 1
  tool : ∀ index id arguments, state.active = some (.tool index id arguments) →
    state.nextIndex = index + 1
  blank : state.started = false → state.active = none ∧ state.nextIndex = 0

variable {serde : Serde} {requestId model : String} {phase next : Phase}
  {events rest last sent : List MessageEvent} {state closed : StreamState}
  {error : ApiError}

@[simp] theorem Phase.reads_nil : phase.reads [] = some phase :=
  rfl

@[simp] theorem Phase.reads_cons (event : MessageEvent) :
    phase.reads (event :: events) = (phase.read event).bind fun next => next.reads events :=
  rfl

/-- A word is read part by part. -/
theorem Phase.reads_append (h : phase.reads events = some next) :
    phase.reads (events ++ rest) = next.reads rest := by
  rw [reads, List.foldlM_append]
  rw [reads] at h
  rw [h]
  rfl

/-- An error may come at any time before the end. -/
theorem StreamState.reads_error (state : StreamState) :
    state.phase.reads [streamError error] = some .done := by
  unfold StreamState.phase
  split
  · split <;> rfl
  · rfl

/-- A turn goes on with a word, or ends it. -/
def Turn.Extends (phase : Phase) : Turn → Prop
  | .error last => phase.reads last = some .done
  | .ok (next, sent) =>
    next.started = true ∧ next.Counted ∧ phase.reads sent = some next.phase

/-- Closing the active block leaves no block open. -/
theorem extends_closing {goOn : StreamState → List MessageEvent → Turn} (counted : state.Counted)
    (hstarted : state.started = true)
    (h : ∀ events, state.phase.reads events = some (.between state.nextIndex) →
      (goOn { state with active := none } events).Extends state.phase) :
    (state.closing serde goOn).Extends state.phase := by
  unfold StreamState.closing StreamState.closeActive
  cases hactive : state.active with
  | none =>
    have hsame : { state with active := none } = state := by rw [← hactive]
    rw [hsame] at h
    apply h
    simp [StreamState.phase, hstarted, hactive]
  | some active =>
    cases active with
    | text index =>
      apply h
      simp [StreamState.phase, hstarted, hactive, Phase.read, counted.text index hactive]
    | tool index id arguments =>
      simp only
      cases parseToolInput serde arguments with
      | error error => exact state.reads_error
      | ok value =>
        apply h
        simp [StreamState.phase, hstarted, hactive, Phase.read,
          counted.tool index id arguments hactive]

/-- A block under the next index is counted. -/
theorem counted_openBlock {active : ℕ → ActiveBlock} (hstarted : state.started = true)
    (hindex : ∀ i, active i = .text i ∨ ∃ id arguments, active i = .tool i id arguments)
    (block : StartedBlock) (events : List MessageEvent) :
    (state.openBlock active block events).1.Counted := by
  refine ⟨?_, ?_, ?_⟩
  · intro index heq
    simp only [StreamState.openBlock, Option.some.injEq] at heq ⊢
    rcases hindex state.nextIndex with htext | ⟨id, arguments, htool⟩
    · rw [htext] at heq
      cases heq
      rfl
    · rw [htool] at heq
      cases heq
  · intro index id arguments heq
    simp only [StreamState.openBlock, Option.some.injEq] at heq ⊢
    rcases hindex state.nextIndex with htext | ⟨id, arguments, htool⟩
    · rw [htext] at heq
      cases heq
    · rw [htool] at heq
      cases heq
      rfl
  · intro hblank
    rw [StreamState.openBlock, hstarted] at hblank
    cases hblank

/-- A stream without an open block is counted. -/
theorem counted_none (hstarted : state.started = true) (hactive : state.active = none) :
    state.Counted := by
  refine ⟨?_, ?_, ?_⟩
  · intro index heq
    rw [hactive] at heq
    cases heq
  · intro index id arguments heq
    rw [hactive] at heq
    cases heq
  · intro hblank
    rw [hstarted] at hblank
    cases hblank

/-- Text goes to an open block of text, or to a new one. -/
theorem extends_textDelta (counted : state.Counted) (hstarted : state.started = true)
    (sender : RequestId) (text : Text) :
    (state.react serde (.textDelta sender text)).Extends state.phase := by
  have hopen : ((state.closing serde fun closed events =>
      StreamState.sendText text (closed.openBlock .text .text events))).Extends state.phase := by
    apply extends_closing counted hstarted
    intro events hread
    refine ⟨hstarted, counted_openBlock hstarted (fun i => .inl rfl) _ _, ?_⟩
    simp only [StreamState.openBlock, List.append_assoc]
    rw [Phase.reads_append hread]
    simp [Phase.read, StreamState.phase, hstarted, StreamState.textIndex, StartedBlock.kind,
      BlockDelta.kind]
  cases hactive : state.active with
  | none => simpa only [StreamState.react, hactive] using hopen
  | some active =>
    cases active with
    | text index =>
      simp only [StreamState.react, hactive, StreamState.sendText]
      refine ⟨hstarted, counted, ?_⟩
      simp [Phase.read, StreamState.phase, hstarted, hactive, StreamState.textIndex,
        BlockDelta.kind]
    | tool index id arguments => simpa only [StreamState.react, hactive] using hopen

/-- Arguments go to the open block of their call. -/
theorem extends_argumentsDelta (counted : state.Counted) (hstarted : state.started = true)
    (sender : RequestId) (callId : String) (delta : Text) :
    (state.react serde (.toolCallArgumentsDelta sender callId delta)).Extends state.phase := by
  cases hactive : state.active with
  | none =>
    simp only [StreamState.react, hactive]
    exact state.reads_error
  | some active =>
    cases active with
    | text index =>
      simp only [StreamState.react, hactive]
      exact state.reads_error
    | tool index id arguments =>
      simp only [StreamState.react, hactive]
      split
      · exact state.reads_error
      · refine ⟨hstarted, ⟨?_, ?_, ?_⟩, ?_⟩
        · intro index' heq
          cases heq
        · intro index' id' arguments' heq
          cases heq
          exact counted.tool index id arguments hactive
        · intro hblank
          rw [hstarted] at hblank
          cases hblank
        · simp [Phase.read, StreamState.phase, hstarted, hactive, BlockDelta.kind]

/-- Every event extends the word. -/
theorem extends_react (counted : state.Counted) (hstarted : state.started = true)
    (event : ModelEvent) : (state.react serde event).Extends state.phase := by
  cases event with
  | accepted sender => exact ⟨hstarted, counted, rfl⟩
  | reasoningDelta sender text => exact ⟨hstarted, counted, rfl⟩
  | textDelta sender text => exact extends_textDelta counted hstarted sender text
  | toolCallStarted sender callId name =>
    apply extends_closing counted hstarted
    intro events hread
    refine ⟨hstarted, counted_openBlock hstarted (fun i => .inr ⟨callId, [], rfl⟩)
      (.toolUse callId name) events, ?_⟩
    refine (Phase.reads_append hread).trans ?_
    simp [Phase.read, StreamState.phase, hstarted, StartedBlock.kind]
  | toolCallArgumentsDelta sender callId delta =>
    exact extends_argumentsDelta counted hstarted sender callId delta
  | toolCallCompleted sender callId arguments =>
    have hclose : (state.closing serde fun closed events => .ok (closed, events)).Extends
        state.phase := by
      apply extends_closing counted hstarted
      intro events hread
      refine ⟨hstarted, counted_none hstarted rfl, ?_⟩
      rw [hread]
      simp [StreamState.phase, hstarted]
    unfold StreamState.react
    simp only
    split
    · split
      · exact hclose
      · exact state.reads_error
    · exact state.reads_error
  | usage sender usage finalUpdate =>
    exact ⟨hstarted, ⟨counted.text, counted.tool, counted.blank⟩, rfl⟩
  | finished sender reason usage =>
    have hcounted : { state with usage }.Counted := ⟨counted.text, counted.tool, counted.blank⟩
    apply extends_closing hcounted hstarted
    intro events hread
    split
    · exact (Phase.reads_append hread).trans rfl
    · exact (Phase.reads_append hread).trans rfl

/-- Events that are sent first extend the word first. -/
theorem extends_sendFirst {turn : Turn} (hread : phase.reads events = some next)
    (h : turn.Extends next) : (StreamState.sendFirst events turn).Extends phase := by
  cases turn with
  | error last => exact (Phase.reads_append hread).trans h
  | ok result => exact ⟨h.1, h.2.1, (Phase.reads_append hread).trans h.2.2⟩

/-- Every turn extends the word. -/
theorem extends_step (counted : state.Counted) (result : Except ApiError ModelEvent) :
    (state.step serde requestId model result).Extends state.phase := by
  cases result with
  | error error => exact state.reads_error
  | ok event =>
    cases hstarted : state.started with
    | true =>
      have hsame : { state with started := true } = state := by rw [← hstarted]
      simp only [StreamState.step, hstarted, if_true, hsame]
      exact extends_sendFirst rfl (extends_react counted hstarted event)
    | false =>
      obtain ⟨hactive, hnext⟩ := counted.blank hstarted
      have hread : state.phase.reads [.messageStart requestId model ⟨0, 0⟩] =
          some (.between 0) := by
        simp [StreamState.phase, hstarted, Phase.read]
      have hphase : { state with started := true }.phase = .between 0 := by
        simp [StreamState.phase, hactive, hnext]
      have hcounted : { state with started := true }.Counted := counted_none rfl hactive
      have hreact : ({ state with started := true }.react serde event).Extends (.between 0) := by
        rw [← hphase]
        exact extends_react hcounted rfl event
      simp only [StreamState.step, hstarted, Bool.false_eq_true, if_false]
      exact extends_sendFirst hread hreact

/-- What the stream sends is a word. -/
theorem reads_emitAll (counted : state.Counted) (stream : List (Except ApiError ModelEvent)) :
    ∃ last, state.phase.reads (emitAll (StreamState.step serde requestId model) state stream) =
      some last := by
  induction stream generalizing state with
  | nil => exact ⟨state.phase, rfl⟩
  | cons result stream ih =>
    have hstep : (state.step serde requestId model result).Extends state.phase :=
      extends_step counted result
    unfold emitAll
    cases hturn : state.step serde requestId model result with
    | error last =>
      rw [hturn] at hstep
      exact ⟨.done, hstep⟩
    | ok turn =>
      rw [hturn] at hstep
      obtain ⟨-, hcounted, hread⟩ := hstep
      simp only [Phase.reads_append hread]
      exact ih hcounted

/-- A word that is read in two parts. -/
theorem Phase.reads_append_eq_some :
    phase.reads (events ++ rest) = some next ↔
      ∃ middle, phase.reads events = some middle ∧ middle.reads rest = some next := by
  rw [reads, List.foldlM_append]
  exact Option.bind_eq_some_iff

/-- Nothing follows the end of a word. -/
theorem Phase.reads_done (h : Phase.done.reads events = some next) : events = [] := by
  cases events with
  | nil => rfl
  | cons event events => cases h

/-- The end of a message is announced with no block open. -/
theorem Phase.of_read_ended {event : MessageEvent} (h : phase.read event = some .ended) :
    ∃ n reason tokens, phase = .between n ∧ event = .messageDelta reason tokens := by
  cases phase with
  | between n =>
    cases event with
    | messageDelta reason tokens => exact ⟨n, reason, tokens, rfl, rfl⟩
    | contentBlockStart index block =>
      simp only [read] at h
      split at h <;> cases h
    | _ => cases h
  | inBlock index kind =>
    cases event with
    | contentBlockDelta index' delta =>
      simp only [read] at h
      split at h <;> cases h
    | contentBlockStop index' =>
      simp only [read] at h
      split at h <;> cases h
    | _ => cases h
  | _ => cases event <;> cases h

/-- A message is stopped right after its last delta, with no block open. -/
theorem Phase.of_messageStop (h : Phase.blank.reads (events ++ .messageStop :: rest) = some next) :
    rest = [] ∧ ∃ earlier reason tokens n,
      events = earlier ++ [MessageEvent.messageDelta reason tokens] ∧
      Phase.blank.reads earlier = some (.between n) := by
  obtain ⟨middle, hevents, hstop⟩ := reads_append_eq_some.mp h
  cases middle with
  | ended =>
    refine ⟨reads_done hstop, ?_⟩
    rcases List.eq_nil_or_concat events with rfl | ⟨earlier, event, rfl⟩
    · cases hevents
    · rw [List.concat_eq_append] at hevents ⊢
      obtain ⟨phase, hearlier, hlast⟩ := reads_append_eq_some.mp hevents
      have hread : phase.read event = some .ended := by simpa using hlast
      obtain ⟨n, reason, tokens, rfl, rfl⟩ := of_read_ended hread
      exact ⟨earlier, reason, tokens, n, rfl, hearlier⟩
  | _ => cases hstop

/-- An error is the end of a word without a stop. -/
theorem Phase.of_error {errorType message : String}
    (h : Phase.blank.reads (events ++ .error errorType message :: rest) = some next) :
    rest = [] ∧ .messageStop ∉ events := by
  constructor
  · obtain ⟨middle, -, herror⟩ := reads_append_eq_some.mp h
    cases middle with
    | blank => exact reads_done herror
    | between n => exact reads_done herror
    | inBlock index kind => exact reads_done herror
    | ended => cases herror
    | done => cases herror
  · intro hmem
    obtain ⟨before, after, rfl⟩ := List.append_of_mem hmem
    rw [List.append_assoc, List.cons_append] at h
    have hnil := (of_messageStop h).1
    simp at hnil

/-- The first event starts the message. -/
theorem messagesSse_ok (event : ModelEvent) (stream : List (Except ApiError ModelEvent)) :
    ∃ rest, messagesSse serde requestId model (.ok event :: stream) =
      .messageStart requestId model ⟨0, 0⟩ :: rest := by
  simp only [messagesSse, emitAll, StreamState.step, Bool.false_eq_true, if_false]
  cases StreamState.react serde { started := true } event with
  | error last => exact ⟨last, rfl⟩
  | ok turn => exact ⟨_, rfl⟩

/-- Whatever the stream receives, it sends a word of the protocol. It starts the message
exactly if the first item is not an error. A stop comes last, right after the last delta
and with no block open. An error comes last and excludes a stop. -/
theorem messagesSse_word (stream : List (Except ApiError ModelEvent)) :
    (∃ phase, Phase.blank.reads (messagesSse serde requestId model stream) = some phase) ∧
    ((∃ rest, messagesSse serde requestId model stream =
        .messageStart requestId model ⟨0, 0⟩ :: rest) ↔
      ∃ event rest, stream = .ok event :: rest) ∧
    (∀ before after, messagesSse serde requestId model stream = before ++ .messageStop :: after →
      after = [] ∧ ∃ earlier reason tokens n, before = earlier ++ [.messageDelta reason tokens] ∧
        Phase.blank.reads earlier = some (.between n)) ∧
    ∀ before after errorType message,
      messagesSse serde requestId model stream = before ++ .error errorType message :: after →
      after = [] ∧ .messageStop ∉ before := by
  have hcounted : StreamState.Counted {} := by
    refine ⟨?_, ?_, fun _ => ⟨rfl, rfl⟩⟩
    · intro index heq
      cases heq
    · intro index id arguments heq
      cases heq
  obtain ⟨phase, hread⟩ : ∃ phase,
      Phase.blank.reads (messagesSse serde requestId model stream) = some phase :=
    reads_emitAll hcounted stream
  refine ⟨⟨phase, hread⟩, ?_, ?_, ?_⟩
  · constructor
    · rintro ⟨rest, heq⟩
      cases stream with
      | nil => cases heq
      | cons result stream =>
        cases result with
        | error error => cases heq
        | ok event => exact ⟨event, stream, rfl⟩
    · rintro ⟨event, rest, rfl⟩
      exact messagesSse_ok event rest
  · intro before after heq
    rw [heq] at hread
    exact Phase.of_messageStop hread
  · intro before after errorType message heq
    rw [heq] at hread
    exact Phase.of_error hread

end Locus.Anthropic
