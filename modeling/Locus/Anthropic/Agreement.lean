import Locus.Anthropic.Client

/-!
# The two forms of a message

A stream breaks off when arguments or a completion come for a call whose block is not the
newest; the collector skips them. So the two forms of a message differ exactly if there are
such events and the collector still returns a message.
-/

namespace Locus.Anthropic

open Locus.Core Locus.Lib Locus.ModelIo Locus.Parser

/-- The stream ends with an error. -/
def EndsInError (sent : List MessageEvent) : Prop :=
  ∃ before errorType message, sent = before ++ [.error errorType message]

/-- Either form of the message fails, or both have the same content, the same reason and
the same number of tokens. -/
def FormsAgree (serde : Serde) (requestId model : String) (events : List ModelEvent) : Prop :=
  let sent := messagesSse serde requestId model (events.map .ok)
  match collectMessage serde requestId model (events.map .ok) with
  | .error _ => EndsInError sent
  | .ok message =>
    ¬ EndsInError sent ∧ (reassembleMessage sent).content serde = .ok message.content ∧
      (reassembleMessage sent).stopReason = some message.stopReason ∧
      (reassembleMessage sent).outputTokens = some message.usage.outputTokens

/-- The stream goes on at each event. -/
def GoesThrough (serde : Serde) (history : List ModelEvent) : Prop :=
  Throughout (fun before event => ¬ Breaks serde before event) history

/-- Some block that gets no more arguments has arguments that are not an object. -/
def Doomed (serde : Serde) (history : List ModelEvent) : Prop :=
  ∃ callId ∈ startedCallIds history, ¬ serde.IsObject (newestArguments history callId) ∧
    ¬ (newestBlock history = some (.call callId) ∧ (openArguments history callId).isSome = true)

variable {serde : Serde} {requestId model : String} {history : List ModelEvent}
  {event : ModelEvent} {state : StreamState} {sent : List MessageEvent}

/-- An error at the end is at the end of the whole. -/
theorem EndsInError.append {rest : List MessageEvent} (h : EndsInError rest)
    (sent : List MessageEvent) : EndsInError (sent ++ rest) := by
  obtain ⟨before, errorType, message, rfl⟩ := h
  exact ⟨sent ++ before, errorType, message, (List.append_assoc _ _ _).symm⟩

/-- The start of the message is nothing to the client. -/
theorem Follows.opened (h : Follows history state sent) (requestId model : String) :
    Follows history { state with started := true }
      (sent ++ if state.started then [] else [.messageStart requestId model ⟨0, 0⟩]) := by
  refine ⟨h.next, h.active, ?_⟩
  rw [reassembleMessage_append, ← h.client]
  split <;> rfl

/-- A stream that goes through these events is in step with the collector. -/
theorem follows_of_goesThrough (proper : Proper history) (h : GoesThrough serde history)
    (requestId model : String) :
    ∃ state sent, Follows history state sent ∧ ∀ rest,
      messagesSse serde requestId model (history.map .ok ++ rest) =
        sent ++ emitAll (StreamState.step serde requestId model) state rest := by
  induction proper with
  | nil => exact ⟨{}, [], ⟨rfl, rfl, rfl⟩, fun _ => rfl⟩
  | @snoc history event proper may ih =>
    obtain ⟨hbefore, hlast⟩ := throughout_concat.mp h
    obtain ⟨state, sent, hfollows, hemit⟩ := ih hbefore
    obtain ⟨next, out, hreact, hnext⟩ :=
      goesOn_of_not_breaks proper may (hfollows.opened requestId model) hlast
    refine ⟨next, _, hnext, ?_⟩
    intro rest
    rw [List.map_append, List.append_assoc, hemit]
    simp [emitAll, StreamState.step, hreact, StreamState.sendFirst]

/-- An event at which the stream breaks off is its last. -/
theorem endsInError_of_react {before : List MessageEvent} {error : ApiError}
    (h : { state with started := true }.react serde event =
      .error (before ++ [streamError error]))
    (rest : List (Except ApiError ModelEvent)) :
    EndsInError (emitAll (StreamState.step serde requestId model) state (.ok event :: rest)) := by
  simp only [emitAll, StreamState.step, h, StreamState.sendFirst]
  rw [← List.append_assoc]
  exact ⟨_, _, _, rfl⟩

/-- A stream ends with an error at the first event at which it breaks off. -/
theorem endsInError_at (proper : Proper history) (hbefore : GoesThrough serde history)
    (h : ¬ GoesThrough serde (history ++ [event])) (rest : List (Except ApiError ModelEvent)) :
    EndsInError (messagesSse serde requestId model ((history ++ [event]).map .ok ++ rest)) := by
  have hbreaks : Breaks serde history event := by
    by_contra hnot
    exact h (throughout_concat.mpr ⟨hbefore, hnot⟩)
  obtain ⟨state, sent, hfollows, hemit⟩ := follows_of_goesThrough proper hbefore requestId model
  obtain ⟨before, error, hreact⟩ := react_of_breaks (hfollows.opened requestId model) hbreaks
  rw [List.map_append, List.append_assoc, hemit]
  exact (endsInError_of_react hreact rest).append sent

/-- A stream that does not go through ends with an error. -/
theorem endsInError_of_breaks (proper : Proper history)
    (h : ¬ GoesThrough serde (history ++ [event])) (rest : List (Except ApiError ModelEvent)) :
    EndsInError (messagesSse serde requestId model ((history ++ [event]).map .ok ++ rest)) := by
  induction proper generalizing event rest with
  | nil => exact endsInError_at .nil throughout_nil h rest
  | @snoc history previous proper may ih =>
    by_cases hbefore : GoesThrough serde (history ++ [previous])
    · exact endsInError_at (proper.snoc may) hbefore h rest
    · rw [List.map_append, List.append_assoc]
      exact ih hbefore _

/-- The end of a stream that goes through. -/
theorem messagesSse_finished (proper : Proper history) {sender : RequestId}
    {reason : ModelFinishReason} {usage : Usage}
    (h : GoesThrough serde (history ++ [ModelEvent.finished sender reason usage])) :
    ∃ sent, (reassembleMessage sent).blocks =
        (MessageAccumulator.after history).content.map OutputBlock.received ∧
      messagesSse serde requestId model
          ((history ++ [ModelEvent.finished sender reason usage]).map .ok) =
        sent ++ if isFailure reason then
          [streamError (apiError "model execution did not complete successfully")]
        else [.messageDelta (anthropicStopReason (some reason)) usage.outputTokens,
          .messageStop] := by
  obtain ⟨hbefore, hclosable⟩ := throughout_concat.mp h
  obtain ⟨state, sent, hfollows, hemit⟩ := follows_of_goesThrough proper hbefore requestId model
  have hopened := hfollows.opened requestId model
  have hactive : { state with started := true, usage }.active = activeBlock history _ :=
    hopened.active
  obtain ⟨stops, hclosing, hstops⟩ := closing_closable hactive hclosable
  refine ⟨sent ++ (if state.started then [] else [.messageStart requestId model ⟨0, 0⟩]) ++ stops,
    ?_, ?_⟩
  · rw [reassembleMessage_append, hstops, hopened.client]
  · rw [List.map_append, hemit]
    simp only [List.map_cons, List.map_nil, emitAll, StreamState.step, StreamState.react, hclosing]
    cases isFailure reason <;> simp [StreamState.sendFirst]

/-- Blocks whose arguments are objects are collected, and a client reads the same values. -/
theorem collected_of_objects {content : List OutputBlock}
    (h : ∀ call ∈ content.filterMap OutputBlock.toolCall, serde.IsObject call.2) :
    ∃ values, content.mapM (OutputBlock.value serde) = .ok values ∧
      (content.map OutputBlock.received).mapM (ClientBlock.value serde) = .ok values := by
  induction content with
  | nil => exact ⟨[], rfl, rfl⟩
  | cons block content ih =>
    have hrest : ∀ call ∈ content.filterMap OutputBlock.toolCall, serde.IsObject call.2 := by
      intro call hmem
      obtain ⟨other, hother, hcall⟩ := List.mem_filterMap.mp hmem
      exact h call (List.mem_filterMap.mpr ⟨other, List.mem_cons_of_mem _ hother, hcall⟩)
    obtain ⟨values, hcollected, hread⟩ := ih hrest
    cases block with
    | text text =>
      exact ⟨.text text :: values, mapM_cons_eq_ok.mpr ⟨_, _, rfl, hcollected, rfl⟩,
        mapM_cons_eq_ok.mpr ⟨_, _, rfl, hread, rfl⟩⟩
    | tool id name arguments =>
      have hobject : serde.IsObject arguments := h (id, arguments) (by simp [OutputBlock.toolCall])
      obtain ⟨input, hinput⟩ := parseToolInput_ok_iff.mpr hobject
      refine ⟨.toolUse id name input :: values, mapM_cons_eq_ok.mpr ⟨_, _, ?_, hcollected, rfl⟩,
        mapM_cons_eq_ok.mpr ⟨_, _, ?_, hread, rfl⟩⟩
      · rw [OutputBlock.value, hinput]
        rfl
      · simp only [OutputBlock.received, ClientBlock.value]
        rw [fromStr_of_parseToolInput hinput]
        rfl

/-- Collected blocks have arguments that are objects. -/
theorem objects_of_collected {content : List OutputBlock} {values : List (ContentValue serde)}
    (h : content.mapM (OutputBlock.value serde) = .ok values) :
    ∀ call ∈ content.filterMap OutputBlock.toolCall, serde.IsObject call.2 := by
  induction content generalizing values with
  | nil =>
    intro call hmem
    cases hmem
  | cons block content ih =>
    obtain ⟨value, rest, hvalue, hrest, rfl⟩ := mapM_cons_eq_ok.mp h
    intro call hmem
    obtain ⟨other, hother, hcall⟩ := List.mem_filterMap.mp hmem
    rcases List.mem_cons.mp hother with rfl | hother
    · cases other with
      | text text => cases hcall
      | tool id name arguments =>
        cases hcall
        rw [OutputBlock.value] at hvalue
        apply parseToolInput_ok_iff.mp
        cases hparse : parseToolInput serde arguments with
        | error error =>
          rw [hparse] at hvalue
          cases hvalue
        | ok input => exact ⟨input, rfl⟩
    · exact ih hrest call (List.mem_filterMap.mpr ⟨other, hother, hcall⟩)

/-- The collected form of a finished sequence. -/
theorem collectMessage_finished (history : List ModelEvent) (sender : RequestId)
    (reason : ModelFinishReason) (usage : Usage) :
    collectMessage serde requestId model
        ((history ++ [ModelEvent.finished sender reason usage]).map .ok) =
      if isFailure reason then
        .error ((apiError "model execution did not complete successfully").withRequestId requestId)
      else
        match (MessageAccumulator.after history).content.mapM (OutputBlock.value serde) with
        | .error error => .error (error.withRequestId requestId)
        | .ok content =>
          .ok ⟨requestId, content, model, anthropicStopReason (some reason), usage⟩ := by
  have hcollect : collect ((history ++ [ModelEvent.finished sender reason usage]).map .ok) =
      .ok ((MessageAccumulator.after history).apply (.finished sender reason usage)) := by
    rw [← accumulator_concat]
    exact foldlM_map_ok _ _ _
  rw [collectMessage, hcollect]
  rfl

/-- The calls whose collected arguments are not objects. -/
theorem objects_iff (proper : Proper history) :
    (∀ call ∈ (MessageAccumulator.after history).content.filterMap OutputBlock.toolCall,
        serde.IsObject call.2) ↔
      ∀ callId ∈ startedCallIds history, serde.IsObject (newestArguments history callId) := by
  rw [toolCalls_after proper]
  simp

/-- A block is closed for good when another one is begun. -/
theorem doomed_or_unclosable : Doomed serde history ∨ Unclosable serde history ↔
    ∃ callId ∈ startedCallIds history, ¬ serde.IsObject (newestArguments history callId) := by
  constructor
  · rintro (⟨callId, hstarted, hobject, -⟩ | ⟨callId, hnewest, -, hobject⟩)
    · exact ⟨callId, hstarted, hobject⟩
    · exact ⟨callId, started_of_newestBlock hnewest, hobject⟩
  · rintro ⟨callId, hstarted, hobject⟩
    by_cases hopen : newestBlock history = some (.call callId) ∧
        (openArguments history callId).isSome = true
    · exact .inr ⟨callId, hopen.1, hopen.2, hobject⟩
    · exact .inl ⟨callId, hstarted, hobject, hopen⟩

/-- A call that is begun closes the block before it. -/
theorem doomed_toolCallStarted {sender : RequestId} {started name : String}
    (hfresh : started ∉ startedCallIds history) :
    Doomed serde (history ++ [.toolCallStarted sender started name]) ↔
      Doomed serde history ∨ Breaks serde history (.toolCallStarted sender started name) := by
  refine Iff.trans ?_ doomed_or_unclosable.symm
  have hadded : newestArguments (history ++ [.toolCallStarted sender started name]) =
      newestArguments history :=
    newestArguments_concat_of_nil fun _ _ => rfl
  rw [Doomed, hadded, startedCallIds_append]
  constructor
  · rintro ⟨callId, hstarted, hobject, hclosed⟩
    rcases List.mem_append.mp hstarted with hold | hnew
    · exact ⟨callId, hold, hobject⟩
    · have heq : callId = started := by simpa [ModelEvent.startedCallId] using hnew
      subst heq
      exact (hclosed (by simp [nextBlock, trackCall])).elim
  · rintro ⟨callId, hstarted, hobject⟩
    refine ⟨callId, List.mem_append_left _ hstarted, hobject, ?_⟩
    rintro ⟨hnewest, -⟩
    have heq : started = callId := by simpa [nextBlock] using hnewest
    subst heq
    exact hfresh hstarted

/-- More arguments for the open call doom nothing. -/
theorem doomed_argumentsDelta {sender : RequestId} {extended : String} {delta : Text}
    (hnewest : newestBlock history = some (.call extended))
    (hopen : (openArguments history extended).isSome = true) :
    Doomed serde (history ++ [.toolCallArgumentsDelta sender extended delta]) ↔
      Doomed serde history ∨
        Breaks serde history (.toolCallArgumentsDelta sender extended delta) := by
  have hbreaks : ¬ Breaks serde history (.toolCallArgumentsDelta sender extended delta) :=
    not_not.mpr hnewest
  rw [or_iff_left hbreaks, Doomed, Doomed, startedCallIds_append, startedCallIds_singleton]
  simp only [ModelEvent.startedCallId, Option.toList_none, List.append_nil]
  -- The call itself is open before and after; the others are not concerned.
  apply exists_congr
  intro callId
  by_cases heq : extended = callId
  · subst heq
    simp [nextBlock, hnewest, trackCall, hopen]
  · simp [nextBlock, hnewest, heq]

/-- A call that is completed closes its block. -/
theorem doomed_toolCallCompleted {sender : RequestId} {completed : String} {arguments : Text}
    (hnewest : newestBlock history = some (.call completed)) :
    Doomed serde (history ++ [.toolCallCompleted sender completed arguments]) ↔
      Doomed serde history ∨
        Breaks serde history (.toolCallCompleted sender completed arguments) := by
  have hadded : newestArguments (history ++ [.toolCallCompleted sender completed arguments]) =
      newestArguments history :=
    newestArguments_concat_of_nil fun _ _ => rfl
  have hbreaks : Breaks serde history (.toolCallCompleted sender completed arguments) ↔
      Unclosable serde history :=
    or_iff_right (not_not.mpr hnewest)
  rw [hbreaks, doomed_or_unclosable, Doomed, hadded, startedCallIds_append,
    startedCallIds_singleton]
  simp only [ModelEvent.startedCallId, Option.toList_none, List.append_nil]
  apply exists_congr
  intro callId
  by_cases heq : completed = callId
  · simp [heq, trackCall]
  · simp [nextBlock, hnewest, heq]

/-- An event dooms a message exactly if the stream breaks off at it. -/
theorem doomed_concat (may : MayCome history event) (h : Undisplaced history event) :
    Doomed serde (history ++ [event]) ↔ Doomed serde history ∨ Breaks serde history event := by
  cases event with
  | textDelta sender text =>
    refine Iff.trans ?_ doomed_or_unclosable.symm
    simp [Doomed, nextBlock, ModelEvent.addedArguments, ModelEvent.startedCallId]
  | toolCallStarted sender started name => exact doomed_toolCallStarted may
  | toolCallArgumentsDelta sender extended delta => exact doomed_argumentsDelta h may
  | toolCallCompleted sender completed arguments => exact doomed_toolCallCompleted h
  | finished sender reason usage => exact may.elim
  | _ => simp [Doomed, Breaks, nextBlock, trackCall, ModelEvent.addedArguments,
      ModelEvent.startedCallId]

/-- Without displaced events the stream breaks off exactly if the message is doomed. -/
theorem doomed_iff (proper : Proper history) (h : Throughout Undisplaced history) :
    Doomed serde history ↔ ¬ GoesThrough serde history := by
  induction proper with
  | nil => simp [Doomed, GoesThrough]
  | @snoc history event proper may ih =>
    obtain ⟨hbefore, hlast⟩ := throughout_concat.mp h
    rw [doomed_concat may hlast, ih hbefore, GoesThrough, GoesThrough, throughout_concat]
    tauto

/-- A stream that goes through has no displaced events. -/
theorem undisplaced_of_goesThrough (h : GoesThrough serde history) :
    Throughout Undisplaced history := by
  intro before event after heq
  have hgoes := h before event after heq
  cases event with
  | toolCallArgumentsDelta sender callId delta => exact not_not.mp hgoes
  | toolCallCompleted sender callId arguments => exact not_not.mp (not_or.mp hgoes).1
  | _ => trivial

/-- A message is not collected exactly if the model failed or a call has collected
arguments that are not an object. -/
theorem collectMessage_error_iff (proper : Proper history) {sender : RequestId}
    {reason : ModelFinishReason} {usage : Usage} :
    (∃ error, collectMessage serde requestId model
        ((history ++ [ModelEvent.finished sender reason usage]).map .ok) = .error error) ↔
      isFailure reason = true ∨
        ∃ callId ∈ startedCallIds history, ¬ serde.IsObject (newestArguments history callId) := by
  rw [collectMessage_finished]
  cases isFailure reason with
  | true => simp
  | false =>
    cases hvalues : (MessageAccumulator.after history).content.mapM (OutputBlock.value serde) with
    | ok values =>
      have hall := (objects_iff proper).mp (objects_of_collected hvalues)
      simpa using hall
    | error error =>
      have hsome : ∃ callId ∈ startedCallIds history,
          ¬ serde.IsObject (newestArguments history callId) := by
        by_contra hnone
        have hall : ∀ callId ∈ startedCallIds history,
            serde.IsObject (newestArguments history callId) := by
          intro callId hstarted
          by_contra hobject
          exact hnone ⟨callId, hstarted, hobject⟩
        obtain ⟨values, hok, -⟩ := collected_of_objects ((objects_iff proper).mpr hall)
        rw [hvalues] at hok
        cases hok
      simpa using hsome

/-- A stream that goes through agrees with the collector. -/
theorem formsAgree_of_goesThrough (proper : Proper history) {sender : RequestId}
    {reason : ModelFinishReason} {usage : Usage}
    (h : GoesThrough serde (history ++ [ModelEvent.finished sender reason usage])) :
    FormsAgree serde requestId model (history ++ [ModelEvent.finished sender reason usage]) := by
  obtain ⟨sent, hblocks, hsent⟩ := messagesSse_finished proper h
  obtain ⟨hbefore, hclosable⟩ := throughout_concat.mp h
  have hdoomed : ¬ Doomed serde history := by
    rw [doomed_iff proper (undisplaced_of_goesThrough hbefore), not_not]
    exact hbefore
  have hobjects : ∀ callId ∈ startedCallIds history,
      serde.IsObject (newestArguments history callId) := by
    intro callId hstarted
    by_contra hobject
    rcases doomed_or_unclosable.mpr ⟨callId, hstarted, hobject⟩ with hdoom | hopen
    · exact hdoomed hdoom
    · exact hclosable hopen
  obtain ⟨values, hcollected, hread⟩ := collected_of_objects ((objects_iff proper).mpr hobjects)
  unfold FormsAgree
  rw [hsent, collectMessage_finished, hcollected]
  cases isFailure reason with
  | true => exact ⟨sent, _, _, rfl⟩
  | false =>
    have hclient : reassembleMessage (sent ++
        [MessageEvent.messageDelta (anthropicStopReason (some reason)) usage.outputTokens,
          .messageStop]) =
        ⟨(MessageAccumulator.after history).content.map OutputBlock.received,
          some (anthropicStopReason (some reason)), some usage.outputTokens⟩ := by
      rw [reassembleMessage_append, ← hblocks]
      rfl
    simp only [Bool.false_eq_true, if_false]
    refine ⟨?_, ?_, ?_, ?_⟩
    · rintro ⟨before, errorType, message, heq⟩
      have hlast := congrArg List.getLast? heq
      simp at hlast
    · rw [hclient]
      exact hread
    · rw [hclient]
    · rw [hclient]

/-- A stream that ends with an error agrees with a collector that fails. -/
theorem formsAgree_of_endsInError {events : List ModelEvent}
    (h : EndsInError (messagesSse serde requestId model (events.map .ok))) :
    FormsAgree serde requestId model events ↔
      ∃ error, collectMessage serde requestId model (events.map .ok) = .error error := by
  unfold FormsAgree
  cases collectMessage serde requestId model (events.map .ok) with
  | error error => simp [h]
  | ok message => simp [h]

/-- The two forms of a well-formed sequence agree exactly if arguments and completions only
come for the newest block, or the model failed, or a call has collected arguments that are
not an object. -/
theorem formsAgree_iff {body : List ModelEvent} (proper : Proper body) (sender : RequestId)
    (reason : ModelFinishReason) (usage : Usage) :
    FormsAgree serde requestId model (body ++ [.finished sender reason usage]) ↔
      Throughout Undisplaced body ∨ isFailure reason = true ∨
        ∃ callId ∈ startedCallIds body, ¬ serde.IsObject (newestArguments body callId) := by
  by_cases hgoes : GoesThrough serde (body ++ [ModelEvent.finished sender reason usage])
  · constructor
    · intro _
      exact .inl (undisplaced_of_goesThrough (throughout_concat.mp hgoes).1)
    · intro _
      exact formsAgree_of_goesThrough proper hgoes
  · have hends : EndsInError (messagesSse serde requestId model
        ((body ++ [ModelEvent.finished sender reason usage]).map .ok)) := by
      rw [← List.append_nil (List.map _ _)]
      exact endsInError_of_breaks proper hgoes []
    have hundisplaced : Throughout Undisplaced body →
        ∃ callId ∈ startedCallIds body, ¬ serde.IsObject (newestArguments body callId) := by
      intro hthroughout
      apply doomed_or_unclosable.mp
      by_cases hbody : GoesThrough serde body
      · right
        by_contra hclosable
        exact hgoes (throughout_concat.mpr ⟨hbody, hclosable⟩)
      · left
        exact (doomed_iff proper hthroughout).mpr hbody
    rw [formsAgree_of_endsInError hends, collectMessage_error_iff proper]
    constructor
    · exact .inr
    · rintro (hthroughout | hfails)
      · exact .inr (hundisplaced hthroughout)
      · exact hfails

/-- The two forms of calls that follow one another agree. -/
theorem formsAgree_sampleSequence :
    FormsAgree sampleSerde "request" "model" sampleSequence := by
  have hproper : Proper sampleSequence.dropLast := proper_of_throughout (by decide)
  exact (formsAgree_iff hproper "request" .toolCall ⟨1, 1⟩).mpr (.inl (by decide))

/-- Of two calls at the same time the stream refuses the completion of the first, while the
collector returns both. -/
theorem not_formsAgree_sampleInterleaved : WellFormed sampleInterleaved ∧
    (∀ sender callId arguments, .toolCallCompleted sender callId arguments ∈ sampleInterleaved →
      sampleSerde.IsObject arguments) ∧
    ¬ FormsAgree sampleSerde "request" "model" sampleInterleaved := by
  refine ⟨wellFormed_sampleInterleaved, ?_, ?_⟩
  · intro sender callId arguments hmem
    have heq : arguments = sampleArguments := by
      simp only [sampleInterleaved, List.mem_cons, ModelEvent.toolCallCompleted.injEq,
        reduceCtorEq, List.not_mem_nil, false_or, or_false] at hmem
      rcases hmem with ⟨-, -, heq⟩ | ⟨-, -, heq⟩ <;> exact heq
    subst heq
    exact ⟨.arguments, ∅, rfl, rfl⟩
  · intro hagree
    obtain ⟨message, hmessage⟩ : ∃ message, collectMessage sampleSerde "request" "model"
        (sampleInterleaved.map .ok) = .ok message :=
      ⟨_, rfl⟩
    unfold FormsAgree at hagree
    rw [hmessage] at hagree
    apply hagree.1
    exact ⟨(messagesSse sampleSerde "request" "model" (sampleInterleaved.map .ok)).dropLast,
      "api_error", "tool completion did not match the active tool block", by decide⟩

end Locus.Anthropic
