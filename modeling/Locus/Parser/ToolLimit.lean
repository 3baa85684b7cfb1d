import Locus.Parser.ToolChunks

/-!
# The buffer limit at chunk boundaries

The limit of the tool parser is meant for envelopes, but while a call is incomplete it is
compared with the whole buffer, which may already hold the beginning of the end
delimiter. So an envelope within the limit can be refused when a chunk ends inside its end
delimiter. A text is safe from this exactly if each of its envelopes leaves room for all
but the last character of the delimiter.
-/

namespace Locus.Parser

open Locus.Lib TaggedJsonToolParserState

/-- A complete text and the envelopes in it. -/
inductive Decomposes (serde : Serde) (definition : TaggedJsonToolParserDefinition) :
    ToolMode → Text → List Text → Prop
  | text {text : Text}
      (scanned : scan definition.startDelimiter definition.endDelimiter text = .held text []) :
      Decomposes serde definition .text text []
  | start {text before rest : Text} {envelopes : List Text}
      (scanned : scan definition.startDelimiter definition.endDelimiter text = .found before rest)
      (decomposed : Decomposes serde definition .tool rest envelopes) :
      Decomposes serde definition .text text envelopes
  | call {text : Text} {position : ℕ} {name : String} {arguments : Text} {envelopes : List Text}
      (complete : completeCall serde definition text = some (position, name, arguments))
      (fits : byteLen (text.take position) ≤ definition.maxBufferedBytes)
      (decomposed : Decomposes serde definition .text
        (text.drop (position + definition.endDelimiter.length)) envelopes) :
      Decomposes serde definition .tool text (text.take position :: envelopes)

/-- The envelope fits into the buffer with all but the last character of its end
delimiter. -/
def TaggedJsonToolParserDefinition.Roomy (definition : TaggedJsonToolParserDefinition)
    (envelope : Text) : Prop :=
  byteLen envelope + byteLen definition.endDelimiter.dropLast ≤ definition.maxBufferedBytes

/-- Every division of the text succeeds exactly if the whole does, with the same calls
and the same text between them. -/
def TaggedJsonToolParserDefinition.ChunkInvariantOn (definition : TaggedJsonToolParserDefinition)
    (serde : Serde) (text : Text) : Prop :=
  ∀ chunks, chunks.flatten = text →
    ((∃ output, definition.run serde chunks = .ok output) ↔
      ∃ output, definition.run serde [text] = .ok output) ∧
    ∀ output whole, definition.run serde chunks = .ok output →
      definition.run serde [text] = .ok whole → mergeText output = mergeText whole

/-- Neither delimiter occurs in the other. -/
def TaggedJsonToolParserDefinition.Disjoint (definition : TaggedJsonToolParserDefinition) : Prop :=
  (∀ i, ¬ OccursAt definition.startDelimiter definition.endDelimiter i) ∧
  ∀ i, ¬ OccursAt definition.endDelimiter definition.startDelimiter i

variable {serde : Serde} {definition : TaggedJsonToolParserDefinition} {mode : ToolMode}
  {text pending more : Text} {envelopes : List Text} {next : TaggedJsonToolParserState}
  {output : List ToolSegment}

/-- Delimiters that do not occur in one another are separate. -/
theorem TaggedJsonToolParserDefinition.Disjoint.separate (h : definition.Disjoint) :
    definition.Separate :=
  ⟨fun ⟨i, hocc, _⟩ => h.1 i hocc, fun ⟨i, hocc, _⟩ => h.2 i hocc⟩

/-- A complete text is accepted with nothing pending. -/
theorem Decomposes.accepts (h : Decomposes serde definition mode text envelopes) :
    ∃ output, Accepts serde definition mode text ⟨definition, .text, []⟩ output := by
  induction h with
  | text scanned => exact ⟨_, .stop scanned⟩
  | start scanned _ ih =>
    obtain ⟨output, haccepts⟩ := ih
    exact ⟨_, .start scanned haccepts⟩
  | call complete fits _ ih =>
    obtain ⟨output, haccepts⟩ := ih
    exact ⟨_, .call complete fits haccepts⟩

/-- A text has one list of envelopes. -/
theorem Decomposes.unique {envelopes' : List Text}
    (h : Decomposes serde definition mode text envelopes)
    (h' : Decomposes serde definition mode text envelopes') : envelopes = envelopes' := by
  induction h generalizing envelopes' with
  | text scanned =>
    cases h' with
    | text => rfl
    | start scanned' =>
      rw [scanned] at scanned'
      cases scanned'
  | start scanned _ ih =>
    cases h' with
    | text scanned' =>
      rw [scanned] at scanned'
      cases scanned'
    | start scanned' decomposed' =>
      rw [scanned] at scanned'
      cases scanned'
      exact ih decomposed'
  | call complete _ _ ih =>
    cases h' with
    | call complete' _ decomposed' =>
      rw [complete] at complete'
      cases complete'
      rw [ih decomposed']

/-- A text that is accepted and can be finished is complete. -/
theorem Accepts.decomposes (h : Accepts serde definition mode text next output)
    (hfinish : next.finish = .ok ()) :
    ∃ envelopes, Decomposes serde definition mode text envelopes := by
  induction h with
  | @stop pending emitted kept scanned =>
    have hkept : kept = [] := by
      by_contra hkept
      simp [finish, hkept] at hfinish
    have heq := ((scan_eq_held_iff definition.startDelimiter_ne_nil
      definition.endDelimiter_ne_nil).mp scanned).1
    rw [hkept, List.append_nil] at heq
    rw [hkept, ← heq] at scanned
    exact ⟨[], .text scanned⟩
  | start scanned _ ih =>
    obtain ⟨envelopes, hdecomposes⟩ := ih hfinish
    exact ⟨envelopes, .start scanned hdecomposes⟩
  | wait => simp [finish] at hfinish
  | call complete fits _ ih =>
    obtain ⟨envelopes, hdecomposes⟩ := ih hfinish
    exact ⟨_, .call complete fits hdecomposes⟩

/-- An incomplete call of a roomy envelope fits into the buffer. -/
theorem byteLen_le_of_roomy {position : ℕ} {name : String} {arguments : Text}
    (hnone : completeCall serde definition pending = none)
    (complete : completeCall serde definition (pending ++ more) =
      some (position, name, arguments))
    (hroomy : definition.Roomy ((pending ++ more).take position)) :
    byteLen pending ≤ definition.maxBufferedBytes := by
  have hlt := length_lt_of_completeCall_append hnone complete
  have hle := add_length_le_of_completeCall complete
  have hwhole := (completeCallFrom_occursAt complete).2.eq_append
  set envelope := (pending ++ more).take position with henvelope
  have hlen : envelope.length = position := by
    rw [henvelope, List.length_take]
    omega
  -- The buffer ends before the end delimiter does.
  have hprefix : envelope ++ definition.endDelimiter.dropLast <+: pending ++ more := by
    rw [hwhole]
    refine (List.prefix_append_right_inj _).mpr ?_
    exact (List.dropLast_prefix _).trans (List.prefix_append _ _)
  have hbuffer : pending <+: envelope ++ definition.endDelimiter.dropLast :=
    List.prefix_of_prefix_length_le (List.prefix_append _ _) hprefix (by
      rw [List.length_append, List.length_dropLast]
      omega)
  calc byteLen pending ≤ byteLen (envelope ++ definition.endDelimiter.dropLast) :=
        byteLen_le_of_prefix hbuffer
    _ = byteLen envelope + byteLen definition.endDelimiter.dropLast := byteLen_append _ _
    _ ≤ definition.maxBufferedBytes := hroomy

/-- If every envelope is roomy, every beginning of the text is accepted. -/
theorem Decomposes.accepts_of_roomy (hsep : definition.Separate)
    (h : Decomposes serde definition mode text envelopes)
    (hroomy : ∀ envelope ∈ envelopes, definition.Roomy envelope) (heq : text = pending ++ more) :
    ∃ next output, Accepts serde definition mode pending next output := by
  induction h generalizing pending with
  | text scanned =>
    subst heq
    cases hscan : scan definition.startDelimiter definition.endDelimiter pending with
    | unexpected =>
      rw [scan_append_unexpected hsep hscan] at scanned
      cases scanned
    | found before rest =>
      rw [scan_append_found hsep hscan] at scanned
      cases scanned
    | held emitted kept => exact ⟨_, _, .stop hscan⟩
  | start scanned _ ih =>
    subst heq
    cases hscan : scan definition.startDelimiter definition.endDelimiter pending with
    | unexpected =>
      rw [scan_append_unexpected hsep hscan] at scanned
      cases scanned
    | found before rest =>
      rw [scan_append_found hsep hscan] at scanned
      cases scanned
      obtain ⟨next, output, haccepts⟩ := ih hroomy rfl
      exact ⟨_, _, .start hscan haccepts⟩
    | held emitted kept => exact ⟨_, _, .stop hscan⟩
  | call complete fits _ ih =>
    subst heq
    rw [List.forall_mem_cons] at hroomy
    cases hcall : completeCall serde definition pending with
    | none => exact ⟨_, _, .wait hcall (byteLen_le_of_roomy hcall complete hroomy.1)⟩
    | some call =>
      have hsame := completeCall_append hcall more
      rw [complete] at hsame
      cases hsame
      have hle := add_length_le_of_completeCall hcall
      rw [List.take_append_of_le_length (by omega)] at fits
      obtain ⟨next, output, haccepts⟩ := ih hroomy.2 (List.drop_append_of_le_length hle)
      exact ⟨_, _, .call hcall fits haccepts⟩

/-- A call whose envelope is not roomy is refused when the text ends inside its end
delimiter. -/
theorem exists_refused_call {position : ℕ} {name : String} {arguments : Text}
    (complete : completeCall serde definition text = some (position, name, arguments))
    (hroomy : ¬ definition.Roomy (text.take position)) :
    ∃ pending more, text = pending ++ more ∧
      ∀ next output, ¬ Accepts serde definition .tool pending next output := by
  have hle := add_length_le_of_completeCall complete
  have hwhole := (completeCallFrom_occursAt complete).2.eq_append
  have hend := List.dropLast_append_getLast definition.endDelimiter_ne_nil
  set envelope := text.take position with henvelope
  have hlen : envelope.length = position := by
    rw [henvelope, List.length_take]
    omega
  set pending := envelope ++ definition.endDelimiter.dropLast with hpending
  set more := [definition.endDelimiter.getLast definition.endDelimiter_ne_nil] ++
    text.drop (position + definition.endDelimiter.length) with hmore
  have heq : text = pending ++ more := by
    rw [hpending, hmore, List.append_assoc, ← List.append_assoc definition.endDelimiter.dropLast,
      hend]
    exact hwhole
  have hlength : pending.length < position + definition.endDelimiter.length := by
    have hpos := List.length_pos_iff.mpr definition.endDelimiter_ne_nil
    rw [hpending, List.length_append, List.length_dropLast]
    omega
  have hnone : completeCall serde definition pending = none :=
    completeCall_eq_none_of_append (heq ▸ complete) hlength
  refine ⟨pending, more, heq, fun next output haccepts => ?_⟩
  cases haccepts with
  | wait _ fits =>
    rw [hpending, byteLen_append] at fits
    exact hroomy fits
  | call complete' =>
    rw [hnone] at complete'
    cases complete'

/-- What is refused behind a complete call is refused with the call in front. -/
theorem exists_refused_after {position : ℕ} {name : String} {arguments pending more : Text}
    (complete : completeCall serde definition text = some (position, name, arguments))
    (heq : text.drop (position + definition.endDelimiter.length) = pending ++ more)
    (hrefused : ∀ next output, ¬ Accepts serde definition .text pending next output) :
    ∃ pending more, text = pending ++ more ∧
      ∀ next output, ¬ Accepts serde definition .tool pending next output := by
  have hle := add_length_le_of_completeCall complete
  set cut := position + definition.endDelimiter.length with hcut
  have htext : text = text.take cut ++ pending ++ more := by
    rw [List.append_assoc, ← heq, List.take_append_drop]
  have hlen : (text.take cut).length = cut := by
    rw [List.length_take]
    omega
  have hcall : completeCall serde definition (text.take cut ++ pending) =
      some (position, name, arguments) := by
    refine completeCall_of_append (htext ▸ complete) ?_
    rw [List.length_append]
    omega
  refine ⟨text.take cut ++ pending, more, htext, fun next output haccepts => ?_⟩
  cases haccepts with
  | wait incomplete =>
    rw [hcall] at incomplete
    cases incomplete
  | call complete' _ accepted =>
    rw [hcall] at complete'
    cases complete'
    rw [← hcut, List.drop_left' hlen] at accepted
    exact hrefused _ _ accepted

/-- If some envelope is not roomy, some beginning of the text is refused. -/
theorem Decomposes.exists_refused (h : Decomposes serde definition mode text envelopes)
    {envelope : Text} (hmem : envelope ∈ envelopes) (hroomy : ¬ definition.Roomy envelope) :
    ∃ pending more, text = pending ++ more ∧
      ∀ next output, ¬ Accepts serde definition mode pending next output := by
  induction h with
  | text => cases hmem
  | @start text before rest envelopes scanned _ ih =>
    obtain ⟨pending, more, rfl, hrefused⟩ := ih hmem
    have hfound := (scan_eq_found_iff definition.startDelimiter_ne_nil
      definition.endDelimiter_ne_nil).mp scanned
    have hscan : scan definition.startDelimiter definition.endDelimiter
        (before ++ (definition.startDelimiter ++ pending)) = .found before pending := by
      obtain ⟨rfl, hclear⟩ := hfound
      exact (scan_eq_found_iff definition.startDelimiter_ne_nil
        definition.endDelimiter_ne_nil).mpr (FoundIn.of_append ⟨rfl, hclear⟩)
    refine ⟨before ++ (definition.startDelimiter ++ pending), more, by simp [hfound.1], ?_⟩
    intro next output haccepts
    cases haccepts with
    | stop scanned' =>
      rw [hscan] at scanned'
      cases scanned'
    | start scanned' accepted =>
      rw [hscan] at scanned'
      cases scanned'
      exact hrefused _ _ accepted
  | @call text position name arguments envelopes complete fits _ ih =>
    rcases List.mem_cons.mp hmem with rfl | hmem
    · exact exists_refused_call complete hroomy
    · obtain ⟨pending, more, heq, hrefused⟩ := ih hmem
      exact exists_refused_after complete heq hrefused

/-- A text is accepted as a whole exactly if it is complete. -/
theorem exists_run_singleton_iff :
    (∃ output, definition.run serde [text] = .ok output) ↔
      ∃ envelopes, Decomposes serde definition .text text envelopes := by
  unfold TaggedJsonToolParserDefinition.run
  rw [pushAll_singleton]
  constructor
  · rintro ⟨output, hrun⟩
    obtain ⟨state, hpush, hfinish⟩ := finishWith_eq_ok.mp hrun
    exact (accepts_of_pushLoop_eq hpush).decomposes hfinish
  · rintro ⟨envelopes, hdecomposes⟩
    obtain ⟨output, haccepts⟩ := hdecomposes.accepts
    exact ⟨output, finishWith_eq_ok.mpr ⟨_, haccepts.pushLoop_eq, rfl⟩⟩

/-- Chunks that succeed have an accepted first chunk. -/
theorem exists_accepts_of_run {chunk : Text} {chunks : List Text}
    (h : definition.run serde (chunk :: chunks) = .ok output) :
    ∃ next output, Accepts serde definition .text chunk next output := by
  obtain ⟨state, hpush, -⟩ := finishWith_eq_ok.mp h
  unfold pushAll at hpush
  split at hpush
  next => cases hpush
  next next first hfirst => exact ⟨next, first, accepts_of_pushLoop_eq hfirst⟩

/-- Chunks that succeed give what the whole text gives. -/
theorem exists_run_flatten (hsep : definition.Separate) {chunks : List Text}
    (h : definition.run serde chunks = .ok output) :
    ∃ whole, definition.run serde [chunks.flatten] = .ok whole ∧
      mergeText whole = mergeText output := by
  obtain ⟨state, hpush, hfinish⟩ := finishWith_eq_ok.mp h
  obtain ⟨whole, hwhole, hview⟩ := (splits_toolPush serde hsep).flatten_of_pushAll
    ⟨rfl, settled_toolState serde definition⟩ hpush
  refine ⟨whole, finishWith_eq_ok.mpr ⟨state, ?_, hfinish⟩, hview⟩
  rw [pushAll_singleton, hwhole]

/-- If every envelope is roomy, every division of the text succeeds. -/
theorem exists_run_of_roomy (hsep : definition.Separate) {chunks : List Text}
    (h : Decomposes serde definition .text chunks.flatten envelopes)
    (hroomy : ∀ envelope ∈ envelopes, definition.Roomy envelope) :
    ∃ output, definition.run serde chunks = .ok output := by
  have hsplits := splits_toolPush serde hsep
  have hready : definition.state.definition = definition ∧ definition.state.Settled serde :=
    ⟨rfl, settled_toolState serde definition⟩
  obtain ⟨⟨state, output⟩, hpush⟩ := hsplits.pushAll_of_flatten hready chunks
    fun piece more heq => by
      obtain ⟨next, output, haccepts⟩ := h.accepts_of_roomy hsep hroomy heq
      exact ⟨_, haccepts.pushLoop_eq⟩
  obtain ⟨whole, hwhole, -⟩ := hsplits.flatten_of_pushAll hready hpush
  obtain ⟨output', haccepts⟩ := h.accepts
  have hsame : Except.ok (state, whole) = Except.ok (⟨definition, .text, []⟩, output') :=
    hwhole.symm.trans haccepts.pushLoop_eq
  cases hsame
  exact ⟨output, finishWith_eq_ok.mpr ⟨_, hpush, rfl⟩⟩

/-- A text with an envelope that is not roomy is treated differently when a chunk ends
inside the end delimiter. -/
theorem not_chunkInvariantOn (h : Decomposes serde definition .text text envelopes)
    {envelope : Text} (hmem : envelope ∈ envelopes) (hroomy : ¬ definition.Roomy envelope) :
    ¬ definition.ChunkInvariantOn serde text := by
  intro hinv
  obtain ⟨pending, more, rfl, hrefused⟩ := h.exists_refused hmem hroomy
  obtain ⟨output, hrun⟩ := (hinv [pending, more] (by simp)).1.mpr
    (exists_run_singleton_iff.mpr ⟨envelopes, h⟩)
  obtain ⟨next, first, haccepts⟩ := exists_accepts_of_run hrun
  exact hrefused next first haccepts

/-- All divisions of a text are treated alike exactly if each of its envelopes fits into
the buffer with all but the last character of the end delimiter. -/
theorem chunkInvariantOn_iff (hdisjoint : definition.Disjoint) (serde : Serde) (text : Text) :
    definition.ChunkInvariantOn serde text ↔
      ∀ envelopes, Decomposes serde definition .text text envelopes →
        ∀ envelope ∈ envelopes, definition.Roomy envelope := by
  have hsep := hdisjoint.separate
  constructor
  · intro hinv envelopes hdecomposes envelope hmem
    by_contra hroomy
    exact not_chunkInvariantOn hdecomposes hmem hroomy hinv
  · rintro hroomy chunks rfl
    refine ⟨⟨?_, ?_⟩, ?_⟩
    · rintro ⟨output, hrun⟩
      obtain ⟨whole, hwhole, -⟩ := exists_run_flatten hsep hrun
      exact ⟨whole, hwhole⟩
    · intro hwhole
      obtain ⟨envelopes, hdecomposes⟩ := exists_run_singleton_iff.mp hwhole
      exact exists_run_of_roomy hsep hdecomposes (hroomy envelopes hdecomposes)
    · intro output whole hrun hwhole
      obtain ⟨whole', hwhole', hview⟩ := exists_run_flatten hsep hrun
      rw [hwhole] at hwhole'
      cases hwhole'
      exact hview.symm

/-- A tool parser with this limit. -/
def sampleTool (limit : ℕ) (limited : limit ≠ 0) : TaggedJsonToolParserDefinition where
  identity := ⟨"tool", "1", "a"⟩
  startDelimiter := "<t>".toList
  endDelimiter := "</t>".toList
  maxBufferedBytes := limit
  valid := by decide
  limited := limited

/-- The call between its delimiters. -/
def sampleText : Text := "<t>".toList ++ (sampleEnvelope ++ "</t>".toList)

/-- The sample delimiters do not occur in one another. -/
theorem disjoint_sampleTool (limit : ℕ) (limited : limit ≠ 0) :
    (sampleTool limit limited).Disjoint := by
  have hstart : find "<t>".toList "</t>".toList = none := by decide
  have hend : find "</t>".toList "<t>".toList = none := by decide
  exact ⟨(find_eq_none_iff (sampleTool limit limited).startDelimiter_ne_nil).mp hstart,
    (find_eq_none_iff (sampleTool limit limited).endDelimiter_ne_nil).mp hend⟩

/-- The sample call is completed before its end delimiter. -/
theorem completeCall_sample (limit : ℕ) (limited : limit ≠ 0) :
    completeCall sampleSerde (sampleTool limit limited) (sampleEnvelope ++ "</t>".toList) =
      some (27, "f", sampleArguments) := by
  have hfind : find (sampleTool limit limited).endDelimiter
      ((sampleEnvelope ++ "</t>".toList).drop 0) = some 27 := by
    change find "</t>".toList _ = _
    decide
  have hparse : parseToolEnvelope sampleSerde ((sampleEnvelope ++ "</t>".toList).take (0 + 27)) =
      .ok ("f", sampleArguments) := parseToolEnvelope_sample
  rw [completeCall, completeCallFrom_some hfind, hparse]

/-- The sample text is complete if its envelope is within the limit. -/
theorem decomposes_sample {limit : ℕ} (limited : limit ≠ 0) (hlimit : 27 ≤ limit) :
    Decomposes sampleSerde (sampleTool limit limited) .text sampleText [sampleEnvelope] := by
  set definition := sampleTool limit limited
  have hcall := completeCall_sample limit limited
  have hnil := scan_nil definition.startDelimiter_ne_nil definition.endDelimiter_ne_nil
  refine .start (scan_delimiter_append definition.startDelimiter_ne_nil
    definition.endDelimiter_ne_nil _) ?_
  exact .call hcall hlimit (.text hnil)

/-- With room to spare all divisions of the sample text are treated alike. -/
theorem chunkInvariantOn_sample :
    (sampleTool 64 (by decide)).ChunkInvariantOn sampleSerde sampleText := by
  refine (chunkInvariantOn_iff (disjoint_sampleTool 64 _) sampleSerde sampleText).mpr ?_
  intro envelopes hdecomposes envelope hmem
  rw [hdecomposes.unique (decomposes_sample _ (by decide)), List.mem_singleton] at hmem
  rw [hmem]
  change byteLen sampleEnvelope + byteLen "</t>".toList.dropLast ≤ 64
  decide

/-- With the limit at the length of the envelope the call is refused as soon as its end
delimiter begins. -/
theorem push_sample :
    (sampleTool 27 (by decide)).state.push sampleSerde
      ("<t>".toList ++ (sampleEnvelope ++ "<".toList)) =
      .error (.processing (.toolCallTooLong 27)) := by
  set definition := sampleTool 27 (by decide) with hdefinition
  have hnone : completeCall sampleSerde definition (sampleEnvelope ++ "<".toList) = none := by
    have hcall : completeCall sampleSerde definition
        (sampleEnvelope ++ "<".toList ++ "/t>".toList) = _ := completeCall_sample 27 (by decide)
    exact completeCall_eq_none_of_append hcall (by decide)
  have hlong : byteLen (sampleEnvelope ++ "<".toList) > definition.maxBufferedBytes := by
    change byteLen (sampleEnvelope ++ "<".toList) > 27
    decide
  have hscan := scan_delimiter_append definition.startDelimiter_ne_nil
    definition.endDelimiter_ne_nil (sampleEnvelope ++ "<".toList)
  have hloop : definition.state.push sampleSerde
      ("<t>".toList ++ (sampleEnvelope ++ "<".toList)) =
      pushLoop sampleSerde ⟨definition, .text,
        definition.startDelimiter ++ (sampleEnvelope ++ "<".toList)⟩ := rfl
  have htool : pushLoop sampleSerde ⟨definition, .tool, sampleEnvelope ++ "<".toList⟩ =
      .error (.processing (.toolCallTooLong 27)) := by
    rw [pushLoop_tool, hnone]
    exact if_pos hlong
  rw [hloop, pushLoop_text, hscan]
  simp only [htool, prepend_error]

/-- With the limit at the length of the envelope the whole text succeeds, and fails when
a chunk ends behind the first character of the end delimiter. -/
theorem not_chunkInvariantOn_sample :
    (sampleTool 27 (by decide)).Disjoint ∧
    [("<t>".toList ++ (sampleEnvelope ++ "<".toList)), "/t>".toList].flatten = sampleText ∧
    (∃ output, (sampleTool 27 (by decide)).run sampleSerde [sampleText] = .ok output) ∧
    (sampleTool 27 (by decide)).run sampleSerde
      [("<t>".toList ++ (sampleEnvelope ++ "<".toList)), "/t>".toList] =
      .error (.processing (.toolCallTooLong 27)) := by
  refine ⟨disjoint_sampleTool 27 _, by decide, ?_, ?_⟩
  · exact exists_run_singleton_iff.mpr ⟨_, decomposes_sample _ le_rfl⟩
  · rw [TaggedJsonToolParserDefinition.run, pushAll, push_sample]
    rfl

end Locus.Parser