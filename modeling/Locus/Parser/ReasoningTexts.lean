import Locus.Parser.ReasoningChunks

/-!
# What the reasoning parser makes of a text

However a text is divided, a run that succeeds has taken it apart without loss: it hands
over text only, or text, the delimited section of reasoning, and text again. No delimiter
is left in what is handed over.
-/

namespace Locus.Parser

open Locus.Lib TaggedReasoningParserState

variable {definition : TaggedReasoningParserDefinition}

/-- No delimiter stands in the text. -/
def TaggedReasoningParserDefinition.Free (definition : TaggedReasoningParserDefinition)
    (text : Text) : Prop :=
  Clear definition.startDelimiter definition.endDelimiter text

/-- No delimiter starts in what is handed over, whatever follows what is kept. -/
def TaggedReasoningParserDefinition.Handed (definition : TaggedReasoningParserDefinition)
    (front kept : Text) : Prop :=
  Sealed definition.startDelimiter definition.endDelimiter front kept

/-- The texts of the segment to add, if any. -/
def pieces (text : Text) : List Text :=
  if text = [] then [] else [text]

@[simp] theorem flatten_pieces (text : Text) : (pieces text).flatten = text := by
  unfold pieces
  split
  next h => rw [h, List.flatten_nil]
  next => rw [List.flatten_singleton]

@[simp] theorem pushReasoningSegment_text (text : Text) :
    pushReasoningSegment .text text = (pieces text).map .text := by
  unfold pushReasoningSegment pieces
  split <;> rfl

@[simp] theorem pushReasoningSegment_reasoning (text : Text) :
    pushReasoningSegment .reasoning text = (pieces text).map .reasoning := by
  unfold pushReasoningSegment pieces
  split <;> rfl

/-- What has become of the text received so far, before, inside and after the section. -/
inductive Traced (definition : TaggedReasoningParserDefinition) :
    TaggedReasoningParserState → Text → List ReasoningSegment → Prop
  | before {text kept : Text} {output : List ReasoningSegment} (texts : List Text)
      (received : text = texts.flatten ++ kept) (emitted : output = texts.map .text)
      (handed : definition.Handed texts.flatten kept) :
      Traced definition ⟨definition, .text, kept, false⟩ text output
  | inside {text kept : Text} {output : List ReasoningSegment} (texts section_ : List Text)
      (received : text = texts.flatten ++ (definition.startDelimiter ++
        (section_.flatten ++ kept)))
      (emitted : output = texts.map .text ++ section_.map .reasoning)
      (free : definition.Free texts.flatten)
      (handed : definition.Handed section_.flatten kept) :
      Traced definition ⟨definition, .reasoning, kept, true⟩ text output
  | after {text kept : Text} {output : List ReasoningSegment} (texts section_ rest : List Text)
      (received : text = texts.flatten ++ (definition.startDelimiter ++ (section_.flatten ++
        (definition.endDelimiter ++ (rest.flatten ++ kept)))))
      (emitted : output = texts.map .text ++ (section_.map .reasoning ++ rest.map .text))
      (free : definition.Free texts.flatten) (freeSection : definition.Free section_.flatten)
      (handed : definition.Handed rest.flatten kept) :
      Traced definition ⟨definition, .text, kept, true⟩ text output

variable {state next : TaggedReasoningParserState} {text : Text}
  {history output : List ReasoningSegment}

/-- Nothing is handed over yet. -/
theorem traced_state (definition : TaggedReasoningParserDefinition) :
    Traced definition definition.state [] [] :=
  .before [] rfl rfl sealed_nil

/-- More text to read is kept at first. -/
theorem Traced.extend (h : Traced definition state text history) (more : Text) :
    Traced definition (state.extend more) (text ++ more) history := by
  cases h with
  | before texts received emitted handed =>
    exact .before texts (by simp [received]) emitted (handed.append more)
  | inside texts section_ received emitted free handed =>
    exact .inside texts section_ (by simp [received]) emitted free (handed.append more)
  | after texts section_ rest received emitted free freeSection handed =>
    exact .after texts section_ rest (by simp [received]) emitted free freeSection
      (handed.append more)

/-- What the scan hands over in either mode takes its place behind the rest. -/
theorem Traced.held {emitted kept : Text} (h : Traced definition state text history)
    (hscan : scan state.delimiter state.forbidden state.pending = .held emitted kept) :
    Traced definition { state with pending := kept } text
      (history ++ pushReasoningSegment state.mode emitted) := by
  have hheld := (scan_eq_held_iff state.delimiter_ne_nil state.forbidden_ne_nil).mp hscan
  have hpending := hheld.1
  cases h with
  | before texts received emitted' handed =>
    refine .before (texts ++ pieces emitted) ?_ ?_ ?_
    · simp [received, ← hpending]
    · simp [emitted']
    · simpa [TaggedReasoningParserDefinition.Handed] using handed.append_of_heldIn hheld
  | inside texts section_ received emitted' free handed =>
    refine .inside texts (section_ ++ pieces emitted) ?_ ?_ free ?_
    · simp [received, ← hpending]
    · simp [emitted']
    · have hsealed := (handed.symm.append_of_heldIn hheld).symm
      simpa [TaggedReasoningParserDefinition.Handed] using hsealed
  | after texts section_ rest received emitted' free freeSection handed =>
    refine .after texts section_ (rest ++ pieces emitted) ?_ ?_ free freeSection ?_
    · simp [received, ← hpending]
    · simp [emitted']
    · simpa [TaggedReasoningParserDefinition.Handed] using handed.append_of_heldIn hheld

/-- The expected delimiter leads from one part of the text to the next. -/
theorem Traced.found {before rest : Text} (h : Traced definition state text history)
    (hscan : scan state.delimiter state.forbidden state.pending = .found before rest)
    (hswitch : state.switch rest = .ok next) :
    Traced definition next text (history ++ pushReasoningSegment state.mode before) := by
  have hfound := (scan_eq_found_iff state.delimiter_ne_nil state.forbidden_ne_nil).mp hscan
  have hpending := hfound.1
  cases h with
  | before texts received emitted handed =>
    cases hswitch
    have hfree := handed.clear_of_foundIn definition.startDelimiter_ne_nil
      definition.endDelimiter_ne_nil hfound
    refine .inside (texts ++ pieces before) [] ?_ ?_ ?_ sealed_nil
    · simp only [delimiter] at hpending
      simp [received, hpending]
    · simp [emitted]
    · simpa [TaggedReasoningParserDefinition.Free] using hfree
  | inside texts section_ received emitted free handed =>
    cases hswitch
    have hfree := (handed.symm.clear_of_foundIn definition.endDelimiter_ne_nil
      definition.startDelimiter_ne_nil hfound).symm
    refine .after texts (section_ ++ pieces before) [] ?_ ?_ free ?_ sealed_nil
    · simp only [delimiter] at hpending
      simp [received, hpending]
    · simp [emitted]
    · simpa [TaggedReasoningParserDefinition.Free] using hfree
  | after => cases hswitch

/-- What the loop reads is traced. -/
theorem TaggedReasoningParserState.Reads.traced (h : Reads state next output)
    (htraced : Traced definition state text history) :
    Traced definition next text (history ++ output) := by
  induction h generalizing history with
  | held scanned => exact htraced.held scanned
  | found scanned switched _ ih =>
    rw [← List.append_assoc]
    exact ih (htraced.found scanned switched)

/-- The parser may stop behind the text. -/
theorem TaggedReasoningParserState.finish_eq_ok_iff :
    state.finish = .ok () ↔ state.mode = .text ∧ state.pending = [] := by
  unfold finish
  cases hmode : state.mode with
  | text => simp
  | reasoning => simp

/-- What all pushes together read is traced. -/
theorem traced_of_pushAll {chunks : List Text}
    (h : pushAll push definition.state chunks = .ok (state, output)) :
    Traced definition state chunks.flatten output :=
  pushAll_invariant (fun state pushed history => Traced definition state pushed.flatten history)
    (fun {_ _ piece _ _ _} htraced hpush => by
      rw [List.flatten_append, List.flatten_singleton]
      exact (reads_of_pushLoop_eq hpush).traced (htraced.extend piece))
    [] (traced_state definition) h

/-- Nothing of the text is lost or reclassified: it is handed over as it is, or it is a text
before, inside and behind one pair of delimiters, with each part in its place and free of
delimiters. -/
def TaggedReasoningParserDefinition.Conserves (definition : TaggedReasoningParserDefinition)
    (text : Text) (output : List ReasoningSegment) : Prop :=
  (∃ texts : List Text, output = texts.map .text ∧ text = texts.flatten ∧
    definition.Free texts.flatten) ∨
  ∃ texts section_ rest : List Text,
    output = texts.map .text ++ (section_.map .reasoning ++ rest.map .text) ∧
    text = texts.flatten ++ (definition.startDelimiter ++ (section_.flatten ++
      (definition.endDelimiter ++ rest.flatten))) ∧
    definition.Free texts.flatten ∧ definition.Free section_.flatten ∧
    definition.Free rest.flatten

/-- A run that succeeds loses and reclassifies nothing, however the text is divided. -/
theorem run_conserves {chunks : List Text} (h : definition.run chunks = .ok output) :
    definition.Conserves chunks.flatten output := by
  obtain ⟨state, hpush, hfinish⟩ := finishWith_eq_ok.mp h
  obtain ⟨hmode, hpending⟩ := finish_eq_ok_iff.mp hfinish
  cases traced_of_pushAll hpush with
  | before texts received emitted handed =>
    cases hpending
    exact .inl ⟨texts, emitted, by simpa using received,
      handed.clear definition.startDelimiter_ne_nil definition.endDelimiter_ne_nil⟩
  | inside => cases hmode
  | after texts section_ rest received emitted free freeSection handed =>
    cases hpending
    exact .inr ⟨texts, section_, rest, emitted, by simpa using received, free, freeSection,
      handed.clear definition.startDelimiter_ne_nil definition.endDelimiter_ne_nil⟩

/-- Angle brackets as delimiters. -/
def angles : TaggedReasoningParserDefinition where
  identity := ⟨"reasoning_parser", "1", "angles"⟩
  startDelimiter := "<<".toList
  endDelimiter := ">>".toList
  valid := by decide

/-- A section whose start delimiter is divided. -/
theorem run_angles : angles.run ["a<".toList, "<b>>".toList, "c".toList] =
    .ok [.text "a".toList, .reasoning "b".toList, .text "c".toList] := by
  have hfirst : angles.state.push "a<".toList =
      .ok (⟨angles, .text, "<".toList, false⟩, [.text "a".toList]) :=
    @pushLoop_held (angles.state.extend "a<".toList) "a".toList "<".toList (by decide)
  have hsecond : push ⟨angles, .text, "<".toList, false⟩ "<b>>".toList =
      .ok (⟨angles, .text, [], true⟩, [.reasoning "b".toList]) := by
    have hstart := @pushLoop_found ⟨angles, .text, "<<b>>".toList, false⟩ [] "b>>".toList
      (by decide)
    have hend := @pushLoop_found ⟨angles, .reasoning, "b>>".toList, true⟩ "b".toList []
      (by decide)
    have hlast := @pushLoop_held ⟨angles, .text, [], true⟩ [] [] (by decide)
    refine hstart.trans ?_
    simp only [switch, Bool.false_eq_true, if_false, Except.bind, hend, hlast]
    rfl
  have hthird : push ⟨angles, .text, [], true⟩ "c".toList =
      .ok (⟨angles, .text, [], true⟩, [.text "c".toList]) :=
    @pushLoop_held ⟨angles, .text, "c".toList, true⟩ "c".toList [] (by decide)
  simp only [TaggedReasoningParserDefinition.run, pushAll, hfirst, hsecond, hthird]
  rfl

/-- The text of that run is taken apart at its delimiters. -/
theorem run_conserves_angles : angles.Conserves "a<<b>>c".toList
    [.text "a".toList, .reasoning "b".toList, .text "c".toList] :=
  run_conserves run_angles

end Locus.Parser
