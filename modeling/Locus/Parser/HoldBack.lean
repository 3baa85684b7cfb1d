import Locus.Parser.SlicedReasoning
import Locus.Parser.SlicedTool

/-!
# What the parsers hold back

The pending text of both parsers is always bounded. The text that they hand over is beyond
the reach of later delimiters, unless the delimiter that is expected can interrupt the other
one: then it is found before the other one is complete, and the beginning of the other one is
handed over as content.
-/

namespace Locus.Parser

open Locus.Lib TaggedReasoningParserState TaggedReasoningParserDefinition

/-- Both parsers keep their pending text bounded. They never tear a delimiter exactly if the
delimiter that they look for cannot interrupt the other one. -/
theorem buffersSafely_iff (reasoning : TaggedReasoningParserDefinition)
    (tool : TaggedJsonToolParserDefinition) (serde : Serde) :
    (reasoning.StaysBounded ∧ (reasoning.BuffersSafely ↔
      ¬ Interrupts reasoning.startDelimiter reasoning.endDelimiter ∧
      ¬ Interrupts reasoning.endDelimiter reasoning.startDelimiter)) ∧
    (tool.StaysBounded serde ∧ (tool.BuffersSafely serde ↔
      ¬ Interrupts tool.startDelimiter tool.endDelimiter)) :=
  ⟨⟨reasoning.staysBounded, reasoning.buffersSafely_iff_uninterrupted⟩,
    ⟨tool.staysBounded serde, tool.buffersSafely_iff_not_interrupts serde⟩⟩

/-- A start delimiter inside the end delimiter. -/
def nested : TaggedReasoningParserDefinition where
  identity := ⟨"reasoning_parser", "1", "nested"⟩
  startDelimiter := "b".toList
  endDelimiter := "abc".toList
  valid := by decide

/-- The beginning of an end delimiter is handed over as text, and the rest of it as reasoning. -/
theorem not_buffersSafely_nested :
    (∃ state log, nested.Pushes ["ab".toList, "c".toList] state log ∧
      segments log = [.text "a".toList, .reasoning "c".toList] ∧
      Torn [nested.startDelimiter, nested.endDelimiter] log "abc".toList) ∧
    ¬ nested.BuffersSafely := by
  have hfound : scan nested.startDelimiter nested.endDelimiter "ab".toList =
      .found "a".toList [] := by
    decide
  have hempty : scan nested.endDelimiter nested.startDelimiter [] = .held [] [] := by decide
  have hlast : scan nested.endDelimiter nested.startDelimiter "c".toList =
      .held "c".toList [] := by
    decide
  have hfirst : Drains (nested.state.extend "ab".toList) ⟨nested, .reasoning, [], true⟩
      [Drained.content "a".toList [.text "a".toList], Drained.reserved "b".toList [],
        Drained.content [] []] :=
    .found hfound rfl (.held hempty)
  have hsecond : Drains ⟨nested, .reasoning, "c".toList, true⟩ ⟨nested, .reasoning, [], true⟩
      [Drained.content "c".toList [.reasoning "c".toList]] :=
    .held hlast
  have hpushes := pushAll_concat (pushes_singleton hfirst) hsecond.pushLoopSliced_eq
  have hword : "a".toList ++ "bc".toList ∈ [nested.startDelimiter, nested.endDelimiter] := by
    decide
  have htorn := torn_of_append hword (by decide) (by decide) ([] : List (Drained ReasoningSegment))
    [Drained.reserved "b".toList [], Drained.content [] [],
      Drained.content "c".toList [.reasoning "c".toList]] [.text "a".toList] []
  refine ⟨⟨_, _, hpushes, rfl, htorn⟩, fun hsafely => ?_⟩
  exact hsafely.untorn _ _ _ hpushes [] htorn

end Locus.Parser
