import Locus.Parser.Tool

/-!
# The language of the tool parser

A text is accepted if it is text and calls by turns: each call is an envelope between the
delimiters, and ends at the first end delimiter that the search meets behind a well-formed
envelope. The parser accepts just these texts, and what it makes of them can be read off.
-/

namespace Locus.Parser

open Std (TreeMap)
open Locus.Lib

section Envelopes

/-- The text is a JSON object with exactly a name, which is a string and not empty, and
arguments, which are an object. -/
inductive IsEnvelope (serde : Serde) (text : Text) : String → Text → Prop
  | intro {value nameValue argumentsValue : serde.Value} {object : TreeMap String serde.Value}
      {arguments : TreeMap String serde.Value} {name : String}
      (parses : serde.fromStr text = .ok value) (isObject : serde.asObject value = some object)
      (keys : ∀ key, key ∈ object ↔ key = "name" ∨ key = "arguments")
      (hasName : object["name"]? = some nameValue) (isName : serde.asStr nameValue = some name)
      (nonempty : name ≠ "") (hasArguments : object["arguments"]? = some argumentsValue)
      (areObject : serde.asObject argumentsValue = some arguments) :
      IsEnvelope serde text name (serde.toText argumentsValue)

variable {serde : Serde} {text : Text} {name : String} {arguments : Text}

/-- Two keys are all keys of an object of size two. -/
theorem keys_iff {V : Type} {object : TreeMap String V} :
    (object.size = 2 ∧ "name" ∈ object ∧ "arguments" ∈ object) ↔
      ∀ key, key ∈ object ↔ key = "name" ∨ key = "arguments" := by
  have hpair : ["name", "arguments"].Nodup := by decide
  rw [← TreeMap.length_keys]
  constructor
  · rintro ⟨hsize, hname, harguments⟩ key
    have hsub : ["name", "arguments"] ⊆ object.keys := by
      simp [TreeMap.mem_keys, hname, harguments]
    have hperm := (List.subperm_of_subset hpair hsub).perm_of_length_le (by rw [hsize]; simp)
    rw [← TreeMap.mem_keys, ← hperm.mem_iff]
    simp
  · intro hkeys
    have hperm : object.keys.Perm ["name", "arguments"] := by
      refine (List.perm_ext_iff_of_nodup object.nodup_keys hpair).mpr fun key => ?_
      rw [TreeMap.mem_keys, hkeys]
      simp
    exact ⟨hperm.length_eq, (hkeys _).mpr (.inl rfl), (hkeys _).mpr (.inr rfl)⟩

/-- Envelopes are what `parse_tool_envelope` accepts. -/
theorem parseToolEnvelope_eq_ok_iff :
    parseToolEnvelope serde text = .ok (name, arguments) ↔
      IsEnvelope serde text name arguments := by
  constructor
  · intro h
    unfold parseToolEnvelope at h
    split at h
    next => cases h
    next value hparses =>
      split at h
      next => cases h
      next object hobject =>
        split at h
        next hkeys =>
          split at h
          next => cases h
          next found hfound =>
            obtain ⟨hname, hnonempty⟩ := Option.filter_eq_some_iff.mp hfound
            simp only at h
            split at h
            next harguments =>
              cases h
              obtain ⟨object', hobject'⟩ := Option.isSome_iff_exists.mp harguments
              exact .intro hparses hobject (keys_iff.mp hkeys)
                (TreeMap.getElem?_eq_some_getElem hkeys.2.1) hname (by simpa using hnonempty)
                (TreeMap.getElem?_eq_some_getElem hkeys.2.2) hobject'
            next => cases h
        next => cases h
  · rintro @⟨_, _, _, object, _, _, hparses, hobject, hkeys, hname, hisName, hnonempty,
      harguments, hareObject⟩
    have hsize := keys_iff.mpr hkeys
    have hgetName := (TreeMap.getElem?_eq_some_getElem hsize.2.1).symm.trans hname
    have hgetArguments := (TreeMap.getElem?_eq_some_getElem hsize.2.2).symm.trans harguments
    cases Option.some.inj hgetName
    cases Option.some.inj hgetArguments
    have hget : (serde.asStr (object.get "name" hsize.2.1)).filter (fun name => name ≠ "") =
        some name := Option.filter_eq_some_iff.mpr ⟨hisName, by simpa using hnonempty⟩
    have hareSome : (serde.asObject (object.get "arguments" hsize.2.2)).isSome :=
      Option.isSome_iff_exists.mpr ⟨_, hareObject⟩
    unfold parseToolEnvelope
    simp only [hparses, hobject]
    rw [dif_pos hsize, hget]
    exact if_pos hareSome

end Envelopes

section Grammar

variable (serde : Serde) (definition : TaggedJsonToolParserDefinition)

/-- The call ends at a position: the text before it is an envelope, and the text before any
end delimiter that the search meets earlier is not. -/
structure ClosesAt (pending : Text) (position : ℕ) (name : String) (arguments : Text) : Prop where
  met : SearchMeets definition.endDelimiter pending 0 position
  envelope : IsEnvelope serde (pending.take position) name arguments
  first : ∀ earlier < position, SearchMeets definition.endDelimiter pending 0 earlier →
    ∀ name arguments, ¬ IsEnvelope serde (pending.take earlier) name arguments

/-- No delimiter starts before the position. -/
def ClearBefore (text : Text) (position : ℕ) : Prop :=
  ∀ i < position, ¬ OccursAt definition.startDelimiter text i ∧
    ¬ OccursAt definition.endDelimiter text i

/-- Text and calls by turns, with the segments that stand for them. -/
inductive ToolText : Text → List ToolSegment → Prop
  | last {text : Text}
      (clear : ∀ i, ¬ OccursAt definition.startDelimiter text i ∧
        ¬ OccursAt definition.endDelimiter text i)
      (complete : ∀ i, ¬ BeginsWord [definition.startDelimiter, definition.endDelimiter] text i) :
      ToolText text (textSegment text)
  | call {before envelope rest : Text} {name : String} {arguments : Text}
      {output : List ToolSegment}
      (clear : ClearBefore definition (before ++ (definition.startDelimiter ++ (envelope ++
        (definition.endDelimiter ++ rest)))) before.length)
      (closes : ClosesAt serde definition (envelope ++ (definition.endDelimiter ++ rest))
        envelope.length name arguments)
      (fits : byteLen envelope ≤ definition.maxBufferedBytes) (follows : ToolText rest output) :
      ToolText (before ++ (definition.startDelimiter ++ (envelope ++
        (definition.endDelimiter ++ rest)))) (textSegment before ++ .call name arguments :: output)

end Grammar

section Calls

variable {serde : Serde} {definition : TaggedJsonToolParserDefinition} {pending : Text}
  {searchFrom position : ℕ} {name : String} {arguments : Text}

/-- The loop finds the first end of an envelope. -/
theorem completeCallFrom_eq_some_iff :
    completeCallFrom serde definition pending searchFrom = some (position, name, arguments) ↔
      SearchMeets definition.endDelimiter pending searchFrom position ∧
        IsEnvelope serde (pending.take position) name arguments ∧
        ∀ earlier < position, SearchMeets definition.endDelimiter pending searchFrom earlier →
          ∀ name arguments, ¬ IsEnvelope serde (pending.take earlier) name arguments := by
  have hpos := List.length_pos_iff.mpr definition.endDelimiter_ne_nil
  induction searchFrom using completeCallFrom.induct serde definition pending with
  | case1 searchFrom hfind =>
    rw [completeCallFrom_none hfind]
    refine ⟨fun h => (by cases h), ?_⟩
    rintro ⟨hmet, -⟩
    cases hmet with
    | here found => simp [hfind] at found
    | later found => simp [hfind] at found
  | case2 searchFrom relative hfind at_ name' arguments' hparse =>
    rw [completeCallFrom_some hfind, hparse]
    have hhere := parseToolEnvelope_eq_ok_iff.mp hparse
    constructor
    · intro h
      cases h
      refine ⟨.here hfind, hhere, fun earlier hlt hmet => ?_⟩
      rcases (searchMeets_iff hfind).mp hmet with rfl | hlater
      · omega
      · have hle := hlater.le
        omega
    · rintro ⟨hmet, henvelope, hfirst⟩
      rcases (searchMeets_iff hfind).mp hmet with rfl | hlater
      · have hsame := parseToolEnvelope_eq_ok_iff.mpr henvelope
        rw [hparse] at hsame
        cases hsame
        rfl
      · have hle := hlater.le
        exact absurd hhere (hfirst _ (by omega) (.here hfind) _ _)
  | case3 searchFrom relative hfind at_ error hparse ih =>
    rw [completeCallFrom_some hfind, hparse]
    have hnot (name arguments) :
        ¬ IsEnvelope serde (pending.take (searchFrom + relative)) name arguments := by
      intro henvelope
      rw [parseToolEnvelope_eq_ok_iff.mpr henvelope] at hparse
      cases hparse
    refine ih.trans ⟨?_, ?_⟩
    · rintro ⟨hmet, henvelope, hfirst⟩
      refine ⟨.later hfind hmet, henvelope, fun earlier hlt hearlier => ?_⟩
      rcases (searchMeets_iff hfind).mp hearlier with rfl | hlater
      · exact hnot
      · exact hfirst earlier hlt hlater
    · rintro ⟨hmet, henvelope, hfirst⟩
      refine ⟨?_, henvelope, fun earlier hlt hearlier => hfirst earlier hlt (.later hfind hearlier)⟩
      rcases (searchMeets_iff hfind).mp hmet with rfl | hlater
      · exact absurd henvelope (hnot _ _)
      · exact hlater

theorem completeCall_eq_some_iff :
    completeCall serde definition pending = some (position, name, arguments) ↔
      ClosesAt serde definition pending position name arguments :=
  completeCallFrom_eq_some_iff.trans
    ⟨fun ⟨hmet, henvelope, hfirst⟩ => ⟨hmet, henvelope, hfirst⟩,
      fun ⟨hmet, henvelope, hfirst⟩ => ⟨hmet, henvelope, hfirst⟩⟩

end Calls

section Language

open TaggedJsonToolParserState

variable {serde : Serde} {definition : TaggedJsonToolParserDefinition} {text pending : Text}
  {next : TaggedJsonToolParserState} {mode : ToolMode} {output : List ToolSegment}

/-- The parser may stop behind the text. -/
theorem TaggedJsonToolParserState.finish_eq_ok_iff {state : TaggedJsonToolParserState} :
    state.finish = .ok () ↔ state.mode = .text ∧ state.pending = [] := by
  unfold finish
  cases hmode : state.mode with
  | text => simp
  | tool => simp

/-- What the parser has to find from a state on. -/
def Readable (serde : Serde) (definition : TaggedJsonToolParserDefinition) :
    ToolMode → Text → List ToolSegment → Prop
  | .text, text, output => ToolText serde definition text output
  | .tool, text, output => ∃ envelope rest name arguments segments,
      text = envelope ++ (definition.endDelimiter ++ rest) ∧
      ClosesAt serde definition text envelope.length name arguments ∧
      byteLen envelope ≤ definition.maxBufferedBytes ∧
      ToolText serde definition rest segments ∧ output = .call name arguments :: segments

/-- What the loop accepts and the end of the text completes is in the language. -/
theorem Accepts.readable (h : Accepts serde definition mode pending next output)
    (hfinish : next.finish = .ok ()) : Readable serde definition mode pending output := by
  obtain ⟨hmode, hpending⟩ := finish_eq_ok_iff.mp hfinish
  induction h with
  | @stop pending emitted kept scanned =>
    obtain ⟨htext, hclear, hkept⟩ := (scan_eq_held_iff definition.startDelimiter_ne_nil
      definition.endDelimiter_ne_nil).mp scanned
    cases hpending
    rw [List.append_nil] at htext
    cases htext
    exact .last hclear (longestBeginning_eq_zero_iff.mp hkept.symm)
  | start scanned _ ih =>
    obtain ⟨htext, hclear⟩ := (scan_eq_found_iff definition.startDelimiter_ne_nil
      definition.endDelimiter_ne_nil).mp scanned
    obtain ⟨envelope, rest, name, arguments, segments, rfl, hcloses, hfits, hrest, rfl⟩ :=
      ih hfinish hmode hpending
    cases htext
    exact .call hclear hcloses hfits hrest
  | wait => cases hmode
  | @call pending position name arguments next output complete fits _ ih =>
    have hoccurs := (completeCallFrom_occursAt complete).2
    have hlen : (pending.take position).length = position := by
      have hle := add_length_le_of_completeCall complete
      rw [List.length_take]
      omega
    refine ⟨pending.take position, _, name, arguments, output, hoccurs.eq_append, ?_, fits,
      ih hfinish hmode hpending, rfl⟩
    rw [hlen]
    exact completeCall_eq_some_iff.mp complete

/-- The loop accepts every text of the language. -/
theorem ToolText.accepts (h : ToolText serde definition text output) :
    Accepts serde definition .text text ⟨definition, .text, []⟩ output := by
  induction h with
  | last clear complete =>
    refine .stop ((scan_eq_held_iff definition.startDelimiter_ne_nil
      definition.endDelimiter_ne_nil).mpr ⟨by simp, clear, ?_⟩)
    exact (longestBeginning_eq_zero_iff.mpr complete).symm
  | @call before envelope rest name arguments output clear closes fits _ ih =>
    have hscan := (scan_eq_found_iff definition.startDelimiter_ne_nil
      definition.endDelimiter_ne_nil).mpr ⟨rfl, clear⟩
    have hcall : Accepts serde definition .tool (envelope ++ (definition.endDelimiter ++ rest))
        ⟨definition, .text, []⟩ (.call name arguments :: output) := by
      refine .call (completeCall_eq_some_iff.mpr closes) (by simpa using fits) ?_
      rw [← List.drop_drop, List.drop_left, List.drop_left]
      exact ih
    have hstart := Accepts.start hscan hcall
    simpa using hstart

/-- Pushing a text at once and finishing succeeds exactly for the texts of the language, and
gives their segments. -/
theorem push_finish_iff_toolText (serde : Serde) (definition : TaggedJsonToolParserDefinition)
    (text : Text) (output : List ToolSegment) :
    (∃ state, definition.state.push serde text = .ok (state, output) ∧ state.finish = .ok ()) ↔
      ToolText serde definition text output := by
  constructor
  · rintro ⟨state, hpush, hfinish⟩
    exact (accepts_of_pushLoop_eq hpush).readable hfinish
  · intro htext
    exact ⟨⟨definition, .text, []⟩, htext.accepts.pushLoop_eq, rfl⟩

end Language

end Locus.Parser
