import Locus.Lib.Occurrences
import Locus.Parser.Envelope

/-!
# Completing a tool call

Inside an envelope the parser tries one end delimiter after the other until the text
before it is a valid call. What it finds in a text it also finds when the text goes on.
-/

namespace Locus.Parser

open Locus.Lib

/-- The loop of `complete_call`: try the end delimiters from a position on. -/
def completeCallFrom (serde : Serde) (definition : TaggedJsonToolParserDefinition) (pending : Text)
    (searchFrom : ℕ) : Option (ℕ × String × Text) :=
  match _hfind : find definition.endDelimiter (pending.drop searchFrom) with
  | none => none
  | some relative =>
    let position := searchFrom + relative
    match parseToolEnvelope serde (pending.take position) with
    | .ok (name, arguments) => some (position, name, arguments)
    | .error _ =>
      completeCallFrom serde definition pending (position + definition.endDelimiter.length)
termination_by pending.length - searchFrom
decreasing_by
  have hocc := ((find_eq_some_iff definition.endDelimiter_ne_nil).mp _hfind).1
  have hle := hocc.add_length_le definition.endDelimiter_ne_nil
  have hpos := List.length_pos_iff.mpr definition.endDelimiter_ne_nil
  rw [List.length_drop] at hle
  omega

/-- `TaggedJsonToolParserState::complete_call` -/
def completeCall (serde : Serde) (definition : TaggedJsonToolParserDefinition) (pending : Text) :
    Option (ℕ × String × Text) :=
  completeCallFrom serde definition pending 0

variable {serde : Serde} {definition : TaggedJsonToolParserDefinition} {pending more : Text}
  {searchFrom position relative : ℕ} {name : String} {arguments : Text}

/-- No end delimiter is left to try. -/
theorem completeCallFrom_none
    (h : find definition.endDelimiter (pending.drop searchFrom) = none) :
    completeCallFrom serde definition pending searchFrom = none := by
  rw [completeCallFrom]
  split
  next => rfl
  next heq =>
    rw [h] at heq
    cases heq

/-- The next end delimiter is tried. -/
theorem completeCallFrom_some
    (h : find definition.endDelimiter (pending.drop searchFrom) = some relative) :
    completeCallFrom serde definition pending searchFrom =
      match parseToolEnvelope serde (pending.take (searchFrom + relative)) with
      | .ok (name, arguments) => some (searchFrom + relative, name, arguments)
      | .error _ => completeCallFrom serde definition pending
          (searchFrom + relative + definition.endDelimiter.length) := by
  rw [completeCallFrom]
  split
  next heq =>
    rw [h] at heq
    cases heq
  next heq =>
    rw [h] at heq
    cases heq
    rfl

/-- The end delimiter that is found lies inside the text. -/
theorem add_length_le_of_find (hle : searchFrom ≤ pending.length)
    (h : find definition.endDelimiter (pending.drop searchFrom) = some relative) :
    searchFrom + relative + definition.endDelimiter.length ≤ pending.length := by
  have hocc := ((find_eq_some_iff definition.endDelimiter_ne_nil).mp h).1
  have := hocc.add_length_le definition.endDelimiter_ne_nil
  rw [List.length_drop] at this
  omega

/-- The next end delimiter stays where it is however the text goes on. -/
theorem find_drop_append (hle : searchFrom ≤ pending.length)
    (h : find definition.endDelimiter (pending.drop searchFrom) = some relative) :
    find definition.endDelimiter ((pending ++ more).drop searchFrom) = some relative := by
  rw [List.drop_append_of_le_length hle]
  exact find_append_of_eq_some definition.endDelimiter_ne_nil h

/-- So does the text before it. -/
theorem take_append_of_find (hle : searchFrom ≤ pending.length)
    (h : find definition.endDelimiter (pending.drop searchFrom) = some relative) :
    (pending ++ more).take (searchFrom + relative) = pending.take (searchFrom + relative) := by
  have := add_length_le_of_find hle h
  exact List.take_append_of_le_length (by omega)

/-- A call is found before an end delimiter, and not before the search begins. -/
theorem completeCallFrom_occursAt
    (h : completeCallFrom serde definition pending searchFrom = some (position, name, arguments)) :
    searchFrom ≤ position ∧ OccursAt definition.endDelimiter pending position := by
  induction searchFrom using completeCallFrom.induct serde definition pending with
  | case1 searchFrom hfind =>
    rw [completeCallFrom_none hfind] at h
    cases h
  | case2 searchFrom relative hfind at_ name' arguments' hparse =>
    rw [completeCallFrom_some hfind, hparse] at h
    cases h
    have hocc := ((find_eq_some_iff definition.endDelimiter_ne_nil).mp hfind).1
    rw [OccursAt, List.drop_drop] at hocc
    exact ⟨Nat.le_add_right _ _, hocc⟩
  | case3 searchFrom relative hfind at_ error hparse ih =>
    rw [completeCallFrom_some hfind, hparse] at h
    obtain ⟨hle, hocc⟩ := ih h
    exact ⟨by omega, hocc⟩

/-- A call that is found stays found however the text goes on. -/
theorem completeCallFrom_append_some (hle : searchFrom ≤ pending.length)
    (h : completeCallFrom serde definition pending searchFrom = some (position, name, arguments)) :
    completeCallFrom serde definition (pending ++ more) searchFrom =
      some (position, name, arguments) := by
  induction searchFrom using completeCallFrom.induct serde definition pending with
  | case1 searchFrom hfind =>
    rw [completeCallFrom_none hfind] at h
    cases h
  | case2 searchFrom relative hfind at_ name' arguments' hparse =>
    rw [completeCallFrom_some hfind, hparse] at h
    cases h
    rw [completeCallFrom_some (find_drop_append hle hfind), take_append_of_find hle hfind, hparse]
  | case3 searchFrom relative hfind at_ error hparse ih =>
    rw [completeCallFrom_some hfind, hparse] at h
    rw [completeCallFrom_some (find_drop_append hle hfind), take_append_of_find hle hfind, hparse]
    exact ih (add_length_le_of_find hle hfind) h

/-- A call that is found only in a longer text ends beyond the shorter one. -/
theorem length_lt_of_completeCallFrom_append (hle : searchFrom ≤ pending.length)
    (h : completeCallFrom serde definition pending searchFrom = none)
    (hmore : completeCallFrom serde definition (pending ++ more) searchFrom =
      some (position, name, arguments)) :
    pending.length < position + definition.endDelimiter.length := by
  induction searchFrom using completeCallFrom.induct serde definition pending with
  | case1 searchFrom hfind =>
    by_contra hlt
    obtain ⟨hge, hocc⟩ := completeCallFrom_occursAt hmore
    refine (find_eq_none_iff definition.endDelimiter_ne_nil).mp hfind (position - searchFrom) ?_
    rw [OccursAt, List.drop_drop, Nat.add_sub_cancel' hge]
    exact (occursAt_append_left (by omega)).mp hocc
  | case2 searchFrom relative hfind at_ name' arguments' hparse =>
    rw [completeCallFrom_some hfind, hparse] at h
    cases h
  | case3 searchFrom relative hfind at_ error hparse ih =>
    rw [completeCallFrom_some hfind, hparse] at h
    rw [completeCallFrom_some (find_drop_append hle hfind), take_append_of_find hle hfind,
      hparse] at hmore
    exact ih (add_length_le_of_find hle hfind) h hmore

/-- A completed call stays completed however the text goes on. -/
theorem completeCall_append
    (h : completeCall serde definition pending = some (position, name, arguments)) (more : Text) :
    completeCall serde definition (pending ++ more) = some (position, name, arguments) :=
  completeCallFrom_append_some (Nat.zero_le _) h

/-- The end delimiter of a completed call lies inside the text. -/
theorem add_length_le_of_completeCall
    (h : completeCall serde definition pending = some (position, name, arguments)) :
    position + definition.endDelimiter.length ≤ pending.length :=
  (completeCallFrom_occursAt h).2.add_length_le definition.endDelimiter_ne_nil

/-- A call that is not yet complete ends beyond the text. -/
theorem length_lt_of_completeCall_append (h : completeCall serde definition pending = none)
    (hmore : completeCall serde definition (pending ++ more) = some (position, name, arguments)) :
    pending.length < position + definition.endDelimiter.length :=
  length_lt_of_completeCallFrom_append (Nat.zero_le _) h hmore

/-- A call is complete as soon as its end delimiter is. -/
theorem completeCall_of_append
    (hmore : completeCall serde definition (pending ++ more) = some (position, name, arguments))
    (hle : position + definition.endDelimiter.length ≤ pending.length) :
    completeCall serde definition pending = some (position, name, arguments) := by
  cases hcall : completeCall serde definition pending with
  | none =>
    have := length_lt_of_completeCall_append hcall hmore
    omega
  | some call =>
    have := completeCall_append hcall more
    rw [hmore] at this
    exact this.symm

/-- A call is not complete before its end delimiter is. -/
theorem completeCall_eq_none_of_append
    (hmore : completeCall serde definition (pending ++ more) = some (position, name, arguments))
    (hlt : pending.length < position + definition.endDelimiter.length) :
    completeCall serde definition pending = none := by
  cases hcall : completeCall serde definition pending with
  | none => rfl
  | some call =>
    have hsame := completeCall_append hcall more
    rw [hmore] at hsame
    cases hsame
    have := add_length_le_of_completeCall hcall
    omega

end Locus.Parser
