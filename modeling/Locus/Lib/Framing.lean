import Locus.Lib.Separators

/-!
# Framed texts

A text behind its size in bytes can be read back from what it starts, whatever it contains.
So a list of texts can be read back from its frames, and so can its length.
-/

namespace Locus.Lib

/-- A text behind its size. -/
def framed (text : String) : String := toString text.utf8ByteSize ++ ":" ++ text

/-- The frames of several texts, one after the other. -/
def frames : List String → String
  | [] => ""
  | text :: texts => framed text ++ frames texts

/-- A framed text can be read from what it starts. -/
theorem eq_of_framed_append_eq {text text' rest rest' : String}
    (h : framed text ++ rest = framed text' ++ rest') : text = text' ∧ rest = rest' := by
  have hlist := congrArg String.toList h
  simp only [framed, String.toList_append, List.append_assoc] at hlist
  obtain ⟨hdigits, -⟩ := eq_of_separator_append_eq (notMem_toString rfl _)
    (notMem_toString rfl _) (by simpa using hlist)
  have hsize : text.utf8ByteSize = text'.utf8ByteSize :=
    Nat.repr_injective (String.toList_injective hdigits)
  have hbehind : text ++ rest = text' ++ rest' := by
    simp only [framed, hsize, String.append_assoc] at h
    exact (String.append_right_inj _).mp ((String.append_right_inj _).mp h)
  exact eq_of_string_append_eq hbehind hsize

theorem framed_append_ne_empty (text rest : String) : framed text ++ rest ≠ "" := by
  intro h
  have hlength := congrArg String.length h
  simp only [framed, String.length_append] at hlength
  have hcolon : (":" : String).length = 1 := rfl
  have hempty : ("" : String).length = 0 := rfl
  omega

/-- Texts can be read from their frames. -/
theorem frames_injective : Function.Injective frames := by
  intro texts texts' h
  induction texts generalizing texts' with
  | nil =>
    cases texts' with
    | nil => rfl
    | cons text' texts' => exact absurd h.symm (framed_append_ne_empty text' (frames texts'))
  | cons text texts ih =>
    cases texts' with
    | nil => exact absurd h (framed_append_ne_empty text (frames texts))
    | cons text' texts' =>
      obtain ⟨rfl, hrest⟩ := eq_of_framed_append_eq h
      rw [ih hrest]

end Locus.Lib
