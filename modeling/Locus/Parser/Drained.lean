import Locus.Lib.Chunks
import Locus.Parser.Slices

/-!
# What has been taken from the pending text

A parser takes text from the front of its pending text, as content or as reserved syntax.
The pieces that it has taken, in order, say where each piece of content stands in the input.
A delimiter is torn if it begins in content and ends behind it.
-/

namespace Locus.Parser

open Locus.Lib

/-- How a push may fail: with an error, or because a slice is not cut between characters. -/
inductive Halt
  | panic
  | error (error : ParserError)

/-- A piece from the front of the pending text, and the segments that are put out for it. -/
inductive Drained (ο : Type)
  | content (text : Text) (output : List ο)
  | reserved (text : Text) (output : List ο)

variable {ο σ : Type}

def Drained.text : Drained ο → Text
  | content text _ => text
  | reserved text _ => text

def Drained.output : Drained ο → List ο
  | content _ output => output
  | reserved _ output => output

/-- The text of all pieces. -/
def taken (log : List (Drained ο)) : Text := log.flatMap Drained.text

/-- The segments of all pieces. -/
def segments (log : List (Drained ο)) : List ο := log.flatMap Drained.output

/-- What a push returns. -/
def returned (result : Except Halt (σ × List (Drained ο))) : Except Halt (σ × List ο) :=
  result.map fun next => (next.1, segments next.2)

/-- A delimiter in the input begins in a piece of content and ends behind the piece. -/
def Torn (delimiters : List Text) (log : List (Drained ο)) (input : Text) : Prop :=
  ∃ before text output after, log = before ++ Drained.content text output :: after ∧
    ∃ delimiter ∈ delimiters, ∃ position, OccursAt (utf8 delimiter) (utf8 input) position ∧
      byteLen (taken before) ≤ position ∧
      position < byteLen (taken before) + byteLen text ∧
      byteLen (taken before) + byteLen text < position + byteLen delimiter

/-- No delimiter begins in a piece of content, whatever follows what is kept. -/
def Unbroken (start stop : Text) : List (Drained ο) → Text → Prop
  | [], _ => True
  | .content text _ :: log, kept => Sealed start stop text (taken log ++ kept) ∧
    Unbroken start stop log kept
  | .reserved _ _ :: log, kept => Unbroken start stop log kept

variable {start stop kept text front back word : Text} {delimiters : List Text}
  {log log' before after : List (Drained ο)} {output : List ο} {state : σ}

@[simp] theorem taken_nil : taken ([] : List (Drained ο)) = [] := rfl

@[simp] theorem taken_cons (piece : Drained ο) (log : List (Drained ο)) :
    taken (piece :: log) = piece.text ++ taken log := rfl

@[simp] theorem taken_append (log log' : List (Drained ο)) :
    taken (log ++ log') = taken log ++ taken log' :=
  List.flatMap_append

@[simp] theorem Drained.text_content (text : Text) (output : List ο) :
    (Drained.content text output).text = text := rfl

@[simp] theorem Drained.text_reserved (text : Text) (output : List ο) :
    (Drained.reserved text output).text = text := rfl

theorem segments_append (log log' : List (Drained ο)) :
    segments (log ++ log') = segments log ++ segments log' :=
  List.flatMap_append

/-- Pieces that are taken first are returned first. -/
theorem returned_prepend (log : List (Drained ο)) (result : Except Halt (σ × List (Drained ο))) :
    returned (prepend log result) = prepend (segments log) (returned result) := by
  cases result with
  | error halt => rfl
  | ok next => simp [returned, prepend, Except.map, segments_append]

/-- An error is the same with an output in front of it. -/
theorem mapError_prepend {ε ε' : Type} (f : ε → ε') (output : List ο)
    (result : Except ε (σ × List ο)) :
    (prepend output result).mapError f = prepend output (result.mapError f) := by
  cases result with
  | error error => rfl
  | ok next => rfl

/-- What agrees with a push in characters does not cut inside a character. -/
theorem ne_panic_of_returned {result : Except Halt (σ × List (Drained ο))}
    {pushed : Except ParserError (σ × List ο)}
    (h : returned result = pushed.mapError Halt.error) : result ≠ .error .panic := by
  rintro rfl
  cases pushed with
  | error error => cases h
  | ok next => cases h

/-- More input may arrive. -/
theorem Unbroken.append_kept (h : Unbroken start stop log kept) (more : Text) :
    Unbroken start stop log (kept ++ more) := by
  induction log with
  | nil => trivial
  | cons piece log ih =>
    cases piece with
    | content text output =>
      refine ⟨?_, ih h.2⟩
      rw [← List.append_assoc]
      exact h.1.append more
    | reserved text output => exact ih h

/-- More pieces may be taken. -/
theorem Unbroken.append (h : Unbroken start stop log (taken log' ++ kept))
    (h' : Unbroken start stop log' kept) : Unbroken start stop (log ++ log') kept := by
  induction log with
  | nil => exact h'
  | cons piece log ih =>
    cases piece with
    | content text output =>
      refine ⟨?_, ih h.2⟩
      rw [List.append_eq, taken_append, List.append_assoc]
      exact h.1
    | reserved text output => exact ih h

/-- Each piece of content is sealed by what follows it. -/
theorem Unbroken.sealed
    (h : Unbroken start stop (before ++ Drained.content text output :: after) kept) :
    Sealed start stop text (taken after ++ kept) := by
  induction before with
  | nil => exact h.1
  | cons piece before ih =>
    cases piece with
    | content text output => exact ih h.2
    | reserved text output => exact ih h

/-- If no delimiter begins in content, none is torn. -/
theorem Unbroken.not_torn (hstart : start ≠ []) (hstop : stop ≠ [])
    (h : Unbroken start stop log kept) (more : Text) :
    ¬ Torn [start, stop] log (taken log ++ kept ++ more) := by
  rintro ⟨before, text, output, after, rfl, word, hword, position, hocc, hle, hlt, -⟩
  have hinput : taken (before ++ Drained.content text output :: after) ++ kept ++ more =
      taken before ++ (text ++ (taken after ++ kept ++ more)) := by
    simp
  rw [hinput] at hocc
  rw [byteLen_eq] at hle
  rw [byteLen_eq, byteLen_eq] at hlt
  simp only [List.mem_cons, List.not_mem_nil, or_false] at hword
  rcases hword with rfl | rfl
  · obtain ⟨j, hj, hocc⟩ := exists_occursAt_of_utf8 hstart hocc hle hlt
    exact (h.sealed more j hj).1 hocc
  · obtain ⟨j, hj, hocc⟩ := exists_occursAt_of_utf8 hstop hocc hle hlt
    exact (h.sealed more j hj).2 hocc

/-- A delimiter that begins with a whole piece of content is torn if it goes on behind it. -/
theorem torn_of_append (hword : front ++ back ∈ delimiters) (hfront : front ≠ [])
    (hback : back ≠ []) (before after : List (Drained ο)) (output : List ο) (rest : Text) :
    Torn delimiters (before ++ Drained.content front output :: after)
      (taken before ++ (front ++ back ++ rest)) := by
  have hfrontPos := byteLen_pos hfront
  have hbackPos := byteLen_pos hback
  refine ⟨before, front, output, after, rfl, _, hword, byteLen (taken before), ?_, le_rfl, ?_, ?_⟩
  · rw [utf8_append (taken before), utf8_append (front ++ back) rest, byteLen_eq]
    exact occursAt_append _ _ _
  · omega
  · rw [byteLen_append]
    omega

end Locus.Parser
