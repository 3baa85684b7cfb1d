import Mathlib.Data.List.Basic

/-!
# The lines of a text

A text is cut after each newline. The ending of a line, a newline with or without a carriage
return before it, does not belong to it, and there is no empty line after the last newline.
-/

namespace Locus.Lib

/-- A line without the carriage return that belongs to its ending. -/
def stripReturn (line : List Char) : List Char :=
  if line.getLast? = some '\r' then line.dropLast else line

/-- The lines of a text that goes on from the beginning of a line. -/
def linesFrom (current : List Char) : List Char → List (List Char)
  | [] => if current = [] then [] else [current]
  | c :: rest =>
    if c = '\n' then stripReturn current :: linesFrom [] rest else linesFrom (current ++ [c]) rest

/-- The lines of a text. -/
def lines (text : List Char) : List (List Char) := linesFrom [] text

variable {line rest : List Char}

theorem linesFrom_append (current : List Char) (h : '\n' ∉ line) (rest : List Char) :
    linesFrom current (line ++ '\n' :: rest) = stripReturn (current ++ line) :: lines rest := by
  induction line generalizing current with
  | nil => simp [linesFrom, lines]
  | cons c line ih =>
    obtain ⟨hc, hline⟩ := not_or.mp (mt List.mem_cons.mpr h)
    rw [List.cons_append, linesFrom, if_neg (Ne.symm hc), ih _ hline, List.append_assoc,
      List.singleton_append]

/-- The first line of a text ends at its first newline. -/
theorem lines_append_newline (h : '\n' ∉ line) (rest : List Char) :
    lines (line ++ '\n' :: rest) = stripReturn line :: lines rest :=
  linesFrom_append [] h rest

/-- A text that was put together from lines has these lines. -/
theorem lines_flatMap {all : List (List Char)} (h : ∀ line ∈ all, '\n' ∉ line) :
    lines (all.flatMap fun line => line ++ ['\n']) = all.map stripReturn := by
  induction all with
  | nil => rfl
  | cons line all ih =>
    obtain ⟨hline, hall⟩ := List.forall_mem_cons.mp h
    rw [List.flatMap_cons, List.append_assoc, List.singleton_append, lines_append_newline hline,
      ih hall, List.map_cons]

end Locus.Lib
