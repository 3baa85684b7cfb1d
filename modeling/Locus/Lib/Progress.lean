import Locus.Lib.Runs
import Mathlib.Algebra.GroupWithZero.Nat
import Mathlib.Algebra.Order.BigOperators.Group.List
import Mathlib.Algebra.Order.Group.Nat

/-!
# Systems that come to an end

A measure that every step lowers bounds the length of a run. If some step lowers it
wherever the system has not ended, the system can end from wherever it is. A measure of a
system made of parts is the sum of the weights of the parts.
-/

namespace Locus.Lib

section Measures

variable {S L : Type*} {R : S → L → S → Prop} (Inv : S → Prop) (measure : S → ℕ)

/-- A run is no longer than what its steps use up of a measure. -/
theorem Run.length_add_le (hkeep : ∀ s l t, Inv s → R s l t → Inv t)
    (hless : ∀ s l t, Inv s → R s l t → measure t < measure s)
    {s t : S} {ls : List L} (hrun : Run R s ls t) (hs : Inv s) :
    ls.length + measure t ≤ measure s := by
  induction hrun with
  | nil => simp
  | @snoc t u ls l hrun hlast ih =>
    have ht : Inv t := hrun.invariant Inv hkeep hs
    have hstep := hless t l u ht hlast
    rw [List.length_append, List.length_singleton]
    omega

/-- A system that can always lower a measure until it has ended can end. -/
theorem exists_run_to_end {Ended : S → Prop}
    (hstep : ∀ s, Inv s → ¬Ended s → ∃ l t, R s l t ∧ Inv t ∧ measure t < measure s)
    (s : S) (hs : Inv s) : ∃ ls t, Run R s ls t ∧ Ended t := by
  induction hn : measure s using Nat.strongRecOn generalizing s with
  | ind n ih =>
    by_cases hended : Ended s
    · exact ⟨[], s, .nil s, hended⟩
    · obtain ⟨l, t, hfirst, ht, hless⟩ := hstep s hs hended
      obtain ⟨ls, u, hrest, hu⟩ := ih (measure t) (hn ▸ hless) t ht rfl
      exact ⟨[l] ++ ls, u, Run.append (.snoc (.nil s) hfirst) hrest, hu⟩

end Measures

section Weights

variable {α : Type*} (weight : α → ℕ)

/-- The total weight of some parts. -/
def totalWeight (parts : List α) : ℕ := (parts.map weight).sum

@[simp] theorem totalWeight_nil : totalWeight weight [] = 0 :=
  rfl

@[simp] theorem totalWeight_concat (parts : List α) (part : α) :
    totalWeight weight (parts ++ [part]) = totalWeight weight parts + weight part := by
  simp [totalWeight]

/-- Replacing one part changes the total by what it changes the part. -/
theorem totalWeight_set {parts : List α} {i : ℕ} {part : α} (h : parts[i]? = some part)
    (new : α) :
    totalWeight weight (parts.set i new) + weight part = totalWeight weight parts + weight new := by
  induction parts generalizing i with
  | nil => simp at h
  | cons first rest ih =>
    cases i with
    | zero =>
      obtain rfl : first = part := by simpa using h
      simp only [totalWeight, List.set_cons_zero, List.map_cons, List.sum_cons]
      omega
    | succ i =>
      have hrest := ih (i := i) (by simpa using h)
      simp only [totalWeight, List.set_cons_succ, List.map_cons, List.sum_cons] at hrest ⊢
      omega

/-- Removing one part takes its weight away. -/
theorem totalWeight_eraseIdx {parts : List α} {i : ℕ} {part : α} (h : parts[i]? = some part) :
    totalWeight weight (parts.eraseIdx i) + weight part = totalWeight weight parts := by
  induction parts generalizing i with
  | nil => simp at h
  | cons first rest ih =>
    cases i with
    | zero =>
      obtain rfl : first = part := by simpa using h
      simp only [totalWeight, List.eraseIdx_zero, List.tail_cons, List.map_cons, List.sum_cons]
      omega
    | succ i =>
      have hrest := ih (i := i) (by simpa using h)
      simp only [totalWeight, List.eraseIdx_cons_succ, List.map_cons, List.sum_cons] at hrest ⊢
      omega

/-- Weights are added part by part. -/
theorem totalWeight_add (weight' : α → ℕ) (parts : List α) :
    totalWeight (fun part => weight part + weight' part) parts =
      totalWeight weight parts + totalWeight weight' parts :=
  List.sum_map_add

/-- Weights that compare part by part compare in total. -/
theorem totalWeight_le {weight' : α → ℕ} {parts : List α}
    (h : ∀ part ∈ parts, weight part ≤ weight' part) :
    totalWeight weight parts ≤ totalWeight weight' parts :=
  List.sum_le_sum h

end Weights

end Locus.Lib
