import Mathlib.Algebra.BigOperators.Group.List.Basic
import Mathlib.Data.UInt

/-!
# Sums of words

A sum of 64-bit words is computed one addition after the other. None of them leaves a word
exactly if the exact total fits one; then the computed sum is the total.
-/

namespace Locus.Lib

/-- The exact total of some words. -/
def exactSum (words : List UInt64) : ℕ := (words.map UInt64.toNat).sum

/-- No addition of the sum leaves a word. -/
def SumFits (words : List UInt64) : Prop :=
  ∀ front, front <+: words → exactSum front < 2 ^ 64

variable {words front back : List UInt64}

@[simp] theorem exactSum_cons (word : UInt64) (words : List UInt64) :
    exactSum (word :: words) = word.toNat + exactSum words := by
  simp [exactSum]

@[simp] theorem exactSum_append (front back : List UInt64) :
    exactSum (front ++ back) = exactSum front + exactSum back := by
  simp [exactSum]

/-- The total is the largest of the partial sums. -/
theorem sumFits_iff : SumFits words ↔ exactSum words < 2 ^ 64 := by
  constructor
  · intro h
    exact h words (List.prefix_refl words)
  · rintro h front ⟨back, rfl⟩
    rw [exactSum_append] at h
    omega

/-- The computed sum is the total, up to a multiple of the size of a word. -/
theorem toNat_sum_words (words : List UInt64) : words.sum.toNat = exactSum words % 2 ^ 64 := by
  induction words with
  | nil => rfl
  | cons word words ih =>
    rw [List.sum_cons, UInt64.toNat_add, ih, exactSum_cons]
    omega

/-- A sum without overflow is the total. -/
theorem toNat_sum_of_fits (h : SumFits words) : words.sum.toNat = exactSum words := by
  rw [toNat_sum_words, Nat.mod_eq_of_lt (sumFits_iff.mp h)]

end Locus.Lib
