import Mathlib.Data.List.Basic

/-!
# Conditions on every item of a history

A condition may look at an item and at everything before it. It holds throughout a history
if it holds for each item when it is added. It may also look at an item and at everything
after it.
-/

namespace Locus.Lib

variable {α : Type*} {P : List α → α → Prop} {history : List α} {item : α}

/-- Every item of the history meets the condition with what comes before it. -/
def Throughout (P : List α → α → Prop) (history : List α) : Prop :=
  ∀ before item after, history = before ++ item :: after → P before item

@[simp] theorem throughout_nil : Throughout P [] := by
  intro before item after heq
  cases before <;> cases heq

/-- The condition for the first item, and for the others with the first one before them. -/
theorem throughout_cons : Throughout P (item :: history) ↔
    P [] item ∧ Throughout (fun before => P (item :: before)) history := by
  constructor
  · intro h
    refine ⟨h [] item history rfl, ?_⟩
    intro before next after heq
    exact h (item :: before) next after (by rw [heq, List.cons_append])
  · rintro ⟨hfirst, hrest⟩ before next after heq
    cases before with
    | nil =>
      cases heq
      exact hfirst
    | cons head before =>
      cases heq
      exact hrest before next after rfl

/-- The condition for the last item, and for the others without it. -/
theorem throughout_concat :
    Throughout P (history ++ [item]) ↔ Throughout P history ∧ P history item := by
  constructor
  · intro h
    refine ⟨?_, h history item [] rfl⟩
    intro before next after heq
    exact h before next (after ++ [item]) (by simp [heq])
  · rintro ⟨hothers, hlast⟩ before next after heq
    rcases List.eq_nil_or_concat after with rfl | ⟨after, last, rfl⟩
    · obtain ⟨rfl, hnext⟩ := List.append_inj' heq rfl
      cases hnext
      exact hlast
    · rw [List.concat_eq_append, ← List.cons_append, ← List.append_assoc] at heq
      obtain ⟨heq, -⟩ := List.append_inj' heq rfl
      exact hothers before next after heq

/-- Whether a condition holds throughout is decided item by item. -/
instance Throughout.decidable : (P : List α → α → Prop) →
    [∀ before item, Decidable (P before item)] → (history : List α) →
    Decidable (Throughout P history)
  | _, _, [] => isTrue throughout_nil
  | P, _, item :: history =>
    have := Throughout.decidable (fun before => P (item :: before)) history
    decidable_of_iff _ throughout_cons.symm

/-- Every item of the history meets the condition with what comes after it. -/
def Onwards (Q : α → List α → Prop) (history : List α) : Prop :=
  ∀ before item after, history = before ++ item :: after → Q item after

section Onwards

variable {Q : α → List α → Prop}

@[simp] theorem onwards_nil : Onwards Q [] := by
  intro before item after heq
  cases before <;> cases heq

/-- The condition for the first item with the others after it, and for the others. -/
theorem onwards_cons : Onwards Q (item :: history) ↔ Q item history ∧ Onwards Q history := by
  constructor
  · intro h
    refine ⟨h [] item history rfl, ?_⟩
    intro before next after heq
    exact h (item :: before) next after (by rw [heq, List.cons_append])
  · rintro ⟨hfirst, hrest⟩ before next after heq
    cases before with
    | nil =>
      cases heq
      exact hfirst
    | cons head before =>
      cases heq
      exact hrest before next after rfl

/-- Items of a kind that no other follows occur at most once. -/
theorem Onwards.countP_le_one {p : α → Bool}
    (h : Onwards (fun item after => p item = true → ∀ later ∈ after, p later = false) history) :
    history.countP p ≤ 1 := by
  induction history with
  | nil => simp
  | cons item history ih =>
    obtain ⟨hfirst, hrest⟩ := onwards_cons.mp h
    cases hitem : p item with
    | false =>
      rw [List.countP_cons_of_neg (by simp [hitem])]
      exact ih hrest
    | true =>
      have hnone : history.countP p = 0 := by
        rw [List.countP_eq_zero]
        intro later hlater
        simp [hfirst hitem later hlater]
      rw [List.countP_cons_of_pos hitem]
      omega

end Onwards

/-- An entry of a list with one more item. -/
theorem getElem?_concat_eq_some {items : List α} {item other : α} {k : ℕ} :
    (items ++ [item])[k]? = some other ↔
      items[k]? = some other ∨ (items.length = k ∧ item = other) := by
  rcases Nat.lt_trichotomy k items.length with hlt | rfl | hgt
  · rw [List.getElem?_append_left hlt]
    have hne : items.length ≠ k := by omega
    simp [hne]
  · simp
  · have hout : (items ++ [item])[k]? = none := by simp; omega
    have hnone : items[k]? = none := by simp; omega
    have hne : items.length ≠ k := by omega
    simp [hout, hnone, hne]

end Locus.Lib
