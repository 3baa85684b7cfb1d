import Mathlib.Data.List.Basic

/-!
# Computations that may fail

What a successful computation says about its parts.
-/

namespace Locus.Lib

variable {ε α β : Type}

/-- If a sequence succeeds, so does its first part. -/
theorem bind_eq_ok {x : Except ε α} {f : α → Except ε β} {b : β} (h : x >>= f = .ok b) :
    ∃ a, x = .ok a ∧ f a = .ok b := by
  cases x with
  | error e => cases h
  | ok a => exact ⟨a, rfl, h⟩

/-- If a computation succeeds under another error, it succeeds. -/
theorem mapError_eq_ok {ε' : Type} {f : ε → ε'} {x : Except ε α} {a : α}
    (h : x.mapError f = .ok a) : x = .ok a := by
  cases x with
  | error => cases h
  | ok value =>
    cases h
    rfl

/-- If a guarded computation succeeds, its guard was passed. -/
theorem guard_eq_ok {p : Prop} [Decidable p] {e : ε} {k : PUnit → Except ε β} {b : β}
    (h : (if p then throw e >>= k else k ⟨⟩ : Except ε β) = .ok b) : ¬p ∧ k ⟨⟩ = .ok b := by
  by_cases hp : p
  · rw [if_pos hp] at h
    cases h
  · exact ⟨hp, by rwa [if_neg hp] at h⟩

/-- If a computation with an optional part succeeds, so does the part where it is run. -/
theorem optional_eq_ok {p : Prop} [Decidable p] {x : Except ε PUnit} {k : PUnit → Except ε β}
    {b : β} (h : (if p then x >>= k else k ⟨⟩) = .ok b) : (p → x = .ok ⟨⟩) ∧ k ⟨⟩ = .ok b := by
  by_cases hp : p
  · rw [if_pos hp] at h
    obtain ⟨_, hx, h⟩ := bind_eq_ok h
    exact ⟨fun _ => hx, h⟩
  · rw [if_neg hp] at h
    exact ⟨fun hp' => absurd hp' hp, h⟩

/-- Items none of which has failed are folded as they are. -/
theorem foldlM_map_ok {σ : Type} (step : σ → α → σ) (items : List α) (state : σ) :
    (items.map Except.ok).foldlM (fun state (item : Except ε α) => item.map (step state)) state =
      .ok (items.foldl step state) := by
  induction items generalizing state with
  | nil => rfl
  | cons item items ih => exact ih (step state item)

/-- A list is mapped if all its items are. -/
theorem mapM_cons_eq_ok {f : α → Except ε β} {item : α} {items : List α} {values : List β} :
    (item :: items).mapM f = .ok values ↔
      ∃ value rest, f item = .ok value ∧ items.mapM f = .ok rest ∧ values = value :: rest := by
  rw [List.mapM_cons]
  constructor
  · intro h
    obtain ⟨value, hvalue, hrest⟩ := bind_eq_ok h
    obtain ⟨rest, hitems, hvalues⟩ := bind_eq_ok hrest
    cases hvalues
    exact ⟨value, rest, hvalue, hitems, rfl⟩
  · rintro ⟨value, rest, hvalue, hitems, rfl⟩
    rw [hvalue, hitems]
    rfl

/-- The values of a mapped list are those of its items. -/
theorem mem_mapM_eq_ok {f : α → Except ε β} {items : List α} {values : List β}
    (h : items.mapM f = .ok values) {value : β} :
    value ∈ values ↔ ∃ item ∈ items, f item = .ok value := by
  induction items generalizing values with
  | nil =>
    cases h
    simp
  | cons item items ih =>
    obtain ⟨first, rest, hfirst, hrest, rfl⟩ := mapM_cons_eq_ok.mp h
    rw [List.mem_cons, ih hrest, List.exists_mem_cons_iff, hfirst, Except.ok.injEq, eq_comm]

/-- Every item of a mapped list has a value. -/
theorem exists_of_mapM_eq_ok {f : α → Except ε β} {items : List α} {values : List β}
    (h : items.mapM f = .ok values) {item : α} (hmem : item ∈ items) :
    ∃ value, f item = .ok value := by
  induction items generalizing values with
  | nil => cases hmem
  | cons first items ih =>
    obtain ⟨value, rest, hfirst, hrest, -⟩ := mapM_cons_eq_ok.mp h
    rcases List.mem_cons.mp hmem with rfl | hmem
    · exact ⟨value, hfirst⟩
    · exact ih hrest hmem

end Locus.Lib
