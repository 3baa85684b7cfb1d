import Mathlib.Data.Nat.Dist
import Mathlib.Order.Lattice

/-!
# Serving the account that is behind

Two accounts are served in a run. When every service goes to an account that is not
ahead of the other, the distance between the accounts never exceeds the larger of
the distance at the start and the largest single service. The amounts served in the
run then differ by a bound that does not depend on how long the run is.
-/

namespace Locus.Lib

variable {S : Type*}

/-- A run in which each step serves the two accounts, with the largest single service
and the two totals. -/
inductive ServiceRun (R : S → ℕ → ℕ → S → Prop) : S → ℕ → ℕ → ℕ → S → Prop
  | nil (s : S) : ServiceRun R s 0 0 0 s
  | snoc {s t u : S} {largest a b x y : ℕ} :
      ServiceRun R s largest a b t → R t x y u →
        ServiceRun R s (max largest (max x y)) (a + x) (b + y) u

/-- A step adds what it serves, and serves one account only if it is not ahead. -/
structure ServesLeast (v w : S → ℕ) (s : S) (x y : ℕ) (t : S) : Prop where
  first_eq : v t = v s + x
  second_eq : w t = w s + y
  first_behind : x ≠ 0 → y = 0 ∧ v s ≤ w s
  second_behind : y ≠ 0 → x = 0 ∧ w s ≤ v s

/-- One service keeps the distance below any bound on it and on the service. -/
theorem ServesLeast.dist_le {v w : S → ℕ} {s t : S} {x y : ℕ} (h : ServesLeast v w s x y t) :
    Nat.dist (v t) (w t) ≤ max (Nat.dist (v s) (w s)) (max x y) := by
  obtain ⟨hv, hw, hfirst, hsecond⟩ := h
  unfold Nat.dist
  by_cases hx : x = 0
  · by_cases hy : y = 0
    · omega
    · have := hsecond hy
      omega
  · have := hfirst hx
    omega

/-- The distance stays bounded along a run, and the accounts grow by what they were served. -/
theorem ServiceRun.bounded {R : S → ℕ → ℕ → S → Prop} {v w : S → ℕ} (Inv : S → Prop)
    (hstep : ∀ s x y t, Inv s → R s x y t → Inv t ∧ ServesLeast v w s x y t)
    {s t : S} {largest a b : ℕ} (hrun : ServiceRun R s largest a b t) (hs : Inv s) :
    Inv t ∧ Nat.dist (v t) (w t) ≤ max (Nat.dist (v s) (w s)) largest ∧
      v t = v s + a ∧ w t = w s + b := by
  induction hrun with
  | nil => exact ⟨hs, le_max_left _ _, rfl, rfl⟩
  | snoc _ hlast ih =>
    obtain ⟨hinv, hdist, hv, hw⟩ := ih
    obtain ⟨hinv', hserves⟩ := hstep _ _ _ _ hinv hlast
    refine ⟨hinv', ?_, ?_, ?_⟩
    · calc _ ≤ _ := hserves.dist_le
        _ ≤ max (max _ _) _ := max_le_max_right _ hdist
        _ = _ := max_assoc _ _ _
    · rw [hserves.first_eq, hv, Nat.add_assoc]
    · rw [hserves.second_eq, hw, Nat.add_assoc]

/-- What the two accounts were served differs by no more than the two distances together. -/
theorem dist_served_le {v w v' w' a b bound : ℕ} (hv : v' = v + a) (hw : w' = w + b)
    (hbound : Nat.dist v' w' ≤ bound) : Nat.dist a b ≤ Nat.dist v w + bound := by
  unfold Nat.dist at *
  omega

/-- No single service exceeds what every step is limited to. -/
theorem ServiceRun.largest_le {R : S → ℕ → ℕ → S → Prop} (Inv : S → Prop) {limit : ℕ}
    (hstep : ∀ s x y t, Inv s → R s x y t → Inv t ∧ x ≤ limit ∧ y ≤ limit)
    {s t : S} {largest a b : ℕ} (hrun : ServiceRun R s largest a b t) (hs : Inv s) :
    Inv t ∧ largest ≤ limit := by
  induction hrun with
  | nil => exact ⟨hs, Nat.zero_le _⟩
  | snoc _ hlast ih =>
    obtain ⟨hinv, hle⟩ := ih
    obtain ⟨hinv', hx, hy⟩ := hstep _ _ _ _ hinv hlast
    exact ⟨hinv', max_le hle (max_le hx hy)⟩

/-- One step of a partial function that serves the accounts, with the totals so far. -/
def serve {L : Type*} (f : S → L → Option (ℕ × ℕ × S)) (acc : ℕ × ℕ × ℕ × S) (l : L) :
    Option (ℕ × ℕ × ℕ × S) :=
  (f acc.2.2.2 l).map fun r =>
    (max acc.1 (max r.1 r.2.1), acc.2.1 + r.1, acc.2.2.1 + r.2.1, r.2.2)

/-- Executing a function that serves the accounts extends a run. -/
theorem ServiceRun.of_foldlM {L : Type*} {R : S → ℕ → ℕ → S → Prop}
    {f : S → L → Option (ℕ × ℕ × S)} (hf : ∀ s l x y t, f s l = some (x, y, t) → R s x y t)
    {ls : List L} {s t u : S} {m a b m' a' b' : ℕ} (hrun : ServiceRun R s m a b t)
    (h : ls.foldlM (serve f) (m, a, b, t) = some (m', a', b', u)) :
    ServiceRun R s m' a' b' u := by
  induction ls generalizing m a b t with
  | nil =>
    simp only [List.foldlM_nil, Option.pure_def, Option.some.injEq, Prod.mk.injEq] at h
    obtain ⟨rfl, rfl, rfl, rfl⟩ := h
    exact hrun
  | cons l ls ih =>
    rw [List.foldlM_cons] at h
    obtain ⟨acc, hserve, hrest⟩ := Option.bind_eq_some_iff.mp h
    obtain ⟨⟨x, y, t'⟩, hone, rfl⟩ := Option.map_eq_some_iff.mp hserve
    exact ih (hrun.snoc (hf _ _ _ _ _ hone)) hrest

end Locus.Lib
