import Mathlib.Algebra.BigOperators.Group.Multiset.Basic
import Mathlib.Algebra.Order.BigOperators.Group.Multiset
import Mathlib.Data.Multiset.Filter
import Mathlib.Data.UInt

/-!
# Tallies of a multiset

The total size of the elements that share a key, once as a natural number and
once as a 64-bit word that wraps. A table of counters kept beside a collection is
right when each of its entries is the tally of its key.
-/

namespace Locus.Lib

variable {α κ : Type*} [DecidableEq κ]

/-- The exact total size of the elements with the given key. -/
def natTally (key : α → κ) (size : α → UInt64) (M : Multiset α) (k : κ) : ℕ :=
  ((M.filter fun a => key a = k).map fun a => (size a).toNat).sum

/-- The total size of the elements with the given key, modulo `2 ^ 64`. -/
def tally (key : α → κ) (size : α → UInt64) (M : Multiset α) (k : κ) : UInt64 :=
  ((M.filter fun a => key a = k).map size).sum

/-- A sum of words is the exact sum modulo the size of a word. -/
theorem toNat_sum (M : Multiset α) (size : α → UInt64) :
    (M.map size).sum.toNat = (M.map fun a => (size a).toNat).sum % 2 ^ 64 := by
  induction M using Multiset.induction with
  | empty => rfl
  | cons a M ih =>
    simp only [Multiset.map_cons, Multiset.sum_cons, UInt64.toNat_add, ih]
    omega

/-- A sum of ones is the number of elements modulo the size of a word. -/
theorem toNat_sum_one (M : Multiset α) :
    (M.map fun _ => (1 : UInt64)).sum.toNat = M.card % 2 ^ 64 := by
  rw [toNat_sum]
  simp

variable (key : α → κ) (size : α → UInt64)

theorem toNat_tally (M : Multiset α) (k : κ) :
    (tally key size M k).toNat = natTally key size M k % 2 ^ 64 := toNat_sum _ _

@[simp] theorem natTally_zero (k : κ) : natTally key size 0 k = 0 := rfl

theorem tally_cons (a : α) (M : Multiset α) (k : κ) :
    tally key size (a ::ₘ M) k = (if key a = k then size a else 0) + tally key size M k := by
  by_cases h : key a = k <;> simp [tally, h]

theorem natTally_cons (a : α) (M : Multiset α) (k : κ) :
    natTally key size (a ::ₘ M) k =
      (if key a = k then (size a).toNat else 0) + natTally key size M k := by
  by_cases h : key a = k <;> simp [natTally, h]

/-- A tally does not see a renaming that keeps keys and sizes. -/
theorem tally_map {f : α → α} (hkey : ∀ a, key (f a) = key a) (hsize : ∀ a, size (f a) = size a)
    (M : Multiset α) (k : κ) : tally key size (M.map f) k = tally key size M k := by
  simp [tally, Multiset.filter_map, hkey, hsize]

/-- A tally of ones is a number of elements. -/
theorem natTally_one (M : Multiset α) (k : κ) :
    natTally key (fun _ => 1) M k = (M.filter fun a => key a = k).card := by
  simp [natTally]

/-- One key has no more elements than all keys together. -/
theorem natTally_one_le_card (M : Multiset α) (k : κ) :
    natTally key (fun _ => 1) M k ≤ M.card := by
  rw [natTally_one]
  exact Multiset.card_le_card (Multiset.filter_le _ _)

/-- A word that bounds the number of elements bounds every tally of ones. -/
theorem natTally_one_lt {M : Multiset α} {k : κ} {n : UInt64} (h : M.card ≤ n.toNat) :
    natTally key (fun _ => 1) M k < 2 ^ 64 := by
  have hle := natTally_one_le_card key M k
  have hn := n.toNat_lt
  omega

/-- One key's tally is part of the whole. -/
theorem natTally_le_sum (M : Multiset α) (k : κ) :
    natTally key size M k ≤ (M.map fun a => (size a).toNat).sum := by
  induction M using Multiset.induction with
  | empty => simp
  | cons a M ih =>
    rw [natTally_cons, Multiset.map_cons, Multiset.sum_cons]
    split <;> omega

/-- One element is counted under one of some distinct keys at most. -/
private theorem sum_ite_eq_le {keys : List κ} (hnodup : keys.Nodup) (k : κ) (n : ℕ) :
    (keys.map fun k' => if k = k' then n else 0).sum ≤ n := by
  induction keys with
  | nil => simp
  | cons k' keys ih =>
    obtain ⟨hnew, hrest⟩ := List.nodup_cons.mp hnodup
    rw [List.map_cons, List.sum_cons]
    by_cases heq : k = k'
    · have hzero : (keys.map fun k' => if k = k' then n else 0).sum = 0 := by
        refine List.sum_eq_zero fun m hm => ?_
        obtain ⟨other, hother, rfl⟩ := List.mem_map.mp hm
        exact if_neg fun h => hnew (by rwa [← heq, h])
      rw [if_pos heq, hzero]
      omega
    · rw [if_neg heq, Nat.zero_add]
      exact ih hrest

/-- Distinct keys share the elements out among them. -/
theorem sum_natTally_le {keys : List κ} (hnodup : keys.Nodup) (M : Multiset α) :
    (keys.map fun k => natTally key size M k).sum ≤ (M.map fun a => (size a).toNat).sum := by
  induction M using Multiset.induction with
  | empty => simp
  | cons a M ih =>
    have hadded := sum_ite_eq_le hnodup (key a) (size a).toNat
    simp only [natTally_cons, List.sum_map_add, Multiset.map_cons, Multiset.sum_cons]
    exact Nat.add_le_add hadded ih

end Locus.Lib
