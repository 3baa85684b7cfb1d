import Locus.Lib.MapEntries
import Locus.Lib.Tally
import Locus.Traffic.State
import Mathlib.Tactic.Abel

/-!
# Counters that track a collection

The controller keeps six tables of counters beside its queues and its active map.
`Tracks` states that a table is the tally of a collection; `increment` and
`decrement` keep it when one element joins or leaves. Nothing here depends on
which table it is: the tallies are words that wrap, and the ghost flag stays
clear as long as the exact tally fits a word.
-/

namespace Locus.Traffic

open Std Locus.Lib

variable {α κ : Type} [Ord κ]

section Count

variable [TransOrd κ] [LawfulEqOrd κ] {V : Type} [Zero V]

theorem count_insert (m : TreeMap κ V) (k k' : κ) (v : V) [Decidable (k = k')] :
    count (m.insert k v) k' = if k = k' then v else count m k' := by
  by_cases h : k = k' <;> simp [count, TreeMap.getElem?_insert, h]

end Count

section Words

variable [TransOrd κ] [LawfulEqOrd κ]

private theorem sum_insert (m : TreeMap κ UInt64) (k : κ) (v : UInt64) :
    ((entries (m.insert k v)).map Prod.snd).sum + count m k =
      ((entries m).map Prod.snd).sum + v := by
  rw [entries_insert]
  cases hk : m[k]? with
  | none => simp [count, hk, entries_erase_of_none hk, add_comm]
  | some old =>
    rw [entries_of_getElem? hk]
    simp only [count, hk, Option.getD_some, Multiset.map_cons, Multiset.sum_cons]
    abel

private theorem isSome_insert {m : TreeMap κ UInt64} {k k' : κ} {v : UInt64}
    (h : m[k']?.isSome) : ((m.insert k v)[k']?).isSome := by
  by_cases hk : k = k' <;> simp [TreeMap.getElem?_insert, hk, h]

end Words

variable [DecidableEq κ]

/-- A table is the tally of a collection: per key, in total, and with an entry for
every key in use. -/
structure Tracks (c : Counters κ) (key : α → κ) (size : α → UInt64) (M : Multiset α) : Prop where
  count_eq : ∀ k, count c.map k = tally key size M k
  total_eq : ((entries c.map).map Prod.snd).sum = (M.map size).sum
  present : ∀ a ∈ M, (c.map[key a]?).isSome

variable {c : Counters κ} {key : α → κ} {size : α → UInt64} {M : Multiset α} {a : α}

/-- A fresh table tracks the empty collection. -/
theorem Tracks.empty : Tracks ({} : Counters κ) key size (0 : Multiset α) where
  count_eq k := rfl
  total_eq := rfl
  present a h := by simp at h

/-- A tracked value that fits a word is the exact tally. -/
theorem Tracks.toNat_count (h : Tracks c key size M) {k : κ}
    (hfits : natTally key size M k < 2 ^ 64) :
    (count c.map k).toNat = natTally key size M k := by
  rw [h.count_eq, toNat_tally, Nat.mod_eq_of_lt hfits]

/-- Two tables that track a collection and a renaming of it hold the same counts. -/
theorem Tracks.renamed {c' : Counters κ} {f : α → α} (h : Tracks c key size (M.map f))
    (h' : Tracks c' key size M) (hkey : ∀ a, key (f a) = key a)
    (hsize : ∀ a, size (f a) = size a) :
    (∀ k, count c.map k = count c'.map k) ∧
      ((entries c.map).map Prod.snd).sum = ((entries c'.map).map Prod.snd).sum := by
  refine ⟨fun k => ?_, ?_⟩
  · rw [h.count_eq, h'.count_eq, tally_map key size hkey hsize]
  · rw [h.total_eq, h'.total_eq, Multiset.map_map]
    simp [hsize]

/-- No addition leaves the word while the tally it leads to fits one. -/
theorem Tracks.increment_overflowed (h : Tracks c key size M) (a : α)
    (hclear : c.overflowed = false)
    (hfits : natTally key size (a ::ₘ M) (key a) < 2 ^ 64) :
    (Traffic.increment c (key a) (size a)).overflowed = false := by
  rw [natTally_cons, if_pos rfl] at hfits
  have hcount := h.toNat_count (k := key a) (by omega)
  simp only [Traffic.increment, hclear, Bool.false_or, decide_eq_false_iff_not, hcount]
  omega

/-- No subtraction goes below zero while the tally it starts from fits a word. -/
theorem Tracks.decrement_overflowed (h : Tracks c key size (a ::ₘ M))
    (hclear : c.overflowed = false)
    (hfits : natTally key size (a ::ₘ M) (key a) < 2 ^ 64) :
    (Traffic.decrement c (key a) (size a)).overflowed = false := by
  obtain ⟨current, hcurrent⟩ := Option.isSome_iff_exists.mp (h.present a (by simp))
  have hcount := h.toNat_count hfits
  rw [natTally_cons, if_pos rfl] at hcount
  have hle : size a ≤ current := by
    rw [UInt64.le_iff_toNat_le]
    simp only [count, hcurrent, Option.getD_some] at hcount
    omega
  simp only [Traffic.decrement, hcurrent, hclear, Bool.false_or, decide_eq_false_iff_not]
  exact not_lt.mpr hle

variable [TransOrd κ] [LawfulEqOrd κ]

/-- Adding an element's size under its key tracks the larger collection. -/
theorem Tracks.increment (h : Tracks c key size M) (a : α) :
    Tracks (increment c (key a) (size a)) key size (a ::ₘ M) where
  count_eq k := by
    rw [tally_cons, Traffic.increment, count_insert]
    by_cases hk : key a = k
    · subst hk
      simp [h.count_eq, add_comm]
    · simp [hk, h.count_eq]
  total_eq := by
    have hsum := sum_insert c.map (key a) (count c.map (key a) + size a)
    rw [Multiset.map_cons, Multiset.sum_cons, ← h.total_eq]
    have := add_right_cancel (hsum.trans (by abel :
      _ = size a + ((entries c.map).map Prod.snd).sum + count c.map (key a)))
    exact this
  present b hb := by
    rcases Multiset.mem_cons.mp hb with rfl | hb
    · simp [Traffic.increment]
    · exact isSome_insert (h.present b hb)

/-- Taking an element's size from its key tracks the smaller collection. -/
theorem Tracks.decrement (h : Tracks c key size (a ::ₘ M)) :
    Tracks (decrement c (key a) (size a)) key size M := by
  obtain ⟨current, hcurrent⟩ := Option.isSome_iff_exists.mp (h.present a (by simp))
  have hcount : count c.map (key a) = current := by simp [count, hcurrent]
  have hdec : (Traffic.decrement c (key a) (size a)).map =
      c.map.insert (key a) (current - size a) := by simp [Traffic.decrement, hcurrent]
  refine ⟨fun k => ?_, ?_, fun b hb => ?_⟩
  · rw [hdec, count_insert]
    have heq := h.count_eq k
    rw [tally_cons] at heq
    by_cases hk : key a = k
    · subst hk
      rw [if_pos rfl] at heq ⊢
      rw [← hcount, heq]
      abel
    · rw [if_neg hk] at heq ⊢
      simpa using heq
  · have hsum := sum_insert c.map (key a) (current - size a)
    have htotal := h.total_eq
    rw [Multiset.map_cons, Multiset.sum_cons] at htotal
    rw [hcount, htotal] at hsum
    rw [hdec]
    refine add_right_cancel (hsum.trans ?_)
    abel
  · rw [hdec]
    exact isSome_insert (h.present b (by simp [hb]))

/-- Decrementing for every element of a list leaves the rest of the collection. -/
theorem Tracks.foldl_decrement {l : List α} (h : Tracks c key size (l + M)) :
    Tracks (l.foldl (fun c a => Traffic.decrement c (key a) (size a)) c) key size M := by
  induction l generalizing c with
  | nil => simpa using h
  | cons a l ih =>
    refine ih (Tracks.decrement (a := a) ?_)
    simpa [← Multiset.cons_coe] using h

/-- Emptying a list through its counters keeps the flag clear. -/
theorem Tracks.foldl_decrement_overflowed {l : List α} (h : Tracks c key size (l : Multiset α))
    (hclear : c.overflowed = false)
    (hfits : ∀ k, natTally key size (l : Multiset α) k < 2 ^ 64) :
    (l.foldl (fun c a => Traffic.decrement c (key a) (size a)) c).overflowed = false := by
  induction l generalizing c with
  | nil => exact hclear
  | cons a l ih =>
    rw [← Multiset.cons_coe] at h hfits
    refine ih h.decrement (h.decrement_overflowed hclear (hfits _)) fun k => ?_
    have := hfits k
    rw [natTally_cons] at this
    omega

end Locus.Traffic
