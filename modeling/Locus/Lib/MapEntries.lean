import Mathlib.Data.Multiset.Filter
import Mathlib.Data.String.Basic

/-!
# The entries of a finite map

An ordered map is compared with what it stores through the multiset of its
entries. Inserting and erasing a key add and remove one entry, so a sum or a
count over a map changes by the entry of the key that was touched. The order of
iteration is forgotten here; where it matters, `toList` is used directly.
-/

namespace Locus.Lib

open Std

variable {κ V : Type*} {cmp : κ → κ → Ordering}

/-- The key-value pairs stored in a map, without their order. -/
def entries (m : TreeMap κ V cmp) : Multiset (κ × V) := (m.toList : Multiset (κ × V))

@[simp] theorem entries_empty : entries (∅ : TreeMap κ V cmp) = 0 := rfl

/-- The number of entries is the size of the map. -/
theorem card_entries (m : TreeMap κ V cmp) : (entries m).card = m.size := by
  simp [entries, TreeMap.length_toList]

section Lawful

variable [TransCmp cmp] [LawfulEqCmp cmp]

/-- An entry is stored exactly when looking up its key returns its value. -/
@[simp] theorem mem_entries {m : TreeMap κ V cmp} {k : κ} {v : V} :
    (k, v) ∈ entries m ↔ m[k]? = some v := by
  simp [entries, TreeMap.mem_toList_iff_getElem?_eq_some]

/-- No entry is stored twice. -/
theorem entries_nodup (m : TreeMap κ V cmp) : (entries m).Nodup := by
  have hkeys : m.toList.Pairwise (fun a b => ¬cmp a.1 b.1 = .eq) := TreeMap.distinct_keys_toList
  refine Multiset.coe_nodup.mpr (hkeys.imp ?_)
  intro a b hne heq
  exact hne (by rw [heq]; exact ReflCmp.compare_self)

/-- Two maps with the same lookups have the same entries. -/
theorem entries_congr {m m' : TreeMap κ V cmp} (h : ∀ k : κ, m[k]? = m'[k]?) :
    entries m = entries m' := by
  refine ((entries_nodup m).ext (entries_nodup m')).mpr ?_
  rintro ⟨k, v⟩
  simp [h]

/-- Two maps whose lookups agree up to a renaming of the keys store the same entries, renamed. -/
theorem entries_rename {m m' : TreeMap κ V cmp} {f : κ → κ} (hf : Function.Bijective f)
    (h : ∀ k : κ, m[f k]? = m'[k]?) : entries m = (entries m').map (Prod.map f id) := by
  have hmap := (entries_nodup m').map (hf.injective.prodMap Function.injective_id)
  refine ((entries_nodup m).ext hmap).mpr ?_
  rintro ⟨k, v⟩
  obtain ⟨k, rfl⟩ := hf.surjective k
  simp [h, hf.injective.eq_iff]

/-- Inserting a key replaces its entry. -/
theorem entries_insert (m : TreeMap κ V cmp) (k : κ) (v : V) :
    entries (m.insert k v) = (k, v) ::ₘ entries (m.erase k) := by
  have hnew : (k, v) ∉ entries (m.erase k) := by simp
  refine ((entries_nodup _).ext ((entries_nodup _).cons hnew)).mpr ?_
  rintro ⟨k', v'⟩
  by_cases hk : k = k'
  · subst hk
    simp [eq_comm]
  · simp [TreeMap.getElem?_insert, TreeMap.getElem?_erase, hk, Ne.symm hk]

/-- A stored key is one entry together with those of the map without it. -/
theorem entries_of_getElem? {m : TreeMap κ V cmp} {k : κ} {v : V} (h : m[k]? = some v) :
    entries m = (k, v) ::ₘ entries (m.erase k) := by
  rw [← entries_insert]
  refine entries_congr fun k' => ?_
  by_cases hk : k = k'
  · subst hk
    simp [h]
  · simp [TreeMap.getElem?_insert, hk]

/-- Erasing an absent key changes nothing. -/
theorem entries_erase_of_none {m : TreeMap κ V cmp} {k : κ} (h : m[k]? = none) :
    entries (m.erase k) = entries m := by
  refine entries_congr fun k' => ?_
  by_cases hk : k = k'
  · subst hk
    simp [h]
  · simp [TreeMap.getElem?_erase, hk]

/-- Erasing a key keeps the entries of all others. -/
theorem entries_erase [DecidableEq κ] (m : TreeMap κ V cmp) (k : κ) :
    entries (m.erase k) = (entries m).filter fun e => e.1 ≠ k := by
  refine ((entries_nodup _).ext ((entries_nodup m).filter _)).mpr ?_
  rintro ⟨k', v⟩
  by_cases hk : k = k'
  · subst hk
    simp
  · simp [TreeMap.getElem?_erase, hk, Ne.symm hk]

/-- A map built from a list only stores pairs of the list. -/
theorem mem_of_getElem?_ofList {l : List (κ × V)} {k : κ} {v : V}
    (h : (TreeMap.ofList l cmp)[k]? = some v) : (k, v) ∈ l := by
  classical
  rw [TreeMap.ofList_eq_insertMany_empty, TreeMap.getElem?_insertMany_list] at h
  simp only [TreeMap.getElem?_emptyc, Option.or_none] at h
  rw [List.findSomeRev?_eq_findSome?_reverse] at h
  obtain ⟨⟨k', v'⟩, hmem, hfound⟩ := List.exists_of_findSome?_eq_some h
  simp only [Option.ite_none_right_eq_some, Option.some.injEq] at hfound
  obtain ⟨hk, rfl⟩ := hfound
  rw [← LawfulEqCmp.eq_of_compare hk]
  exact List.mem_reverse.mp hmem

end Lawful

end Locus.Lib
