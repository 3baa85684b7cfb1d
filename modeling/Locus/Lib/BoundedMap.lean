import Mathlib.Order.Basic
import Std.Data.ExtTreeMap

/-!
# Maps of bounded size

A map that may hold only so many entries makes room before it takes another one: unless
the key is there already or there is space, a victim is erased. Inserting after that stays
within the bound, and no entry changes but those of the key and of the victim.
-/

namespace Locus.Lib

open Std

variable {κ V : Type*} {cmp : κ → κ → Ordering} [TransCmp cmp]

/-- Erase a victim unless the incoming key is present or there is space for it. -/
def makeRoom (victim : ExtTreeMap κ V cmp → Option κ) (m : ExtTreeMap κ V cmp) (incoming : κ)
    (limit : ℕ) : ExtTreeMap κ V cmp :=
  if m.contains incoming ∨ m.size < limit then m
  else
    match victim m with
    | some key => m.erase key
    | none => m

variable {victim : ExtTreeMap κ V cmp → Option κ} {m : ExtTreeMap κ V cmp} {incoming : κ}
  {limit : ℕ}

/-- Nothing is erased where the key is present or there is space. -/
theorem makeRoom_of_space (h : incoming ∈ m ∨ m.size < limit) :
    makeRoom victim m incoming limit = m := by
  rw [makeRoom, if_pos]
  rwa [← ExtTreeMap.mem_iff_contains]

/-- Otherwise the victim is. -/
theorem makeRoom_of_full (hnew : incoming ∉ m) (hfull : limit ≤ m.size) {key : κ}
    (hvictim : victim m = some key) : makeRoom victim m incoming limit = m.erase key := by
  rw [makeRoom, if_neg, hvictim]
  rw [← ExtTreeMap.mem_iff_contains]
  exact not_or.mpr ⟨hnew, Nat.not_lt.mpr hfull⟩

/-- What is found after making room was there before. -/
theorem getElem?_of_makeRoom [LawfulEqCmp cmp] {key : κ} {value : V}
    (h : (makeRoom victim m incoming limit)[key]? = some value) : m[key]? = some value := by
  unfold makeRoom at h
  split at h
  next => exact h
  next =>
    split at h
    next =>
      rw [ExtTreeMap.getElem?_erase] at h
      split at h
      next => cases h
      next => exact h
    next => exact h

/-- A victim that is always found leaves room for the incoming key. -/
theorem size_insert_makeRoom_le (hlimit : 0 < limit) (hsize : m.size ≤ limit)
    (hvictim : ∀ m : ExtTreeMap κ V cmp, m ≠ ∅ → ∃ key ∈ m, victim m = some key) (value : V) :
    ((makeRoom victim m incoming limit).insert incoming value).size ≤ limit := by
  by_cases hspace : incoming ∈ m ∨ m.size < limit
  · rw [makeRoom_of_space hspace, ExtTreeMap.size_insert]
    split
    next => exact hsize
    next hnew =>
      have hroom := hspace.resolve_left hnew
      omega
  · obtain ⟨hnew, hfull⟩ := not_or.mp hspace
    have hne : m ≠ ∅ := by
      rintro rfl
      exact hfull (by simpa using hlimit)
    obtain ⟨key, hkey, hfound⟩ := hvictim m hne
    rw [makeRoom_of_full hnew (Nat.not_lt.mp hfull) hfound]
    have herase : (m.erase key).size = m.size - 1 := by
      rw [ExtTreeMap.size_erase, if_pos (ExtTreeMap.mem_iff_contains.mp hkey)]
    have hinsert := ExtTreeMap.size_insert_le (t := m.erase key) (k := incoming) (v := value)
    omega

end Locus.Lib
