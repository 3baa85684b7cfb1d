import Mathlib.Data.List.Induction
import Mathlib.Data.List.Sort

/-!
# Least elements of a list

Sorting and taking the head finds a least element, and so does a scan that replaces
the best element so far only by a smaller one. The scan finds the first of them, and so does
a stable sort. The order of a sort can be written back into the list as ranks.
-/

namespace Locus.Lib

variable {α : Type*} [LinearOrder α]

/-- The head of a sorted list is one of its elements and bounds all of them. -/
theorem head?_insertionSort_eq_some {l : List α} {m : α}
    (h : (l.insertionSort (· ≤ ·)).head? = some m) : m ∈ l ∧ ∀ x ∈ l, m ≤ x := by
  obtain ⟨rest, hsorted⟩ := List.head?_eq_some_iff.mp h
  have hperm := List.perm_insertionSort (· ≤ ·) l
  have hpairwise := List.pairwise_insertionSort (· ≤ ·) l
  rw [hsorted] at hperm hpairwise
  refine ⟨hperm.mem_iff.mp (by simp), fun x hx => ?_⟩
  rcases List.mem_cons.mp (hperm.mem_iff.mpr hx) with rfl | hx
  · exact le_rfl
  · exact List.rel_of_pairwise_cons hpairwise hx

/-- Only the empty list has no least element. -/
theorem head?_insertionSort_eq_none {l : List α} :
    (l.insertionSort (· ≤ ·)).head? = none ↔ l = [] := by
  rw [List.head?_eq_none_iff]
  constructor
  · intro h
    simpa [h] using List.perm_insertionSort (· ≤ ·) l
  · rintro rfl
    rfl

variable {β : Type*}

/-- The first element of a list whose key is least. -/
def IsFirstLeast (key : β → α) (l : List β) (m : β) : Prop :=
  ∃ before after, l = before ++ m :: after ∧
    (∀ x ∈ before, key m < key x) ∧ ∀ x ∈ after, key m ≤ key x

/-- Keep the best element so far unless a new one has a smaller key. -/
def keepLess (key : β → α) (best : Option β) (x : β) : Option β :=
  match best with
  | none => some x
  | some current => if key x < key current then some x else best

/-- The first least element is in the list. -/
theorem IsFirstLeast.mem {key : β → α} {l : List β} {m : β} (h : IsFirstLeast key l m) :
    m ∈ l := by
  obtain ⟨before, after, rfl, -, -⟩ := h
  simp

/-- No element of the list has a smaller key than the first least one. -/
theorem IsFirstLeast.le {key : β → α} {l : List β} {m x : β} (h : IsFirstLeast key l m)
    (hx : x ∈ l) : key m ≤ key x := by
  obtain ⟨before, after, rfl, hbefore, hafter⟩ := h
  rcases List.mem_append.mp hx with hx | hx
  · exact (hbefore x hx).le
  · rcases List.mem_cons.mp hx with rfl | hx
    · exact le_rfl
    · exact hafter x hx

/-- One more element replaces the first least one only if its key is smaller. -/
theorem IsFirstLeast.keepLess_concat {key : β → α} {l : List β} {m m' : β} (x : β)
    (h : IsFirstLeast key l m) (h' : keepLess key (some m) x = some m') :
    IsFirstLeast key (l ++ [x]) m' := by
  simp only [keepLess] at h'
  split at h'
  next hlt =>
    cases h'
    exact ⟨l, [], rfl, fun y hy => hlt.trans_le (h.le hy), by simp⟩
  next hle =>
    cases h'
    obtain ⟨before, after, rfl, hbefore, hafter⟩ := h
    refine ⟨before, after ++ [x], by simp, hbefore, fun y hy => ?_⟩
    rcases List.mem_append.mp hy with hy | hy
    · exact hafter y hy
    · rw [List.mem_singleton.mp hy]
      exact not_lt.mp hle

/-- A scan finds the first least element of a list that has one. -/
theorem foldl_keepLess (key : β → α) (l : List β) :
    (l = [] ∧ l.foldl (keepLess key) none = none) ∨
      ∃ m, l.foldl (keepLess key) none = some m ∧ IsFirstLeast key l m := by
  induction l using List.reverseRecOn with
  | nil => exact .inl ⟨rfl, rfl⟩
  | append_singleton l x ih =>
    right
    rw [List.foldl_append, List.foldl_cons, List.foldl_nil]
    obtain ⟨rfl, hnone⟩ | ⟨m, hsome, hm⟩ := ih
    · exact ⟨x, rfl, [], [], rfl, by simp, by simp⟩
    · obtain ⟨m', hm'⟩ : ∃ m', keepLess key (some m) x = some m' := by
        simp only [keepLess]
        split <;> exact ⟨_, rfl⟩
      rw [hsome]
      exact ⟨m', hm', hm.keepLess_concat x hm'⟩

/-- Keys that order a list in the same way have the same first least element. -/
theorem IsFirstLeast.congr {γ : Type*} [LinearOrder γ] {key : β → α} {key' : β → γ} {l : List β}
    {m : β} (h : IsFirstLeast key l m)
    (hkeys : ∀ x ∈ l, ∀ y ∈ l, key x ≤ key y ↔ key' x ≤ key' y) : IsFirstLeast key' l m := by
  have hm := h.mem
  obtain ⟨before, after, rfl, hbefore, hafter⟩ := h
  refine ⟨before, after, rfl, fun x hx => ?_, fun x hx => ?_⟩
  · have hlt := hbefore x hx
    rw [← not_le, hkeys x (by simp [hx]) m hm] at hlt
    exact not_le.mp hlt
  · exact (hkeys m hm x (by simp [hx])).mp (hafter x hx)

/-- The first least element keeps its place under a map. -/
theorem IsFirstLeast.map {γ : Type*} {key : γ → α} {f : β → γ} {l : List β} {m : β}
    (h : IsFirstLeast (fun x => key (f x)) l m) : IsFirstLeast key (l.map f) (f m) := by
  obtain ⟨before, after, rfl, hbefore, hafter⟩ := h
  exact ⟨before.map f, after.map f, by simp, by simpa using hbefore, by simpa using hafter⟩

/-- A stable sort puts the first least element in front. -/
theorem isFirstLeast_of_mergeSort {key : β → α} {l rest : List β} {m : β}
    (h : l.mergeSort (fun x y => decide (key x ≤ key y)) = m :: rest) : IsFirstLeast key l m := by
  have htrans (x y z : β) (hxy : decide (key x ≤ key y) = true)
      (hyz : decide (key y ≤ key z) = true) : decide (key x ≤ key z) = true := by
    simp only [decide_eq_true_eq] at hxy hyz ⊢
    exact hxy.trans hyz
  have htotal (x y : β) : (decide (key x ≤ key y) || decide (key y ≤ key x)) = true := by
    simpa using le_total (key x) (key y)
  induction l generalizing rest with
  | nil => simp at h
  | cons x l ih =>
    obtain ⟨front, back, hsorted, hrest, hfront⟩ := List.mergeSort_cons htrans htotal x l
    cases front with
    | nil =>
      obtain ⟨rfl, rfl⟩ := List.cons.inj (h.symm.trans hsorted)
      refine ⟨[], l, rfl, by simp, fun y hy => ?_⟩
      have hpairwise := List.pairwise_mergeSort htrans htotal (m :: l)
      rw [hsorted] at hpairwise
      have hmem : y ∈ rest := by
        have hmerged : y ∈ l.mergeSort fun x y => decide (key x ≤ key y) :=
          List.mem_mergeSort.mpr hy
        rwa [hrest] at hmerged
      simpa using List.rel_of_pairwise_cons hpairwise hmem
    | cons first front =>
      obtain ⟨rfl, -⟩ := List.cons.inj (h.symm.trans hsorted)
      obtain ⟨before, after, rfl, hbefore, hafter⟩ := ih hrest
      refine ⟨x :: before, after, rfl, fun y hy => ?_, hafter⟩
      rcases List.mem_cons.mp hy with rfl | hy
      · simpa using hfront m List.mem_cons_self
      · exact hbefore y hy

/-- There is at most one first least element. -/
theorem IsFirstLeast.unique {key : β → α} {l : List β} {m m' : β} (h : IsFirstLeast key l m)
    (h' : IsFirstLeast key l m') : m = m' := by
  obtain ⟨before, after, rfl, hbefore, hafter⟩ := h
  obtain ⟨before', after', heq, hbefore', hafter'⟩ := h'
  rcases List.append_eq_append_iff.mp heq with ⟨as, rfl, has⟩ | ⟨bs, rfl, hbs⟩
  · cases as with
    | nil => exact (List.cons.inj has).1
    | cons a as =>
      obtain ⟨rfl, rfl⟩ := List.cons.inj has
      exact absurd (hbefore' m (by simp)) (not_lt.mpr (hafter m' (by simp)))
  · cases bs with
    | nil => exact (List.cons.inj hbs).1.symm
    | cons b bs =>
      obtain ⟨rfl, rfl⟩ := List.cons.inj hbs
      exact absurd (hbefore m' (by simp)) (not_lt.mpr (hafter' m (by simp)))

/-- Each position of an order is visited once, and its element is changed with the number of
the visit. -/
theorem getElem?_foldl_modify {γ : Type*} (change : ℕ → γ → γ) {order : List ℕ}
    (hnodup : order.Nodup) (l : List γ) (start j : ℕ) :
    ((order.zipIdx start).foldl (fun l (i, visit) => l.modify i (change visit)) l)[j]? =
      if j ∈ order then l[j]?.map (change (start + order.idxOf j)) else l[j]? := by
  induction order generalizing l start with
  | nil => simp
  | cons i order ih =>
    obtain ⟨hi, hnodup⟩ := List.nodup_cons.mp hnodup
    rw [List.zipIdx_cons, List.foldl_cons, ih hnodup]
    by_cases hj : i = j
    · subst hj
      simp [hi]
    · have hvisit : start + 1 + order.idxOf j = start + (i :: order).idxOf j := by
        rw [List.idxOf_cons_ne order hj]
        omega
      simp [hj, Ne.symm hj, hvisit]

end Locus.Lib
