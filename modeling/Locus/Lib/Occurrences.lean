import Mathlib.Data.List.Infix

/-!
# Occurrences of a word in a text

Where a word stands in a text, the first place where it does, and the longest end of a
text that begins a word. The lemmas say what becomes of occurrences when the text is
extended on either side.
-/

namespace Locus.Lib

variable {α : Type*}

/-- The word stands in the text at this position. -/
def OccursAt (word text : List α) (position : ℕ) : Prop := word <+: text.drop position

/-- The word stands somewhere in another one other than at its very end. -/
def EarlyInside (inner outer : List α) : Prop :=
  ∃ position, OccursAt inner outer position ∧ position + inner.length < outer.length

/-- The suffix of the text from this position on begins one of the words. -/
def BeginsWord (words : List (List α)) (text : List α) (position : ℕ) : Prop :=
  text.drop position ≠ [] ∧ ∃ word ∈ words, text.drop position <+: word

variable {word inner outer text rest : List α} {words : List (List α)} {i j : ℕ}

/-- An occurrence lies inside the text. -/
theorem OccursAt.add_length_le (hword : word ≠ []) (h : OccursAt word text i) :
    i + word.length ≤ text.length := by
  have hle := List.IsPrefix.length_le h
  have hpos := List.length_pos_iff.mpr hword
  rw [List.length_drop] at hle
  omega

/-- The word stands where the text is cut into three. -/
theorem occursAt_append (before word after : List α) :
    OccursAt word (before ++ (word ++ after)) before.length := by
  simp [OccursAt]

/-- Where a word stands the text can be cut into three. -/
theorem OccursAt.eq_append (h : OccursAt word text i) :
    text = text.take i ++ (word ++ text.drop (i + word.length)) := by
  obtain ⟨after, hafter⟩ := h
  have hdrop : text.drop (i + word.length) = after := by
    rw [← List.drop_drop, ← hafter, List.drop_left]
  rw [hdrop, hafter, List.take_append_drop]

/-- Text added at the end does not touch occurrences that end before it. -/
theorem occursAt_append_left (h : i + word.length ≤ text.length) :
    OccursAt word (text ++ rest) i ↔ OccursAt word text i := by
  unfold OccursAt
  rw [List.drop_append_of_le_length (by omega)]
  constructor
  · intro hocc
    exact List.prefix_of_prefix_length_le hocc (List.prefix_append _ _)
      (by rw [List.length_drop]; omega)
  · intro hocc
    exact hocc.trans (List.prefix_append _ _)

/-- Text added at the end keeps all occurrences. -/
theorem OccursAt.append (h : OccursAt word text i) (more : List α) :
    OccursAt word (text ++ more) i := by
  rw [OccursAt, List.drop_append]
  exact h.trans (List.prefix_append _ _)

/-- Text added in front shifts occurrences. -/
theorem occursAt_append_right :
    OccursAt word (text ++ rest) (text.length + i) ↔ OccursAt word rest i := by
  rw [OccursAt, List.drop_length_add_append, OccursAt]

/-- An occurrence that runs over the end of a text begins with the text's end. -/
theorem OccursAt.drop_prefix (h : OccursAt word (text ++ rest) i) (hi : i ≤ text.length)
    (hover : text.length < i + word.length) : text.drop i <+: word := by
  unfold OccursAt at h
  rw [List.drop_append_of_le_length hi] at h
  exact List.prefix_of_prefix_length_le (List.prefix_append _ _) h (by rw [List.length_drop]; omega)

/-- An occurrence inside the bounds of another one is an occurrence in its word. -/
theorem OccursAt.inside (houter : OccursAt outer text i) (hinner : OccursAt inner text j)
    (hle : i ≤ j) (hend : j + inner.length ≤ i + outer.length) :
    OccursAt inner outer (j - i) := by
  obtain ⟨after, hafter⟩ := houter
  have hdrop : text.drop j = (outer ++ after).drop (j - i) := by
    rw [hafter, List.drop_drop]
    congr 1
    omega
  rw [OccursAt, hdrop] at hinner
  exact (occursAt_append_left (by omega)).mp hinner

variable [DecidableEq α]

instance (word text : List α) (position : ℕ) : Decidable (OccursAt word text position) :=
  inferInstanceAs (Decidable (word <+: text.drop position))

instance (words : List (List α)) (text : List α) (position : ℕ) :
    Decidable (BeginsWord words text position) :=
  inferInstanceAs (Decidable (_ ∧ _))

/-- The first position at which the word stands. -/
def find (word text : List α) : Option ℕ :=
  (List.range (text.length + 1)).find? fun position => decide (OccursAt word text position)

/-- The length of the longest suffix of the text that begins one of the words. -/
def longestBeginning (words : List (List α)) (text : List α) : ℕ :=
  ((List.range (text.length + 1)).filterMap fun position =>
    if BeginsWord words text position then some (text.drop position).length else none).max?.getD 0

/-- The first position has an occurrence and none before it. -/
theorem find_eq_some_iff (hword : word ≠ []) :
    find word text = some i ↔ OccursAt word text i ∧ ∀ j < i, ¬ OccursAt word text j := by
  simp only [find, List.find?_range_eq_some, decide_eq_true_eq, List.mem_range,
    Bool.not_eq_true', decide_eq_false_iff_not]
  constructor
  · rintro ⟨hocc, -, hfirst⟩
    exact ⟨hocc, hfirst⟩
  · rintro ⟨hocc, hfirst⟩
    have := hocc.add_length_le hword
    exact ⟨hocc, by omega, hfirst⟩

/-- There is no first position exactly if there is no occurrence. -/
theorem find_eq_none_iff (hword : word ≠ []) :
    find word text = none ↔ ∀ i, ¬ OccursAt word text i := by
  simp only [find, List.find?_range_eq_none, Bool.not_eq_true', decide_eq_false_iff_not]
  constructor
  · intro h i hocc
    have := hocc.add_length_le hword
    exact h i (by omega) hocc
  · intro h i _
    exact h i

/-- Text added at the end does not change the first position. -/
theorem find_append_of_eq_some (hword : word ≠ []) (h : find word text = some i) :
    find word (text ++ rest) = some i := by
  obtain ⟨hocc, hfirst⟩ := (find_eq_some_iff hword).mp h
  have hlen := hocc.add_length_le hword
  refine (find_eq_some_iff hword).mpr ⟨(occursAt_append_left hlen).mpr hocc, fun j hj hocc' => ?_⟩
  exact hfirst j hj ((occursAt_append_left (by omega)).mp hocc')

/-- Every suffix that begins a word is at most as long as the longest. -/
theorem BeginsWord.le_longestBeginning (h : BeginsWord words text i) :
    text.length - i ≤ longestBeginning words text := by
  have hi : i < text.length := by
    by_contra hi
    exact h.1 (List.drop_eq_nil_of_le (by omega))
  set lengths := (List.range (text.length + 1)).filterMap fun position =>
    if BeginsWord words text position then some (text.drop position).length else none with hlengths
  have hmem : text.length - i ∈ lengths := by
    rw [hlengths, List.mem_filterMap]
    exact ⟨i, List.mem_range.mpr (by omega), by simp [h]⟩
  obtain ⟨longest, hlongest⟩ : ∃ longest, lengths.max? = some longest :=
    Option.ne_none_iff_exists'.mp fun hnone => by
      rw [List.max?_eq_none_iff.mp hnone] at hmem
      simp at hmem
  rw [longestBeginning, ← hlengths, hlongest, Option.getD_some]
  exact (List.max?_eq_some_iff.mp hlongest).2 _ hmem

/-- The longest suffix that begins a word is such a suffix, or empty. -/
theorem longestBeginning_eq (words : List (List α)) (text : List α) :
    longestBeginning words text = 0 ∨
      ∃ i, BeginsWord words text i ∧ longestBeginning words text = text.length - i := by
  unfold longestBeginning
  cases hmax : ((List.range (text.length + 1)).filterMap fun position =>
      if BeginsWord words text position then some (text.drop position).length else none).max? with
  | none => exact .inl rfl
  | some longest =>
    right
    obtain ⟨i, -, hi⟩ := List.mem_filterMap.mp (List.max?_mem hmax)
    split at hi
    next hbegins =>
      cases hi
      exact ⟨i, hbegins, by simp⟩
    next => cases hi

/-- Nothing is longest exactly if no suffix begins a word. -/
theorem longestBeginning_eq_zero_iff :
    longestBeginning words text = 0 ↔ ∀ i, ¬ BeginsWord words text i := by
  constructor
  · intro hzero i hbegins
    have hle := hbegins.le_longestBeginning
    refine hbegins.1 (List.drop_eq_nil_of_le ?_)
    omega
  · intro hnone
    rcases longestBeginning_eq words text with hzero | ⟨i, hbegins, -⟩
    · exact hzero
    · exact absurd hbegins (hnone i)

/-- The longest suffix that begins a word is no longer than the text. -/
theorem longestBeginning_le (words : List (List α)) (text : List α) :
    longestBeginning words text ≤ text.length := by
  rcases longestBeginning_eq words text with h | ⟨i, -, h⟩
  · omega
  · omega

/-- Text added in front in which no word can begin does not change what is longest. -/
theorem longestBeginning_append_of_clear
    (hclear : ∀ i < text.length, ∀ word ∈ words, ¬ (text ++ rest).drop i <+: word) :
    longestBeginning words (text ++ rest) = longestBeginning words rest := by
  apply le_antisymm
  · rcases longestBeginning_eq words (text ++ rest) with h | ⟨i, ⟨hne, word, hword, hprefix⟩, h⟩
    · omega
    · rcases Nat.lt_or_ge i text.length with hlt | hge
      · exact absurd hprefix (hclear i hlt word hword)
      · obtain ⟨k, rfl⟩ := Nat.exists_eq_add_of_le hge
        rw [List.drop_length_add_append] at hne hprefix
        have hbegins : BeginsWord words rest k := ⟨hne, word, hword, hprefix⟩
        have := hbegins.le_longestBeginning
        rw [List.length_append] at h
        omega
  · rcases longestBeginning_eq words rest with h | ⟨i, ⟨hne, word, hword, hprefix⟩, h⟩
    · omega
    · have hbegins : BeginsWord words (text ++ rest) (text.length + i) := by
        rw [BeginsWord, List.drop_length_add_append]
        exact ⟨hne, word, hword, hprefix⟩
      have := hbegins.le_longestBeginning
      rw [List.length_append] at this
      omega

/-- The search from left to right meets the word at a position, if it goes on behind each
occurrence that it has met. -/
inductive SearchMeets (word text : List α) : ℕ → ℕ → Prop
  | here {start relative : ℕ} (found : find word (text.drop start) = some relative) :
      SearchMeets word text start (start + relative)
  | later {start relative position : ℕ} (found : find word (text.drop start) = some relative)
      (rest : SearchMeets word text (start + relative + word.length) position) :
      SearchMeets word text start position

theorem SearchMeets.le (h : SearchMeets word text i j) : i ≤ j := by
  induction h with
  | here => omega
  | later _ _ ih => omega

/-- The search has met the first occurrence, or it goes on behind it. -/
theorem searchMeets_iff {relative : ℕ} (hfound : find word (text.drop i) = some relative) :
    SearchMeets word text i j ↔
      j = i + relative ∨ SearchMeets word text (i + relative + word.length) j := by
  constructor
  · rintro (hhere | ⟨hlater, hrest⟩)
    · rw [hfound] at hhere
      cases hhere
      exact .inl rfl
    · rw [hfound] at hlater
      cases hlater
      exact .inr hrest
  · rintro (rfl | hrest)
    · exact .here hfound
    · exact .later hfound hrest

end Locus.Lib
