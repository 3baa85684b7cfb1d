import Locus.Lib.Occurrences

/-!
# Scanning a text that arrives in pieces

A scan looks for a delimiter in the text received so far. It reports a delimiter that is
not expected here, cuts the text at the expected one, or hands over what can no longer
belong to a delimiter and keeps the rest. The lemmas compare the scan of a text with the
scan of a longer one.
-/

namespace Locus.Lib

variable {α : Type*}

/-- What a scan finds. -/
inductive Scan (α : Type*)
  | unexpected
  | found (before rest : List α)
  | held (emitted kept : List α)
  deriving DecidableEq

/-- The scan of a text with a piece added in front that holds nothing of interest. -/
def Scan.after (front : List α) : Scan α → Scan α
  | unexpected => unexpected
  | found before rest => found (front ++ before) rest
  | held emitted kept => held (front ++ emitted) kept

/-- Look for the delimiter, with the forbidden one not to come first. -/
def scan [DecidableEq α] (delimiter forbidden text : List α) : Scan α :=
  let delimiterPosition := find delimiter text
  let forbiddenPosition := find forbidden text
  if forbiddenPosition.any fun position =>
      delimiterPosition.all fun delimiterPosition => decide (position < delimiterPosition) then
    .unexpected
  else
    match delimiterPosition with
    | some position => .found (text.take position) (text.drop (position + delimiter.length))
    | none =>
      let emitted := text.length - longestBeginning [delimiter, forbidden] text
      .held (text.take emitted) (text.drop emitted)

variable {delimiter forbidden text before rest front emitted kept : List α} {i j : ℕ}

/-- The unexpected delimiter occurs, with no expected one before it or with it. -/
def UnexpectedIn (delimiter forbidden text : List α) : Prop :=
  ∃ j, OccursAt forbidden text j ∧ ∀ i ≤ j, ¬ OccursAt delimiter text i

/-- The text is cut at an expected delimiter and no delimiter starts before it. -/
def FoundIn (delimiter forbidden text before rest : List α) : Prop :=
  text = before ++ (delimiter ++ rest) ∧
    ∀ i < before.length, ¬ OccursAt delimiter text i ∧ ¬ OccursAt forbidden text i

/-- There is no delimiter in the text, and the longest beginning of one is kept. -/
def HeldIn [DecidableEq α] (delimiter forbidden text emitted kept : List α) : Prop :=
  text = emitted ++ kept ∧
    (∀ i, ¬ OccursAt delimiter text i ∧ ¬ OccursAt forbidden text i) ∧
    kept.length = longestBeginning [delimiter, forbidden] text

/-- Where the text is cut there is a delimiter. -/
theorem FoundIn.occursAt (h : FoundIn delimiter forbidden text before rest) :
    OccursAt delimiter text before.length := by
  rw [h.1]
  exact occursAt_append _ _ _

/-- A text with an unexpected delimiter is not cut. -/
theorem UnexpectedIn.not_foundIn (h : UnexpectedIn delimiter forbidden text) :
    ¬ FoundIn delimiter forbidden text before rest := by
  intro hfound
  obtain ⟨j, hocc, hnone⟩ := h
  have hj : j < before.length := by
    by_contra hj
    exact hnone before.length (by omega) hfound.occursAt
  exact (hfound.2 j hj).2 hocc

/-- A text is cut in one way. -/
theorem FoundIn.unique {before' rest' : List α} (h : FoundIn delimiter forbidden text before rest)
    (h' : FoundIn delimiter forbidden text before' rest') : before = before' ∧ rest = rest' := by
  have hlen : before.length = before'.length := by
    rcases lt_trichotomy before.length before'.length with hlt | heq | hlt
    · exact absurd h.occursAt (h'.2 _ hlt).1
    · exact heq
    · exact absurd h'.occursAt (h.2 _ hlt).1
  obtain ⟨rfl, htail⟩ := List.append_inj (h.1.symm.trans h'.1) hlen
  exact ⟨rfl, List.append_cancel_left htail⟩

/-- Text added at the end leaves an unexpected delimiter unexpected, unless it can
complete a delimiter around it. -/
theorem UnexpectedIn.append (hforbidden : forbidden ≠ [])
    (hinside : ¬ EarlyInside forbidden delimiter)
    (h : UnexpectedIn delimiter forbidden text) (more : List α) :
    UnexpectedIn delimiter forbidden (text ++ more) := by
  obtain ⟨j, hocc, hnone⟩ := h
  have hlen := hocc.add_length_le hforbidden
  have hocc' : OccursAt forbidden (text ++ more) j := (occursAt_append_left hlen).mpr hocc
  refine ⟨j, hocc', fun i hi hdelim => ?_⟩
  by_cases hend : i + delimiter.length ≤ text.length
  · exact hnone i hi ((occursAt_append_left hend).mp hdelim)
  · exact hinside ⟨j - i, hdelim.inside hocc' hi (by omega), by omega⟩

/-- Text added at the end leaves the cut where it is, unless it can complete a forbidden
delimiter around the expected one. -/
theorem FoundIn.append (hinside : ¬ EarlyInside delimiter forbidden)
    (h : FoundIn delimiter forbidden text before rest) (more : List α) :
    FoundIn delimiter forbidden (text ++ more) before (rest ++ more) := by
  have hlen : before.length + delimiter.length ≤ text.length := by
    rw [h.1]
    simp
  have hocc : OccursAt delimiter (text ++ more) before.length :=
    (occursAt_append_left hlen).mpr h.occursAt
  refine ⟨by simp [h.1], fun i hi => ⟨fun hdelim => ?_, fun hforb => ?_⟩⟩
  · exact (h.2 i hi).1 ((occursAt_append_left (by omega)).mp hdelim)
  · by_cases hend : i + forbidden.length ≤ text.length
    · exact (h.2 i hi).2 ((occursAt_append_left hend).mp hforb)
    · exact hinside ⟨before.length - i, hforb.inside hocc hi.le (by omega), by omega⟩

/-- A cut of a longer text cuts every beginning that reaches behind the delimiter. -/
theorem FoundIn.of_append {more : List α}
    (h : FoundIn delimiter forbidden (before ++ (delimiter ++ (rest ++ more))) before
      (rest ++ more)) :
    FoundIn delimiter forbidden (before ++ (delimiter ++ rest)) before rest := by
  have heq : before ++ (delimiter ++ (rest ++ more)) = before ++ (delimiter ++ rest) ++ more := by
    simp
  refine ⟨rfl, fun i hi => ?_⟩
  have hnone := h.2 i hi
  rw [heq] at hnone
  exact ⟨fun hocc => hnone.1 (hocc.append more), fun hocc => hnone.2 (hocc.append more)⟩

/-- No delimiter stands in the text. -/
def Clear (delimiter forbidden text : List α) : Prop :=
  ∀ i, ¬ OccursAt delimiter text i ∧ ¬ OccursAt forbidden text i

/-- No delimiter starts in the front, however the text goes on behind what is kept. -/
def Sealed (delimiter forbidden front kept : List α) : Prop :=
  ∀ more, ∀ i < front.length, ¬ OccursAt delimiter (front ++ (kept ++ more)) i ∧
    ¬ OccursAt forbidden (front ++ (kept ++ more)) i

theorem Clear.symm (h : Clear delimiter forbidden text) : Clear forbidden delimiter text :=
  fun i => (h i).symm

theorem Sealed.symm (h : Sealed delimiter forbidden front kept) :
    Sealed forbidden delimiter front kept :=
  fun more i hi => (h more i hi).symm

theorem sealed_nil : Sealed delimiter forbidden [] kept :=
  fun _ _ hi => absurd hi (Nat.not_lt_zero _)

/-- More text may arrive. -/
theorem Sealed.append (h : Sealed delimiter forbidden front kept) (more : List α) :
    Sealed delimiter forbidden front (kept ++ more) := by
  intro rest i hi
  rw [List.append_assoc]
  exact h (more ++ rest) i hi

/-- A text in which no delimiter starts contains none. -/
theorem clear_of_not_starts (hdelimiter : delimiter ≠ []) (hforbidden : forbidden ≠ [])
    (h : ∀ i < text.length, ¬ OccursAt delimiter text i ∧ ¬ OccursAt forbidden text i) :
    Clear delimiter forbidden text := by
  intro i
  rcases Nat.lt_or_ge i text.length with hlt | hge
  · exact h i hlt
  · have hnone {word : List α} (hword : word ≠ []) : ¬ OccursAt word text i := by
      intro hocc
      have hle := hocc.add_length_le hword
      have hpos := List.length_pos_iff.mpr hword
      omega
    exact ⟨hnone hdelimiter, hnone hforbidden⟩

/-- A sealed text that ends contains no delimiter. -/
theorem Sealed.clear (hdelimiter : delimiter ≠ []) (hforbidden : forbidden ≠ [])
    (h : Sealed delimiter forbidden front []) : Clear delimiter forbidden front :=
  clear_of_not_starts hdelimiter hforbidden fun i hi => by simpa using h [] i hi

/-- A sealed text that goes on up to the expected delimiter contains none. -/
theorem Sealed.clear_of_foundIn (hdelimiter : delimiter ≠ []) (hforbidden : forbidden ≠ [])
    (h : Sealed delimiter forbidden front text)
    (hfound : FoundIn delimiter forbidden text before rest) :
    Clear delimiter forbidden (front ++ before) := by
  obtain ⟨rfl, hbefore⟩ := hfound
  refine clear_of_not_starts hdelimiter hforbidden fun i hi => ?_
  rw [List.length_append] at hi
  have hlong {word : List α} (hocc : OccursAt word (front ++ before) i) :
      OccursAt word (front ++ (before ++ (delimiter ++ rest))) i := by
    rw [← List.append_assoc]
    exact hocc.append _
  have hnone : ¬ OccursAt delimiter (front ++ (before ++ (delimiter ++ rest))) i ∧
      ¬ OccursAt forbidden (front ++ (before ++ (delimiter ++ rest))) i := by
    rcases Nat.lt_or_ge i front.length with hlt | hge
    · simpa using h [] i hlt
    · obtain ⟨j, rfl⟩ := Nat.exists_eq_add_of_le hge
      rw [occursAt_append_right, occursAt_append_right]
      exact hbefore j (by omega)
  exact ⟨fun hocc => hnone.1 (hlong hocc), fun hocc => hnone.2 (hlong hocc)⟩

/-- The word comes up inside another one that is not complete yet and that it does not
begin. -/
def Interrupts (inner outer : List α) : Prop :=
  EarlyInside inner outer ∧ ¬ inner <+: outer

/-- What stands before the expected delimiter is sealed by it, unless this delimiter can
interrupt the other one. -/
theorem FoundIn.sealed (hinterrupts : ¬ Interrupts delimiter forbidden)
    (h : FoundIn delimiter forbidden text before rest) :
    Sealed delimiter forbidden before (delimiter ++ rest) := by
  intro more i hi
  have htext : before ++ (delimiter ++ rest ++ more) = text ++ more := by simp [h.1]
  have hlen : before.length + delimiter.length ≤ text.length := by
    rw [h.1]
    simp
  have hdelim : ¬ OccursAt delimiter (text ++ more) i := fun hocc =>
    (h.2 i hi).1 ((occursAt_append_left (by omega)).mp hocc)
  rw [htext]
  refine ⟨hdelim, fun hforb => ?_⟩
  by_cases hend : i + forbidden.length ≤ text.length
  · exact (h.2 i hi).2 ((occursAt_append_left hend).mp hforb)
  · have hocc : OccursAt delimiter (text ++ more) before.length :=
      (occursAt_append_left hlen).mpr h.occursAt
    have hearly : EarlyInside delimiter forbidden :=
      ⟨before.length - i, hforb.inside hocc hi.le (by omega), by omega⟩
    refine hinterrupts ⟨hearly, fun hprefix => hdelim ?_⟩
    exact hprefix.trans hforb

variable [DecidableEq α]

/-- A word that is interrupted goes on behind the first place where it is. -/
theorem Interrupts.exists_first {inner outer : List α} (h : Interrupts inner outer) :
    ∃ front back, outer = front ++ (inner ++ back) ∧ front ≠ [] ∧ back ≠ [] ∧
      ∀ i < front.length, ¬ OccursAt inner outer i := by
  obtain ⟨⟨position, hocc, hend⟩, hprefix⟩ := h
  have hinner : inner ≠ [] := fun hnil => hprefix (hnil ▸ List.nil_prefix)
  cases hfind : find inner outer with
  | none => exact absurd hocc ((find_eq_none_iff hinner).mp hfind position)
  | some first =>
    obtain ⟨hat, hnone⟩ := (find_eq_some_iff hinner).mp hfind
    have hle : first ≤ position := Nat.le_of_not_lt fun hlt => hnone position hlt hocc
    refine ⟨_, _, hat.eq_append, fun hnil => ?_, fun hnil => ?_, fun i hi => ?_⟩
    · rcases List.take_eq_nil_iff.mp hnil with rfl | rfl
      · exact hprefix hat
      · exact absurd hend (Nat.not_lt_zero _)
    · have := List.drop_eq_nil_iff.mp hnil
      omega
    · rw [List.length_take] at hi
      exact hnone i (by omega)

/-- A text without delimiters is not cut. -/
theorem HeldIn.not_foundIn (h : HeldIn delimiter forbidden text emitted kept) :
    ¬ FoundIn delimiter forbidden text before rest :=
  fun hfound => (h.2.1 before.length).1 hfound.occursAt

/-- A text without delimiters has no unexpected one. -/
theorem HeldIn.not_unexpectedIn (h : HeldIn delimiter forbidden text emitted kept) :
    ¬ UnexpectedIn delimiter forbidden text := by
  rintro ⟨j, hocc, -⟩
  exact (h.2.1 j).2 hocc

/-- A text is held back in one way. -/
theorem HeldIn.unique {emitted' kept' : List α}
    (h : HeldIn delimiter forbidden text emitted kept)
    (h' : HeldIn delimiter forbidden text emitted' kept') : emitted = emitted' ∧ kept = kept' := by
  have hlen : kept.length = kept'.length := h.2.2.trans h'.2.2.symm
  exact List.append_inj' (h.1.symm.trans h'.1) hlen

/-- What is handed over can take no part in a delimiter, however the text goes on. -/
theorem HeldIn.clear (h : HeldIn delimiter forbidden text emitted kept) (more : List α)
    (hi : i < emitted.length) {word : List α} (hword : word ∈ [delimiter, forbidden]) :
    ¬ OccursAt word (text ++ more) i ∧ ¬ (text ++ more).drop i <+: word := by
  have hlen : text.length = emitted.length + kept.length := by
    rw [h.1, List.length_append]
  have hsuffix : ¬ text.drop i <+: word := by
    intro hprefix
    have hbegins : BeginsWord [delimiter, forbidden] text i := by
      refine ⟨fun hnil => ?_, word, hword, hprefix⟩
      have := List.drop_eq_nil_iff.mp hnil
      omega
    have := hbegins.le_longestBeginning
    rw [← h.2.2] at this
    omega
  have hnone : ¬ OccursAt word text i := by
    simp only [List.mem_cons, List.not_mem_nil, or_false] at hword
    rcases hword with rfl | rfl
    · exact (h.2.1 i).1
    · exact (h.2.1 i).2
  constructor
  · intro hocc
    by_cases hend : i + word.length ≤ text.length
    · exact hnone ((occursAt_append_left hend).mp hocc)
    · exact hsuffix (hocc.drop_prefix (by omega) (by omega))
  · intro hprefix
    rw [List.drop_append_of_le_length (by omega)] at hprefix
    exact hsuffix ((List.prefix_append _ _).trans hprefix)

/-- What a scan hands over is sealed by what it keeps. -/
theorem Sealed.append_of_heldIn (h : Sealed delimiter forbidden front text)
    (hheld : HeldIn delimiter forbidden text emitted kept) :
    Sealed delimiter forbidden (front ++ emitted) kept := by
  intro more i hi
  rw [List.length_append] at hi
  have htext : front ++ emitted ++ (kept ++ more) = front ++ (text ++ more) := by
    rw [hheld.1]
    simp
  rw [htext]
  rcases Nat.lt_or_ge i front.length with hlt | hge
  · exact h more i hlt
  · obtain ⟨j, rfl⟩ := Nat.exists_eq_add_of_le hge
    rw [occursAt_append_right, occursAt_append_right]
    exact ⟨(hheld.clear more (by omega) (by simp)).1, (hheld.clear more (by omega) (by simp)).1⟩

/-- What a scan hands over at once is sealed by what it keeps. -/
theorem HeldIn.sealed (h : HeldIn delimiter forbidden text emitted kept) :
    Sealed delimiter forbidden emitted kept :=
  sealed_nil.append_of_heldIn h

section

variable (hdelimiter : delimiter ≠ []) (hforbidden : forbidden ≠ [])

include hdelimiter hforbidden

/-- Every scan reports what is there. -/
theorem scan_spec (text : List α) :
    match scan delimiter forbidden text with
    | .unexpected => UnexpectedIn delimiter forbidden text
    | .found before rest => FoundIn delimiter forbidden text before rest
    | .held emitted kept => HeldIn delimiter forbidden text emitted kept := by
  cases hd : find delimiter text with
  | none =>
    have hnone := (find_eq_none_iff hdelimiter).mp hd
    cases hf : find forbidden text with
    | none =>
      have hnone' := (find_eq_none_iff hforbidden).mp hf
      have hle := longestBeginning_le [delimiter, forbidden] text
      simp only [scan, hd, hf, Option.any_none, Bool.false_eq_true, if_false]
      refine ⟨(List.take_append_drop _ _).symm, fun i => ⟨hnone i, hnone' i⟩, ?_⟩
      rw [List.length_drop]
      omega
    | some j =>
      simp only [scan, hd, hf, Option.any_some, Option.all_none, if_true]
      exact ⟨j, ((find_eq_some_iff hforbidden).mp hf).1, fun i _ => hnone i⟩
  | some i =>
    obtain ⟨hocc, hfirst⟩ := (find_eq_some_iff hdelimiter).mp hd
    have hlen := hocc.add_length_le hdelimiter
    have hfound (hclear : ∀ k < i, ¬ OccursAt forbidden text k) :
        FoundIn delimiter forbidden text (text.take i) (text.drop (i + delimiter.length)) := by
      refine ⟨hocc.eq_append, fun k hk => ?_⟩
      rw [List.length_take] at hk
      exact ⟨hfirst k (by omega), hclear k (by omega)⟩
    cases hf : find forbidden text with
    | none =>
      simp only [scan, hd, hf, Option.any_none, Bool.false_eq_true, if_false]
      exact hfound fun k _ => (find_eq_none_iff hforbidden).mp hf k
    | some j =>
      obtain ⟨hocc', hfirst'⟩ := (find_eq_some_iff hforbidden).mp hf
      simp only [scan, hd, hf, Option.any_some, Option.all_some, decide_eq_true_eq]
      by_cases hj : j < i
      · rw [if_pos hj]
        exact ⟨j, hocc', fun k hk => hfirst k (by omega)⟩
      · rw [if_neg hj]
        exact hfound fun k hk => hfirst' k (by omega)

/-- The scan reports an unexpected delimiter exactly if there is one. -/
theorem scan_eq_unexpected_iff :
    scan delimiter forbidden text = .unexpected ↔ UnexpectedIn delimiter forbidden text := by
  have hspec := scan_spec hdelimiter hforbidden text
  constructor
  · intro h
    simpa only [h] using hspec
  · intro h
    split at hspec
    next heq => exact heq
    next => exact absurd hspec h.not_foundIn
    next => exact absurd h hspec.not_unexpectedIn

/-- The scan cuts a text exactly at the first expected delimiter. -/
theorem scan_eq_found_iff :
    scan delimiter forbidden text = .found before rest ↔
      FoundIn delimiter forbidden text before rest := by
  have hspec := scan_spec hdelimiter hforbidden text
  constructor
  · intro h
    simpa only [h] using hspec
  · intro h
    split at hspec
    next => exact absurd h hspec.not_foundIn
    next heq =>
      obtain ⟨rfl, rfl⟩ := hspec.unique h
      exact heq
    next => exact absurd h hspec.not_foundIn

/-- The scan keeps the longest beginning of a delimiter. -/
theorem scan_eq_held_iff :
    scan delimiter forbidden text = .held emitted kept ↔
      HeldIn delimiter forbidden text emitted kept := by
  have hspec := scan_spec hdelimiter hforbidden text
  constructor
  · intro h
    simpa only [h] using hspec
  · intro h
    split at hspec
    next => exact absurd hspec h.not_unexpectedIn
    next => exact absurd hspec h.not_foundIn
    next heq =>
      obtain ⟨rfl, rfl⟩ := hspec.unique h
      exact heq

/-- There is nothing in the empty text. -/
theorem scan_nil : scan delimiter forbidden [] = .held [] [] := by
  have hnone {word : List α} (hword : word ≠ []) (i : ℕ) : ¬ OccursAt word [] i := by
    intro hocc
    have := hocc.add_length_le hword
    have := List.length_pos_iff.mpr hword
    simp only [List.length_nil] at *
    omega
  refine (scan_eq_held_iff hdelimiter hforbidden).mpr
    ⟨rfl, fun i => ⟨hnone hdelimiter i, hnone hforbidden i⟩, ?_⟩
  have := longestBeginning_le [delimiter, forbidden] ([] : List α)
  simp only [List.length_nil] at *
  omega

/-- A delimiter at the front is found there. -/
theorem scan_delimiter_append (rest : List α) :
    scan delimiter forbidden (delimiter ++ rest) = .found [] rest :=
  (scan_eq_found_iff hdelimiter hforbidden).mpr ⟨rfl, fun i hi => absurd hi (Nat.not_lt_zero i)⟩

/-- A forbidden delimiter in the beginning of the other one is unexpected. -/
theorem scan_take_of_inside (hocc : OccursAt forbidden delimiter i)
    (hend : i + forbidden.length < delimiter.length) :
    scan delimiter forbidden (delimiter.take (i + forbidden.length)) = .unexpected := by
  have hlen : (delimiter.take (i + forbidden.length)).length = i + forbidden.length := by
    rw [List.length_take]
    omega
  refine (scan_eq_unexpected_iff hdelimiter hforbidden).mpr ⟨i, ?_, fun j _ hocc' => ?_⟩
  · rw [← List.take_append_drop (i + forbidden.length) delimiter] at hocc
    exact (occursAt_append_left (by omega)).mp hocc
  · have := hocc'.add_length_le hdelimiter
    omega

/-- The scan stops where the other delimiter is interrupted. -/
theorem scan_interrupted {back : List α} (hforb : forbidden = front ++ (delimiter ++ back))
    (hback : back ≠ []) (hfirst : ∀ i < front.length, ¬ OccursAt delimiter forbidden i) :
    scan delimiter forbidden (front ++ delimiter) = .found front [] := by
  refine (scan_eq_found_iff hdelimiter hforbidden).mpr ⟨by simp, fun i hi => ⟨fun hocc => ?_, ?_⟩⟩
  · refine hfirst i hi ?_
    rw [hforb, ← List.append_assoc]
    exact hocc.append back
  · intro hocc
    have hle := hocc.add_length_le hforbidden
    have hlong := congrArg List.length hforb
    have hpos := List.length_pos_iff.mpr hback
    simp only [List.length_append] at hle hlong
    omega

/-- A piece of text in which no delimiter can start passes through a scan. -/
theorem scan_append_of_clear
    (hclear : ∀ i < front.length, ∀ word ∈ [delimiter, forbidden],
      ¬ OccursAt word (front ++ text) i ∧ ¬ (front ++ text).drop i <+: word) :
    scan delimiter forbidden (front ++ text) = (scan delimiter forbidden text).after front := by
  have hdelim {i : ℕ} (hi : i < front.length) : ¬ OccursAt delimiter (front ++ text) i :=
    (hclear i hi delimiter (by simp)).1
  have hforb {i : ℕ} (hi : i < front.length) : ¬ OccursAt forbidden (front ++ text) i :=
    (hclear i hi forbidden (by simp)).1
  have hspec := scan_spec hdelimiter hforbidden text
  split at hspec
  next heq =>
    rw [heq]
    obtain ⟨j, hocc, hnone⟩ := hspec
    refine (scan_eq_unexpected_iff hdelimiter hforbidden).mpr
      ⟨front.length + j, occursAt_append_right.mpr hocc, fun i hi hocc' => ?_⟩
    rcases Nat.lt_or_ge i front.length with hlt | hge
    · exact hdelim hlt hocc'
    · obtain ⟨k, rfl⟩ := Nat.exists_eq_add_of_le hge
      exact hnone k (by omega) (occursAt_append_right.mp hocc')
  next before rest heq =>
    rw [heq]
    refine (scan_eq_found_iff hdelimiter hforbidden).mpr ⟨by simp [hspec.1], fun i hi => ?_⟩
    rw [List.length_append] at hi
    rcases Nat.lt_or_ge i front.length with hlt | hge
    · exact ⟨hdelim hlt, hforb hlt⟩
    · obtain ⟨k, rfl⟩ := Nat.exists_eq_add_of_le hge
      rw [occursAt_append_right, occursAt_append_right]
      exact hspec.2 k (by omega)
  next emitted kept heq =>
    rw [heq]
    refine (scan_eq_held_iff hdelimiter hforbidden).mpr
      ⟨by simp [hspec.1], fun i => ?_, ?_⟩
    · rcases Nat.lt_or_ge i front.length with hlt | hge
      · exact ⟨hdelim hlt, hforb hlt⟩
      · obtain ⟨k, rfl⟩ := Nat.exists_eq_add_of_le hge
        rw [occursAt_append_right, occursAt_append_right]
        exact hspec.2.1 k
    · rw [hspec.2.2]
      exact (longestBeginning_append_of_clear fun i hi word hword =>
        (hclear i hi word hword).2).symm

/-- After a scan has handed over a piece of text, the longer text is scanned by going on
with what was kept. -/
theorem scan_append_of_held (h : scan delimiter forbidden text = .held emitted kept)
    (more : List α) :
    scan delimiter forbidden (text ++ more) =
      (scan delimiter forbidden (kept ++ more)).after emitted := by
  have hheld := (scan_eq_held_iff hdelimiter hforbidden).mp h
  have happend : text ++ more = emitted ++ (kept ++ more) := by
    rw [hheld.1, List.append_assoc]
  rw [happend]
  refine scan_append_of_clear hdelimiter hforbidden fun i hi word hword => ?_
  rw [← happend]
  exact hheld.clear more hi hword

/-- What is kept is kept again as it is. -/
theorem scan_kept (h : scan delimiter forbidden text = .held emitted kept) :
    scan delimiter forbidden kept = .held [] kept := by
  have happend := scan_append_of_held hdelimiter hforbidden h []
  rw [List.append_nil, List.append_nil, h] at happend
  cases hkept : scan delimiter forbidden kept with
  | unexpected =>
    rw [hkept] at happend
    cases happend
  | found =>
    rw [hkept] at happend
    cases happend
  | held emitted' kept' =>
    rw [hkept] at happend
    simp only [Scan.after, Scan.held.injEq, List.self_eq_append_right] at happend
    rw [happend.1, happend.2]

end

end Locus.Lib
