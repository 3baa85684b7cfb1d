import Locus.Lib.BytePositions
import Locus.Lib.Scan
import Locus.Parser.Definition
import Mathlib.Order.Bounds.Basic

/-!
# Slices of the pending text

The parsers cut their pending text at positions in bytes, which is an error of the program
wherever a position does not stand between characters. This is a scan with these positions.
It cuts between characters only and is the scan with positions in characters. What it keeps
is the longest end of the text that is a proper beginning of a delimiter.
-/

namespace Locus.Parser

open Locus.Lib

/-- The length of a text is the number of its bytes. -/
theorem byteLen_eq (text : Text) : byteLen text = (utf8 text).length := by
  induction text with
  | nil => rfl
  | cons c text ih =>
    rw [length_utf8_cons, ← ih]
    rfl

theorem byteLen_pos {text : Text} (h : text ≠ []) : 0 < byteLen text := by
  rw [byteLen_eq]
  exact List.length_pos_iff.mpr (mt utf8_eq_nil_iff.mp h)

/-- The bytes of a text that is cut. -/
theorem byteLen_of_splitAt? {text front back : Text} {position : ℕ}
    (h : splitAt? text position = some (front, back)) : byteLen text = position + byteLen back := by
  obtain ⟨rfl, rfl⟩ := splitAt?_eq_some_iff.mp h
  rw [byteLen_append, byteLen_eq front]

/-- `str::find`, with the position in bytes -/
def findBytes (word text : Text) : Option ℕ := find (utf8 word) (utf8 text)

/-- `longest_delimiter_prefix_suffix`, unless a slice is not cut between characters -/
def longestDelimiterPrefixSuffix (value : Text) (delimiters : List Text) : Option ℕ :=
  ((charIndices value ++ [byteLen value]).mapM fun index =>
    (splitAt? value index).map fun parts =>
      let suffix := parts.2
      if suffix ≠ [] ∧ ∃ delimiter ∈ delimiters, suffix <+: delimiter then some (byteLen suffix)
      else none).map fun lengths => (lengths.filterMap id).max?.getD 0

/-- What both loops do with the pending text: look for the delimiter, with the forbidden one
not to come first. There is nothing if a slice is not cut between characters. -/
def scanSliced (delimiter forbidden pending : Text) : Option (Scan Char) :=
  let delimiterPosition := findBytes delimiter pending
  let forbiddenPosition := findBytes forbidden pending
  if forbiddenPosition.any fun position =>
      delimiterPosition.all fun delimiterPosition => decide (position < delimiterPosition) then
    some .unexpected
  else
    match delimiterPosition with
    | some position => do
      let cut ← splitAt? pending position
      let drained ← splitAt? pending (position + byteLen delimiter)
      return .found cut.1 drained.2
    | none => do
      let holdback ← longestDelimiterPrefixSuffix pending [delimiter, forbidden]
      let emitBytes := byteLen pending - holdback
      if emitBytes > 0 then
        let cut ← splitAt? pending emitBytes
        return .held cut.1 cut.2
      else return .held [] pending

variable {delimiter forbidden pending word value : Text} {delimiters : List Text}

/-- The position in bytes of a position in characters. -/
def bytesBefore (text : Text) (index : ℕ) : ℕ := byteLen (text.take index)

theorem bytesBefore_eq (text : Text) :
    bytesBefore text = fun index => (utf8 (text.take index)).length :=
  funext fun _ => byteLen_eq _

theorem splitAt?_bytesBefore (text : Text) (index : ℕ) :
    splitAt? text (bytesBefore text index) = some (text.take index, text.drop index) := by
  rw [bytesBefore_eq]
  exact splitAt?_take text index

/-- A position behind another one. -/
theorem bytesBefore_add (text : Text) (i j : ℕ) :
    bytesBefore text (i + j) = bytesBefore text i + bytesBefore (text.drop i) j := by
  simp only [bytesBefore, List.take_add, byteLen_append]

/-- The position behind a word. -/
theorem bytesBefore_length (h : word <+: value) : bytesBefore value word.length = byteLen word := by
  rw [bytesBefore, ← List.prefix_iff_eq_take.mp h]

theorem findBytes_eq (hword : word ≠ []) (text : Text) :
    findBytes word text = (find word text).map (bytesBefore text) := by
  rw [findBytes, find_utf8 hword, bytesBefore_eq]

theorem findBytes_eq_none_iff (hword : word ≠ []) :
    findBytes word value = none ↔ ∀ i, ¬ OccursAt word value i := by
  rw [findBytes_eq hword, Option.map_eq_none_iff, find_eq_none_iff hword]

/-- The length of a suffix that begins a delimiter. -/
def suffixLength (delimiters : List Text) (value : Text) (index : ℕ) : Option ℕ :=
  if BeginsWord delimiters value index then some (byteLen (value.drop index)) else none

/-- All slices are cut between characters. -/
theorem longestDelimiterPrefixSuffix_eq_max (value : Text) (delimiters : List Text) :
    longestDelimiterPrefixSuffix value delimiters =
      some (((List.range (value.length + 1)).filterMap
        (suffixLength delimiters value)).max?.getD 0) := by
  have hindices : charIndices value ++ [byteLen value] =
      (List.range (value.length + 1)).map (bytesBefore value) := by
    rw [List.range_succ, List.map_append, List.map_singleton, bytesBefore, List.take_length,
      charIndices, bytesBefore_eq]
  have hslices : (charIndices value ++ [byteLen value]).mapM (fun index =>
      (splitAt? value index).map fun parts =>
        if parts.2 ≠ [] ∧ ∃ delimiter ∈ delimiters, parts.2 <+: delimiter then
          some (byteLen parts.2)
        else none) =
      some ((List.range (value.length + 1)).map (suffixLength delimiters value)) := by
    rw [hindices, List.mapM_map]
    simp only [Function.comp_def, splitAt?_bytesBefore, Option.map_some]
    exact List.mapM_pure
  rw [longestDelimiterPrefixSuffix, hslices, Option.map_some, List.filterMap_map]
  rfl

/-- Longer suffixes have more bytes. -/
theorem byteLen_drop_le (value : Text) {i j : ℕ} (h : i ≤ j) :
    byteLen (value.drop j) ≤ byteLen (value.drop i) := by
  obtain ⟨k, rfl⟩ := Nat.exists_eq_add_of_le h
  rw [← List.drop_drop]
  conv_rhs => rw [← List.take_append_drop k (value.drop i), byteLen_append]
  exact Nat.le_add_left _ _

/-- What is kept of a text. -/
def keptOf (delimiters : List Text) (value : Text) : Text :=
  value.drop (value.length - longestBeginning delimiters value)

/-- The number of bytes that are held back. -/
theorem longestDelimiterPrefixSuffix_eq (value : Text) (delimiters : List Text) :
    longestDelimiterPrefixSuffix value delimiters = some (byteLen (keptOf delimiters value)) := by
  rw [longestDelimiterPrefixSuffix_eq_max, Option.some_inj]
  set lengths := (List.range (value.length + 1)).filterMap (suffixLength delimiters value)
    with hlengths
  have hle : ∀ length ∈ lengths, length ≤ byteLen (keptOf delimiters value) := by
    intro length hlength
    obtain ⟨i, -, hi⟩ := List.mem_filterMap.mp hlength
    unfold suffixLength at hi
    split at hi
    next hbegins =>
      cases hi
      have := hbegins.le_longestBeginning
      exact byteLen_drop_le value (by omega)
    next => cases hi
  rcases longestBeginning_eq delimiters value with hzero | ⟨i, hbegins, hlongest⟩
  · have hnil : lengths = [] := by
      refine List.eq_nil_iff_forall_not_mem.mpr fun length hlength => ?_
      obtain ⟨i, -, hi⟩ := List.mem_filterMap.mp hlength
      rw [suffixLength, if_neg (longestBeginning_eq_zero_iff.mp hzero i)] at hi
      cases hi
    rw [hnil, keptOf, hzero, Nat.sub_zero, List.drop_length]
    rfl
  · have hi : i < value.length := by
      by_contra hi
      exact hbegins.1 (List.drop_eq_nil_of_le (by omega))
    have hkept : keptOf delimiters value = value.drop i := by
      rw [keptOf, hlongest, Nat.sub_sub_self hi.le]
    have hmem : byteLen (keptOf delimiters value) ∈ lengths := by
      rw [hlengths, List.mem_filterMap]
      exact ⟨i, List.mem_range.mpr (by omega), by rw [suffixLength, if_pos hbegins, hkept]⟩
    rw [List.max?_eq_some_iff.mpr ⟨hmem, hle⟩, Option.getD_some]

section Scanning

variable (hdelimiter : delimiter ≠ []) (hforbidden : forbidden ≠ [])

include hdelimiter hforbidden

/-- Which delimiter comes first does not depend on how positions are counted. -/
theorem forbidden_first_iff (pending : Text) :
    ((findBytes forbidden pending).any fun position =>
      (findBytes delimiter pending).all fun delimiterPosition =>
        decide (position < delimiterPosition)) =
    ((find forbidden pending).any fun position =>
      (find delimiter pending).all fun delimiterPosition =>
        decide (position < delimiterPosition)) := by
  rw [findBytes_eq hdelimiter, findBytes_eq hforbidden]
  cases hf : find forbidden pending with
  | none => rfl
  | some j =>
    cases hd : find delimiter pending with
    | none => rfl
    | some i =>
      have hj := ((find_eq_some_iff hforbidden).mp hf).1.add_length_le hforbidden
      have hi := ((find_eq_some_iff hdelimiter).mp hd).1.add_length_le hdelimiter
      have hlt : bytesBefore pending j < bytesBefore pending i ↔ j < i := by
        rw [bytesBefore_eq]
        exact length_utf8_take_lt_iff (by omega) (by omega)
      simp [hlt]

/-- The scan cuts between characters only. -/
theorem scanSliced_eq (pending : Text) :
    scanSliced delimiter forbidden pending = some (scan delimiter forbidden pending) := by
  simp only [scanSliced, scan, forbidden_first_iff hdelimiter hforbidden]
  split
  next hfirst => rfl
  next hfirst =>
    rw [findBytes_eq hdelimiter]
    cases hd : find delimiter pending with
    | none =>
      set kept := keptOf [delimiter, forbidden] pending with hkept
      set emitted := pending.take (pending.length - longestBeginning [delimiter, forbidden] pending)
        with hemitted
      have hpending : emitted ++ kept = pending := List.take_append_drop _ _
      have hemit : byteLen pending - byteLen kept = (utf8 emitted).length := by
        rw [← hpending, byteLen_append, Nat.add_sub_cancel, byteLen_eq]
      simp only [Option.map_none, longestDelimiterPrefixSuffix_eq, Option.bind_eq_bind,
        Option.bind_some, ← hkept, hemit]
      change _ = some (Scan.held emitted kept)
      split
      next =>
        have hcut := splitAt?_append emitted kept
        rw [hpending] at hcut
        rw [hcut]
        rfl
      next hzero =>
        have hnil : emitted = [] := utf8_eq_nil_iff.mp (List.length_eq_zero_iff.mp (by omega))
        rw [hnil, List.nil_append] at hpending
        rw [hnil, hpending]
        rfl
    | some i =>
      have hocc := ((find_eq_some_iff hdelimiter).mp hd).1
      have hend : bytesBefore pending i + byteLen delimiter =
          bytesBefore pending (i + delimiter.length) := by
        rw [bytesBefore_add, bytesBefore_length hocc]
      simp only [Option.map_some, hend, splitAt?_bytesBefore, Option.bind_eq_bind,
        Option.bind_some]
      rfl

end Scanning

/-- How many bytes at the end of a buffer are a proper beginning of a delimiter. -/
def heldLengths (delimiters : List Text) (buffer : Text) : Set ℕ :=
  {length | ∃ suffix : List UInt8, suffix <:+ utf8 buffer ∧ suffix.length = length ∧
    ∃ delimiter ∈ delimiters, suffix <+: utf8 delimiter ∧ suffix ≠ utf8 delimiter}

/-- A suffix of a text whose bytes begin a word is a suffix of characters. -/
theorem exists_drop_of_suffix {suffix : List UInt8} (hne : suffix ≠ [])
    (hsuffix : suffix <:+ utf8 value) (hword : suffix <+: utf8 word) :
    ∃ i ≤ value.length, suffix = utf8 (value.drop i) ∧ value.drop i <+: word := by
  have hdrop : suffix = (utf8 value).drop ((utf8 value).length - suffix.length) :=
    List.suffix_iff_eq_drop.mp hsuffix
  have hself : suffix <+: (utf8 value).drop ((utf8 value).length - suffix.length) := by
    rw [← hdrop]
  obtain ⟨i, hi, hlen⟩ := exists_take_of_prefix_drop hne hword hself
  rw [← hlen, drop_utf8_take] at hdrop
  rw [hdrop] at hword
  exact ⟨i, hi, hdrop, utf8_prefix_iff.mp hword⟩

/-- What is kept of a buffer without delimiters is a proper beginning of one. -/
theorem exists_kept_prefix (hdelimiter : delimiter ≠ []) {buffer : Text}
    (hclear : Clear delimiter forbidden buffer) :
    ∃ word ∈ [delimiter, forbidden], keptOf [delimiter, forbidden] buffer <+: word ∧
      keptOf [delimiter, forbidden] buffer ≠ word := by
  rcases longestBeginning_eq [delimiter, forbidden] buffer with hzero | ⟨i, hbegins, hlongest⟩
  · have hnil : keptOf [delimiter, forbidden] buffer = [] := by
      rw [keptOf, hzero, Nat.sub_zero, List.drop_length]
    rw [hnil]
    exact ⟨delimiter, by simp, List.nil_prefix, hdelimiter.symm⟩
  · obtain ⟨hne, word, hword, hprefix⟩ := hbegins
    have hi : i < buffer.length := by
      by_contra hi
      exact hne (List.drop_eq_nil_of_le (by omega))
    have hkept : keptOf [delimiter, forbidden] buffer = buffer.drop i := by
      rw [keptOf, hlongest, Nat.sub_sub_self hi.le]
    rw [hkept]
    refine ⟨word, hword, hprefix, fun heq => ?_⟩
    have hocc : OccursAt word buffer i := heq ▸ List.prefix_refl _
    simp only [List.mem_cons, List.not_mem_nil, or_false] at hword
    rcases hword with rfl | rfl
    · exact (hclear i).1 hocc
    · exact (hclear i).2 hocc

/-- In a buffer without delimiters the longest suffix that is a proper beginning of one is held
back. -/
theorem isGreatest_longestDelimiterPrefixSuffix (hdelimiter : delimiter ≠ []) {buffer : Text}
    (hclear : Clear delimiter forbidden buffer) :
    ∃ length, longestDelimiterPrefixSuffix buffer [delimiter, forbidden] = some length ∧
      IsGreatest (heldLengths [delimiter, forbidden] buffer) length := by
  refine ⟨_, longestDelimiterPrefixSuffix_eq buffer _, ?_, ?_⟩
  · rw [byteLen_eq]
    obtain ⟨word, hword, hprefix, hproper⟩ := exists_kept_prefix hdelimiter hclear
    refine ⟨utf8 (keptOf [delimiter, forbidden] buffer), ?_, rfl, word, hword,
      utf8_prefix_iff.mpr hprefix, utf8_injective.ne hproper⟩
    rw [keptOf, ← drop_utf8_take]
    exact List.drop_suffix _ _
  · rintro _ ⟨suffix, hsuffix, rfl, word, hword, hprefix, -⟩
    by_cases hne : suffix = []
    · rw [hne]
      exact Nat.zero_le _
    · obtain ⟨i, hi, rfl, hbegins⟩ := exists_drop_of_suffix hne hsuffix hprefix
      have hbegins : BeginsWord [delimiter, forbidden] buffer i :=
        ⟨mt utf8_eq_nil_iff.mpr hne, word, hword, hbegins⟩
      have hle := hbegins.le_longestBeginning
      rw [← byteLen_eq]
      exact byteLen_drop_le buffer (by omega)

/-- Where a loop finds no delimiter, it holds back the longest suffix that is a proper beginning
of one. -/
def HoldsBack (delimiter forbidden buffer : Text) : Prop :=
  findBytes delimiter buffer = none → findBytes forbidden buffer = none →
    ∃ length, longestDelimiterPrefixSuffix buffer [delimiter, forbidden] = some length ∧
      IsGreatest (heldLengths [delimiter, forbidden] buffer) length

/-- No delimiter stands in the buffer, which is shorter than the longer one. -/
structure Short (start stop buffer : Text) : Prop where
  clear : Clear (utf8 start) (utf8 stop) (utf8 buffer)
  length_lt : byteLen buffer < max (byteLen start) (byteLen stop)

theorem Short.symm {start stop buffer : Text} (h : Short start stop buffer) :
    Short stop start buffer :=
  ⟨h.clear.symm, by rw [max_comm]; exact h.length_lt⟩

section Bounds

variable {buffer : Text} (hdelimiter : delimiter ≠ []) (hforbidden : forbidden ≠ [])

include hdelimiter hforbidden

theorem holdsBack (buffer : Text) : HoldsBack delimiter forbidden buffer := by
  intro hd hf
  rw [findBytes_eq_none_iff hdelimiter] at hd
  rw [findBytes_eq_none_iff hforbidden] at hf
  exact isGreatest_longestDelimiterPrefixSuffix hdelimiter fun i => ⟨hd i, hf i⟩

/-- What is kept of a buffer is short. -/
theorem short_of_scan (h : scan delimiter forbidden buffer = .held [] buffer) :
    Short delimiter forbidden buffer := by
  obtain ⟨-, hclear, hlength⟩ := (scan_eq_held_iff hdelimiter hforbidden).mp h
  refine ⟨fun i => ⟨?_, ?_⟩, ?_⟩
  · exact not_occursAt_utf8 hdelimiter (fun j => (hclear j).1) i
  · exact not_occursAt_utf8 hforbidden (fun j => (hclear j).2) i
  · obtain ⟨word, hword, ⟨rest, hrest⟩, hproper⟩ := exists_kept_prefix hdelimiter hclear
    rw [keptOf, ← hlength, Nat.sub_self, List.drop_zero] at hrest hproper
    have hne : rest ≠ [] := by
      rintro rfl
      exact hproper (by rw [← hrest, List.append_nil])
    have hlt : byteLen buffer < byteLen word := by
      rw [← hrest, byteLen_append]
      exact Nat.lt_add_of_pos_right (byteLen_pos hne)
    simp only [List.mem_cons, List.not_mem_nil, or_false] at hword
    rcases hword with rfl | rfl
    · exact lt_max_of_lt_left hlt
    · exact lt_max_of_lt_right hlt

end Bounds

end Locus.Parser
