import Locus.Engine.Prometheus
import Locus.Traffic.Exposition

/-!
# An exposition reads back

What the admission controller writes, the reader of remote expositions reads back: the same
metrics with the same labels in the same order, whatever the values of the labels hold. The two
scanners agree because an escaped value has no bare quote, and a line has no blank outside of
quotes but the one before its value.
-/

namespace Locus.Engine

open Std (ExtTreeMap)
open Locus.Lib Locus.Store Locus.Traffic

section Bytes

variable {c : Char} {key : String} {value rest : List Char}

/-- The byte of a character below 128 stands for the character. -/
theorem charOfByte_ofNat (hc : c.toNat < 128) : charOfByte (UInt8.ofNat c.toNat) = c := by
  have hmod : c.toNat % 256 = c.toNat := Nat.mod_eq_of_lt (by omega)
  rw [charOfByte, UInt8.toNat_ofNat', hmod, Char.ofNat_toNat]

theorem ofNat_eq_iff (hc : c.toNat < 128) {d : Char} (hd : d.toNat < 128) :
    UInt8.ofNat c.toNat = UInt8.ofNat d.toNat ↔ c = d := by
  constructor
  · intro h
    rw [← charOfByte_ofNat hc, h, charOfByte_ofNat hd]
  · rintro rfl
    rfl

/-- Reading one more character of a value. -/
theorem readValue_escapeChar (hc : c.toNat < 128) (read : List Char) (bytes : List UInt8) :
    readValue key read (utf8 (escapeChar c) ++ bytes) = readValue key (read ++ [c]) bytes := by
  unfold escapeChar
  split_ifs with hslash hnewline hquote
  · subst hslash
    rfl
  · subst hnewline
    rfl
  · subst hquote
    rfl
  · have hbyte := charOfByte_ofNat hc
    have hne34 : UInt8.ofNat c.toNat ≠ 34 := fun h => hquote ((ofNat_eq_iff hc (by decide)).mp h)
    have hne92 : UInt8.ofNat c.toNat ≠ 92 := fun h => hslash ((ofNat_eq_iff hc (by decide)).mp h)
    have hlt : UInt8.ofNat c.toNat < 128 := by
      rw [UInt8.lt_iff_toNat_lt, UInt8.toNat_ofNat', Nat.mod_eq_of_lt (by omega)]
      exact hc
    rw [utf8_cons_of_ascii hc, utf8_nil, List.singleton_append, readValue.eq_def]
    simp only [hne34, hne92, hlt, if_false, if_true, hbyte]

/-- An escaped value reads back up to its closing quote. -/
theorem readValue_escapeLabel (hvalue : ∀ c ∈ value, c.toNat < 128) (read : List Char)
    (rest : List Char) :
    readValue key read (utf8 (escapeLabel value ++ '"' :: rest)) =
      .ok (read ++ value, utf8 rest) := by
  induction value generalizing read with
  | nil =>
    have hquote : UInt8.ofNat '"'.toNat = 34 := rfl
    rw [escapeLabel_nil, List.nil_append, utf8_cons_of_ascii (by decide), List.append_nil,
      readValue.eq_def]
    simp only [hquote, if_true]
  | cons c value ih =>
    obtain ⟨hc, hrest⟩ := List.forall_mem_cons.mp hvalue
    rw [escapeLabel_cons, List.append_assoc, utf8_append, readValue_escapeChar hc, ih hrest,
      List.append_assoc, List.singleton_append]

end Bytes

section Names

variable {c : Char} {text : List Char}

/-- The characters of names are ASCII, and neither blanks nor separators. -/
structure IsPlain (c : Char) : Prop where
  ascii : c.toNat < 128
  not_blank : isWhitespace c = false
  not_ascii_blank : isAsciiWhitespace c.toNat = false
  ne_quote : c ≠ '"'
  ne_open : c ≠ '{'
  ne_close : c ≠ '}'
  ne_hash : c ≠ '#'
  ne_newline : c ≠ '\n'

theorem isAlphanum_eq (c : Char) : c.isAlphanum =
    (decide (c.val ≥ 'A'.val ∧ c.val ≤ 'Z'.val) ||
      (decide (c.val ≥ 'a'.val) && decide (c.val ≤ 'z'.val)) ||
      (decide (c.val ≥ '0'.val) && decide (c.val ≤ '9'.val))) := rfl

theorem IsPlain.of_isNameChar (h : isNameChar c = true) : IsPlain c := by
  have hrange : (65 ≤ c.toNat ∧ c.toNat ≤ 90) ∨ (97 ≤ c.toNat ∧ c.toNat ≤ 122) ∨
      (48 ≤ c.toNat ∧ c.toNat ≤ 57) ∨ c.toNat = 95 ∨ c.toNat = 58 := by
    simp only [isNameChar, isAlphanum_eq, Bool.or_eq_true, Bool.and_eq_true, decide_eq_true_eq,
      beq_iff_eq, UInt32.le_iff_toNat_le, ge_iff_le, Char.toNat_val, Char.reduceToNat] at h
    rcases h with (halphanum | rfl) | rfl
    · omega
    · decide
    · decide
  have hne : ∀ d : Char, c.toNat ≠ d.toNat → c ≠ d := fun d hd heq => hd (congrArg Char.toNat heq)
  constructor
  case ascii => omega
  case not_blank =>
    simp only [isWhitespace, List.mem_cons, List.not_mem_nil, or_false, Bool.or_eq_false_iff,
      Bool.and_eq_false_iff, decide_eq_false_iff_not]
    omega
  case not_ascii_blank =>
    simp only [isAsciiWhitespace, List.mem_cons, List.not_mem_nil, or_false,
      decide_eq_false_iff_not]
    omega
  all_goals
    apply hne
    simp only [Char.reduceToNat]
    omega

theorem IsPlain.of_validateMetricName {name : List Char} (h : validateMetricName name = .ok ()) :
    name ≠ [] ∧ ∀ c ∈ name, IsPlain c := by
  cases name with
  | nil => cases h
  | cons first characters =>
    unfold validateMetricName at h
    dsimp only at h
    split_ifs at h with hbad
    rw [Bool.or_eq_true, not_or, Bool.not_eq_true', Bool.not_eq_false, Bool.not_eq_true,
      List.any_eq_false] at hbad
    obtain ⟨hfirst, hrest⟩ := hbad
    refine ⟨List.cons_ne_nil _ _, List.forall_mem_cons.mpr ⟨?_, fun c hc => ?_⟩⟩
    · apply IsPlain.of_isNameChar
      simp only [isNameStart, isNameChar, Char.isAlphanum, Bool.or_eq_true] at hfirst ⊢
      tauto
    · have hchar := hrest c hc
      rw [Bool.not_eq_true', Bool.not_eq_false] at hchar
      exact IsPlain.of_isNameChar hchar

end Names

section Scan

variable {metric remainder text rest : List Char} {braces : UInt32}

/-- The scanner goes through a text without separators. -/
theorem scanMetric_plain (htext : ∀ c ∈ text, IsPlain c)
    (h : scanMetric false false braces rest = some (metric, remainder)) :
    scanMetric false false braces (text ++ rest) = some (text ++ metric, remainder) := by
  induction text with
  | nil => exact h
  | cons c text ih =>
    obtain ⟨hc, htext⟩ := List.forall_mem_cons.mp htext
    rw [List.cons_append, scanMetric]
    simp [hc.ne_quote, hc.ne_open, hc.ne_close, hc.not_ascii_blank, ih htext]

/-- Inside of quotes the scanner passes what an escaped character became. -/
theorem scanMetric_escapeChar {c : Char}
    (h : scanMetric true false braces rest = some (metric, remainder)) :
    scanMetric true false braces (escapeChar c ++ rest) =
      some (escapeChar c ++ metric, remainder) := by
  unfold escapeChar
  split_ifs with hslash hnewline hquote
  · simp [scanMetric, h]
  · simp [scanMetric, h]
  · simp [scanMetric, h]
  · simp [scanMetric, hslash, hquote, h]

/-- The scanner goes through an escaped value and its closing quote. -/
theorem scanMetric_escapeLabel {value : List Char}
    (h : scanMetric false false braces rest = some (metric, remainder)) :
    scanMetric true false braces (escapeLabel value ++ '"' :: rest) =
      some (escapeLabel value ++ '"' :: metric, remainder) := by
  induction value with
  | nil => simp [scanMetric, h]
  | cons c value ih =>
    rw [escapeLabel_cons, List.append_assoc, List.append_assoc]
    exact scanMetric_escapeChar ih

end Scan

section Labels

/-- A label that can be written: its key is a name without colons and its value is ASCII. -/
structure IsLabel (label : String × String) : Prop where
  key_ne_nil : label.1.toList ≠ []
  key_chars : ∀ c ∈ label.1.toList, (c.isAlphanum || c == '_') = true
  value_ascii : ∀ c ∈ label.2.toList, c.toNat < 128

/-- Labels can be checked. -/
theorem IsLabel.of_all {label : String × String} (hkey : label.1.toList ≠ [])
    (hchars : label.1.toList.all (fun c => c.isAlphanum || c == '_') = true)
    (hvalue : label.2.toList.all (fun c => decide (c.toNat < 128)) = true) : IsLabel label :=
  ⟨hkey, List.all_eq_true.mp hchars, fun c hc => of_decide_eq_true (List.all_eq_true.mp hvalue c hc)⟩

/-- The labels after the first one, each with its comma. -/
def moreLabels (labels : List (String × String)) : List Char :=
  labels.flatMap fun label => ',' :: labelText label

variable {label : String × String} {labels : List (String × String)}
  {metric remainder rest : List Char} {braces : UInt32}

theorem intercalate_labels (label : String × String) (labels : List (String × String)) :
    [','].intercalate ((label :: labels).map labelText) = labelText label ++ moreLabels labels := by
  induction labels generalizing label with
  | nil => simp [moreLabels]
  | cons next labels ih =>
    rw [List.map_cons, List.map_cons, List.intercalate_cons_cons, ← List.map_cons, ih, moreLabels,
      moreLabels, List.flatMap_cons]
    simp only [List.append_assoc, List.cons_append, List.nil_append]

theorem utf8_moreLabels_cons (label : String × String) (labels : List (String × String)) :
    utf8 (moreLabels (label :: labels)) = 44 :: utf8 (labelText label ++ moreLabels labels) := by
  rw [moreLabels, List.flatMap_cons, List.cons_append, utf8_cons_of_ascii (by decide)]
  rfl

theorem IsLabel.plain (h : IsLabel label) : ∀ c ∈ label.1.toList, IsPlain c := by
  intro c hc
  apply IsPlain.of_isNameChar
  rw [isNameChar, h.key_chars c hc, Bool.true_or]

/-- The scanner goes through a label. -/
theorem scanMetric_labelText (hlabel : IsLabel label)
    (h : scanMetric false false braces rest = some (metric, remainder)) :
    scanMetric false false braces (labelText label ++ rest) =
      some (labelText label ++ metric, remainder) := by
  have hvalue : scanMetric true false braces (escapeLabel label.2.toList ++ '"' :: rest) =
      some (escapeLabel label.2.toList ++ '"' :: metric, remainder) := scanMetric_escapeLabel h
  have hequals : scanMetric false false braces
      ('=' :: '"' :: (escapeLabel label.2.toList ++ '"' :: rest)) =
      some ('=' :: '"' :: (escapeLabel label.2.toList ++ '"' :: metric), remainder) := by
    simp [scanMetric, isAsciiWhitespace, hvalue]
  simpa only [labelText, List.append_assoc, List.cons_append, List.nil_append] using
    scanMetric_plain hlabel.plain hequals

theorem scanMetric_moreLabels (hlabels : ∀ label ∈ labels, IsLabel label)
    (h : scanMetric false false braces rest = some (metric, remainder)) :
    scanMetric false false braces (moreLabels labels ++ rest) =
      some (moreLabels labels ++ metric, remainder) := by
  induction labels with
  | nil => exact h
  | cons label labels ih =>
    obtain ⟨hlabel, hlabels⟩ := List.forall_mem_cons.mp hlabels
    have hscan := scanMetric_labelText hlabel (ih hlabels)
    simp only [moreLabels, List.flatMap_cons, List.cons_append, List.append_assoc] at hscan ⊢
    simp [scanMetric, isAsciiWhitespace, hscan]

theorem scanMetric_labels (hlabels : ∀ label ∈ labels, IsLabel label)
    (h : scanMetric false false braces rest = some (metric, remainder)) :
    scanMetric false false braces ([','].intercalate (labels.map labelText) ++ rest) =
      some ([','].intercalate (labels.map labelText) ++ metric, remainder) := by
  cases labels with
  | nil => exact h
  | cons label labels =>
    obtain ⟨hlabel, hlabels⟩ := List.forall_mem_cons.mp hlabels
    rw [intercalate_labels, List.append_assoc, List.append_assoc]
    exact scanMetric_labelText hlabel (scanMetric_moreLabels hlabels h)

/-- The bytes of a key are those that a label name may hold. -/
theorem IsLabel.isLabelByte (h : IsLabel label) :
    ∀ byte ∈ utf8 label.1.toList, Engine.isLabelByte byte = true := by
  have hascii : ∀ c ∈ label.1.toList, c.toNat < 128 := fun c hc => (h.plain c hc).ascii
  intro byte hbyte
  rw [utf8_of_ascii hascii] at hbyte
  obtain ⟨c, hc, rfl⟩ := List.mem_map.mp hbyte
  simp only [Engine.isLabelByte, charOfByte_ofNat (hascii c hc), h.key_chars c hc]

theorem IsLabel.key_eq (h : IsLabel label) :
    String.ofList ((utf8 label.1.toList).map charOfByte) = label.1 := by
  have hascii : ∀ c ∈ label.1.toList, c.toNat < 128 := fun c hc => (h.plain c hc).ascii
  have hkey : (utf8 label.1.toList).map charOfByte = label.1.toList := by
    rw [utf8_of_ascii hascii, List.map_map]
    exact (List.map_congr_left fun c hc => charOfByte_ofNat (hascii c hc)).trans (List.map_id _)
  rw [hkey, String.ofList_toList]

/-- A byte of a label name is neither a blank nor a comma. -/
theorem not_separator_of_isLabelByte {byte : UInt8} (h : isLabelByte byte = true) :
    (isBlankByte byte || byte == 44) = false := by
  by_contra hseparator
  have hcases : byte = 9 ∨ byte = 10 ∨ byte = 12 ∨ byte = 13 ∨ byte = 32 ∨ byte = 44 := by
    simp only [isBlankByte, isAsciiWhitespace, List.mem_cons, List.not_mem_nil, or_false,
      Bool.not_eq_false, Bool.or_eq_true, decide_eq_true_eq, beq_iff_eq] at hseparator
    simp only [← UInt8.toNat_inj, UInt8.reduceToNat] at hseparator ⊢
    omega
  rcases hcases with rfl | rfl | rfl | rfl | rfl | rfl <;> exact absurd h (by decide)

/-- A written label is read back, up to its closing quote. -/
theorem readLabel_labelText (hlabel : IsLabel label) :
    readLabel (utf8 (labelText label ++ rest)) = .ok (label.1, label.2, utf8 rest) := by
  have hbytes : utf8 (labelText label ++ rest) = utf8 label.1.toList ++
      61 :: 34 :: utf8 (escapeLabel label.2.toList ++ '"' :: rest) := by
    simp only [labelText, List.append_assoc, List.cons_append, List.nil_append]
    rw [utf8_append, utf8_cons_of_ascii (by decide), utf8_cons_of_ascii (by decide)]
    rfl
  have hkey : utf8 label.1.toList ≠ [] := mt utf8_eq_nil_iff.mp hlabel.key_ne_nil
  have hstop : ¬isLabelByte 61 = true := by decide
  have hequals : ¬isBlankByte 61 = true := by decide
  have hquote : ¬isBlankByte 34 = true := by decide
  have hvalue : readValue label.1 [] (utf8 (escapeLabel label.2.toList ++ '"' :: rest)) =
      .ok (label.2.toList, utf8 rest) := readValue_escapeLabel hlabel.value_ascii [] rest
  rw [hbytes, readLabel, List.takeWhile_append_of_pos hlabel.isLabelByte,
    List.dropWhile_append_of_pos hlabel.isLabelByte, List.takeWhile_cons_of_neg hstop,
    List.dropWhile_cons_of_neg hstop, List.append_nil, hlabel.key_eq, if_neg hkey,
    List.dropWhile_cons_of_neg hequals]
  simp only [List.dropWhile_cons_of_neg hquote, hvalue, String.ofList_toList]

theorem skipSeparators_labelText (hlabel : IsLabel label) (rest : List Char) :
    skipSeparators (utf8 (labelText label ++ rest)) = utf8 (labelText label ++ rest) := by
  obtain ⟨c, key, hkey⟩ := List.exists_cons_of_ne_nil hlabel.key_ne_nil
  have hc : c.toNat < 128 := (hlabel.plain c (hkey ▸ List.mem_cons_self)).ascii
  have hbyte : isLabelByte (UInt8.ofNat c.toNat) = true := by
    apply hlabel.isLabelByte
    rw [hkey, utf8_cons_of_ascii hc]
    exact List.mem_cons_self
  rw [labelText, hkey, List.cons_append, List.cons_append, List.cons_append, utf8_cons_of_ascii hc]
  exact List.dropWhile_cons_of_neg (by simp [not_separator_of_isLabelByte hbyte])

/-- The loop goes through one label. -/
theorem parseLabelsFrom_labelText (hlabel : IsLabel label) {known : ExtTreeMap String String}
    (hfresh : known.contains label.1 = false) (labels : List (String × String)) :
    parseLabelsFrom known (utf8 (labelText label ++ moreLabels labels)) =
      parseLabelsFrom (known.insert label.1 label.2) (utf8 (moreLabels labels)) := by
  have hhead : (utf8 (moreLabels labels)).dropWhile isBlankByte = utf8 (moreLabels labels) ∧
      (utf8 (moreLabels labels) ≠ [] → (utf8 (moreLabels labels)).head? = some 44) := by
    cases labels with
    | nil => exact ⟨rfl, fun h => absurd rfl h⟩
    | cons next labels =>
      rw [utf8_moreLabels_cons]
      exact ⟨List.dropWhile_cons_of_neg (by decide), fun _ => rfl⟩
  have hne : utf8 (labelText label ++ moreLabels labels) ≠ [] := by
    rw [Ne, utf8_eq_nil_iff, labelText]
    simp
  rw [parseLabelsFrom, skipSeparators_labelText hlabel, if_neg hne]
  split
  next error hread =>
    rw [readLabel_labelText hlabel] at hread
    cases hread
  next key value rest hread =>
    rw [readLabel_labelText hlabel] at hread
    cases hread
    rw [hfresh, hhead.1, if_neg Bool.false_ne_true, if_neg (fun h => h.2 (hhead.2 h.1))]

/-- The loop skips a comma. -/
theorem parseLabelsFrom_comma (known : ExtTreeMap String String) (bytes : List UInt8) :
    parseLabelsFrom known (44 :: bytes) = parseLabelsFrom known bytes := by
  have hskip : skipSeparators (44 :: bytes) = skipSeparators bytes :=
    List.dropWhile_cons_of_pos (by decide)
  rw [parseLabelsFrom.eq_def, parseLabelsFrom.eq_def known bytes, hskip]

/-- All labels are read. -/
theorem parseLabelsFrom_moreLabels {known : ExtTreeMap String String}
    (hlabels : ∀ label ∈ labels, IsLabel label) (hnodup : (labels.map Prod.fst).Nodup)
    (hfresh : ∀ label ∈ labels, known.contains label.1 = false) :
    parseLabelsFrom known (utf8 (moreLabels labels)) = .ok (known.insertMany labels) := by
  induction labels generalizing known with
  | nil =>
    have hskip : skipSeparators (utf8 (moreLabels [])) = [] := rfl
    rw [parseLabelsFrom, if_pos hskip, ExtTreeMap.insertMany_nil]
  | cons label labels ih =>
    obtain ⟨hlabel, hlabels⟩ := List.forall_mem_cons.mp hlabels
    obtain ⟨hknown, hfresh⟩ := List.forall_mem_cons.mp hfresh
    obtain ⟨hnotMem, hnodup⟩ := List.nodup_cons.mp hnodup
    have hnext : ∀ next ∈ labels, (known.insert label.1 label.2).contains next.1 = false := by
      intro next hmem
      have hne : label.1 ≠ next.1 := fun heq => hnotMem (heq ▸ List.mem_map_of_mem hmem)
      simp [ExtTreeMap.contains_insert, hne, hfresh next hmem]
    rw [utf8_moreLabels_cons, parseLabelsFrom_comma, parseLabelsFrom_labelText hlabel hknown,
      ih hlabels hnodup hnext, ExtTreeMap.insertMany_cons]

/-- The labels of a sample are read back. -/
theorem parseLabels_labels (hlabels : ∀ label ∈ labels, IsLabel label)
    (hnodup : (labels.map Prod.fst).Nodup) :
    parseLabels ([','].intercalate (labels.map labelText)) = .ok (ExtTreeMap.ofList labels) := by
  rw [parseLabels, ExtTreeMap.ofList_eq_insertMany_empty]
  cases labels with
  | nil => exact parseLabelsFrom_moreLabels hlabels hnodup (by simp)
  | cons label labels =>
    rw [intercalate_labels, ← parseLabelsFrom_comma, ← utf8_moreLabels_cons]
    exact parseLabelsFrom_moreLabels hlabels hnodup (by simp)

end Labels

section Numbers

/-- How numbers are written and read. What is read has no blanks, and reading is the inverse of
writing. -/
structure NumberText (V Number : Type) where
  display : V → List Char
  parse : List Char → Option Number
  parsed : V → Number
  parse_display : ∀ value, parse (display value) = some (parsed value)
  parse_nil : parse [] = none
  not_blank : ∀ {text number}, parse text = some number → ∀ c ∈ text, isWhitespace c = false

variable {V Number : Type} (numbers : NumberText V Number) (value : V)

theorem NumberText.display_ne_nil : numbers.display value ≠ [] := by
  intro hnil
  have hparse := numbers.parse_display value
  rw [hnil, numbers.parse_nil] at hparse
  cases hparse

theorem NumberText.display_not_blank : ∀ c ∈ numbers.display value, isWhitespace c = false :=
  numbers.not_blank (numbers.parse_display value)

theorem isAsciiWhitespace_of_not_blank {c : Char} (h : isWhitespace c = false) :
    isAsciiWhitespace c.toNat = false := by
  simp only [isWhitespace, isAsciiWhitespace, List.mem_cons, List.not_mem_nil, or_false,
    Bool.or_eq_false_iff, Bool.and_eq_false_iff, decide_eq_false_iff_not] at h ⊢
  omega

/-- The first word after the blank is the number. -/
theorem NumberText.firstWord_display :
    firstWord (numbers.display value) = some (numbers.display value) := by
  have hblank : ∀ c ∈ numbers.display value, isAsciiWhitespace c.toNat = false := fun c hc =>
    isAsciiWhitespace_of_not_blank (numbers.display_not_blank value c hc)
  have hdrop : ((numbers.display value).dropWhile fun c => isAsciiWhitespace c.toNat) =
      numbers.display value := by
    obtain ⟨c, rest, hdisplay⟩ := List.exists_cons_of_ne_nil (numbers.display_ne_nil value)
    rw [hdisplay] at hblank ⊢
    exact List.dropWhile_cons_of_neg (by simp [hblank c List.mem_cons_self])
  have htake : ((numbers.display value).takeWhile fun c => !isAsciiWhitespace c.toNat) =
      numbers.display value :=
    List.takeWhile_eq_self_iff.mpr fun c hc => by simp [hblank c hc]
  simp only [firstWord, hdrop, htake, if_neg (numbers.display_ne_nil value)]

end Numbers

section Samples

/-- A sample that can be written. -/
structure MetricSample (V : Type) where
  name : String
  labels : List (String × String)
  value : V
  name_valid : validateMetricName name.toList = .ok ()
  labels_valid : ∀ label ∈ labels, IsLabel label
  keys_distinct : (labels.map Prod.fst).Nodup

variable {V Number : Type} (numbers : NumberText V Number) (sample : MetricSample V)

/-- The metric of a sample. -/
def MetricSample.metric : List Char :=
  sample.name.toList ++ '{' :: [','].intercalate (sample.labels.map labelText) ++ ['}']

/-- The line of a sample. -/
def MetricSample.line (display : V → List Char) : List Char :=
  sample.metric ++ ' ' :: display sample.value

/-- The sample as it is read. -/
def MetricSample.read (parsed : V → Number) : PrometheusSample Number :=
  ⟨sample.name, ExtTreeMap.ofList sample.labels, parsed sample.value⟩

/-- A line is cut where its metric ends. -/
theorem MetricSample.splitMetricAndValue_line :
    splitMetricAndValue (sample.line numbers.display) =
      some (sample.metric, numbers.display sample.value) := by
  have htrim : trimStart (' ' :: numbers.display sample.value) = numbers.display sample.value := by
    obtain ⟨c, rest, hdisplay⟩ := List.exists_cons_of_ne_nil (numbers.display_ne_nil sample.value)
    have hc := numbers.display_not_blank sample.value c (hdisplay ▸ List.mem_cons_self)
    rw [trimStart, List.dropWhile_cons_of_pos (by decide), hdisplay,
      List.dropWhile_cons_of_neg (by simp [hc])]
  have hspace : isAsciiWhitespace 32 = true := by decide
  have hblank : scanMetric false false 0 (' ' :: numbers.display sample.value) =
      some ([], numbers.display sample.value) := by
    simp [scanMetric, hspace, htrim]
  have hclose : scanMetric false false 1 ('}' :: ' ' :: numbers.display sample.value) =
      some (['}'], numbers.display sample.value) := by
    rw [scanMetric]
    simp [hblank]
  have hopen := scanMetric_labels sample.labels_valid hclose
  have hbrace : scanMetric false false 0 ('{' :: ([','].intercalate
      (sample.labels.map labelText) ++ '}' :: ' ' :: numbers.display sample.value)) =
      some ('{' :: ([','].intercalate (sample.labels.map labelText) ++ ['}']),
        numbers.display sample.value) := by
    simp [scanMetric, hopen]
  have hname := scanMetric_plain (IsPlain.of_validateMetricName sample.name_valid).2 hbrace
  simpa only [splitMetricAndValue, MetricSample.line, MetricSample.metric, List.append_assoc,
    List.cons_append, List.nil_append] using hname

/-- The metric of a sample is read back. -/
theorem MetricSample.parseMetric_metric :
    parseMetric sample.metric = .ok (sample.name, ExtTreeMap.ofList sample.labels) := by
  have hplain := (IsPlain.of_validateMetricName sample.name_valid).2
  have hopen : '{' ∈ sample.metric := by simp [MetricSample.metric]
  have hclose : sample.metric.getLast? = some '}' := List.getLast?_concat
  have hname : sample.metric.takeWhile (· ≠ '{') = sample.name.toList := by
    rw [MetricSample.metric, List.append_assoc, List.takeWhile_append_of_pos, List.cons_append,
      List.takeWhile_cons_of_neg (by decide), List.append_nil]
    intro c hc
    simp [(hplain c hc).ne_open]
  have hlabels : (sample.metric.drop (sample.name.toList.length + 1)).dropLast =
      [','].intercalate (sample.labels.map labelText) := by
    rw [MetricSample.metric, List.append_assoc, List.drop_length_add_append, List.cons_append,
      List.drop_one, List.tail_cons, List.dropLast_concat]
  rw [parseMetric, if_neg (not_not.mpr hopen), if_neg (not_not.mpr hclose)]
  simp only [hname, sample.name_valid, hlabels,
    parseLabels_labels sample.labels_valid sample.keys_distinct, String.ofList_toList]
  rfl

theorem MetricSample.parseSample_line (lineNumber : ℕ) :
    parseSample numbers.parse lineNumber (sample.line numbers.display) =
      .ok (sample.read numbers.parsed) := by
  simp only [parseSample, sample.splitMetricAndValue_line, numbers.firstWord_display,
    numbers.parse_display, sample.parseMetric_metric, MetricSample.read]

end Samples

section Lines

variable {V Number : Type} (numbers : NumberText V Number) (sample : MetricSample V)

/-- Texts without blanks at their ends stay as they are. -/
theorem trim_eq_self {text : List Char} (hhead : ∀ c ∈ text.head?, isWhitespace c = false)
    (hlast : ∀ c ∈ text.getLast?, isWhitespace c = false) : trim text = text := by
  have hstart : trimStart text = text := by
    cases text with
    | nil => rfl
    | cons c text => exact List.dropWhile_cons_of_neg (by simp [hhead c rfl])
  rw [trim, hstart, List.rdropWhile_eq_self_iff]
  intro hne
  simp [hlast _ (List.getLast?_eq_some_getLast hne)]

/-- The newlines of values are escaped. -/
theorem newline_notMem_escapeLabel (value : List Char) : '\n' ∉ escapeLabel value := by
  induction value with
  | nil => simp
  | cons c value ih =>
    rw [escapeLabel_cons, List.mem_append, not_or]
    refine ⟨?_, ih⟩
    unfold escapeChar
    split_ifs with hslash hnewline hquote
    · simp
    · simp
    · simp
    · simpa using Ne.symm hnewline

theorem newline_notMem_labelText {label : String × String} (hlabel : IsLabel label) :
    '\n' ∉ labelText label := by
  have hkey : '\n' ∉ label.1.toList := fun hmem => (hlabel.plain _ hmem).ne_newline rfl
  simp [labelText, hkey, newline_notMem_escapeLabel]

/-- A sample takes up one line. -/
theorem MetricSample.newline_notMem_line : '\n' ∉ sample.line numbers.display := by
  have hname : '\n' ∉ sample.name.toList := fun hmem =>
    ((IsPlain.of_validateMetricName sample.name_valid).2 _ hmem).ne_newline rfl
  have hvalue : '\n' ∉ numbers.display sample.value := fun hmem =>
    absurd (numbers.display_not_blank sample.value _ hmem) (by decide)
  have hlabels : '\n' ∉ [','].intercalate (sample.labels.map labelText) := by
    have hvalid := sample.labels_valid
    cases hlist : sample.labels with
    | nil => simp
    | cons label labels =>
      rw [hlist] at hvalid
      obtain ⟨hlabel, hlabels⟩ := List.forall_mem_cons.mp hvalid
      rw [intercalate_labels, moreLabels, List.mem_append, List.mem_flatMap]
      rintro (hmem | ⟨next, hnext, hmem⟩)
      · exact newline_notMem_labelText hlabel hmem
      · rw [List.mem_cons] at hmem
        rcases hmem with hcomma | hmem
        · exact absurd hcomma (by decide)
        · exact newline_notMem_labelText (hlabels next hnext) hmem
  simp [MetricSample.line, MetricSample.metric, hname, hvalue, hlabels]

/-- The ends of the line of a sample. -/
theorem MetricSample.line_ends :
    (∃ c ∈ (sample.line numbers.display).head?, IsPlain c) ∧
      ∃ c ∈ (sample.line numbers.display).getLast?, isWhitespace c = false := by
  obtain ⟨hne, hplain⟩ := IsPlain.of_validateMetricName sample.name_valid
  constructor
  · obtain ⟨c, name, hname⟩ := List.exists_cons_of_ne_nil hne
    refine ⟨c, ?_, hplain c (hname ▸ List.mem_cons_self)⟩
    simp [MetricSample.line, MetricSample.metric, hname]
  · have hvalue := numbers.display_ne_nil sample.value
    refine ⟨(numbers.display sample.value).getLast hvalue, ?_,
      numbers.display_not_blank _ _ (List.getLast_mem hvalue)⟩
    rw [MetricSample.line, List.getLast?_append_of_ne_nil _ (List.cons_ne_nil _ _),
      List.getLast?_cons, List.getLast?_eq_some_getLast hvalue]
    rfl

end Lines

section Expositions

/-- What an exposition is put together from: comments and samples. -/
inductive ExpositionItem (V : Type)
  | comment (text : List Char) (oneLine : '\n' ∉ text)
  | metric (sample : MetricSample V)

variable {V Number : Type}

/-- Write one item behind what was written before. -/
def ExpositionItem.write (display : V → List Char) (output : List Char) :
    ExpositionItem V → List Char
  | comment text _ => output ++ '#' :: text ++ ['\n']
  | metric sample => metricFloatLine display output sample.name sample.labels sample.value

/-- The text of an exposition. -/
def exposition (display : V → List Char) (items : List (ExpositionItem V)) : List Char :=
  items.foldl (ExpositionItem.write display) []

/-- The sample of an item, if it is one. -/
def ExpositionItem.sample? : ExpositionItem V → Option (MetricSample V)
  | comment _ _ => none
  | metric sample => some sample

/-- The line of an item. -/
def ExpositionItem.line (display : V → List Char) : ExpositionItem V → List Char
  | comment text _ => '#' :: text
  | metric sample => sample.line display

theorem ExpositionItem.write_eq (display : V → List Char) (output : List Char)
    (item : ExpositionItem V) :
    item.write display output = output ++ (item.line display ++ ['\n']) := by
  cases item with
  | comment text _ => simp [write, line]
  | metric sample => simp [write, line, metricFloatLine, MetricSample.line, MetricSample.metric]

/-- An exposition is its lines, each with its newline. -/
theorem exposition_eq (display : V → List Char) (items : List (ExpositionItem V)) :
    exposition display items =
      (items.map (ExpositionItem.line display)).flatMap fun line => line ++ ['\n'] := by
  have hfold : ∀ output, items.foldl (ExpositionItem.write display) output = output ++
      (items.map (ExpositionItem.line display)).flatMap fun line => line ++ ['\n'] := by
    induction items with
    | nil => simp
    | cons item items ih =>
      intro output
      rw [List.foldl_cons, ih, ExpositionItem.write_eq, List.map_cons, List.flatMap_cons,
        List.append_assoc]
  exact hfold []

variable (numbers : NumberText V Number)

theorem ExpositionItem.newline_notMem_line (item : ExpositionItem V) :
    '\n' ∉ item.line numbers.display := by
  cases item with
  | comment text oneLine => simp [line, oneLine]
  | metric sample => exact sample.newline_notMem_line numbers

/-- A comment is skipped, whatever it ends with. -/
theorem parseLines_comment {parse : List Char → Option Number} {maxSamples index : ℕ}
    {samples : List (PrometheusSample Number)} {text : List Char} {rest : List (List Char)} :
    parseLines parse maxSamples index samples (stripReturn ('#' :: text) :: rest) =
      parseLines parse maxSamples (index + 1) samples rest := by
  have hstrip : ∃ tail, stripReturn ('#' :: text) = '#' :: tail := by
    unfold stripReturn
    split_ifs with hreturn
    · cases text with
      | nil => simp at hreturn
      | cons c text => exact ⟨_, List.dropLast_cons_of_ne_nil (List.cons_ne_nil _ _)⟩
    · exact ⟨text, rfl⟩
  obtain ⟨tail, hstrip⟩ := hstrip
  have htrim : (trim ('#' :: tail)).head? = some '#' := by
    have hstart : trimStart ('#' :: tail) = '#' :: tail :=
      List.dropWhile_cons_of_neg (by decide)
    obtain ⟨blanks, hblanks⟩ := List.rdropWhile_prefix isWhitespace ('#' :: tail)
    rw [trim, hstart]
    cases htext : ('#' :: tail).rdropWhile isWhitespace with
    | nil =>
      have hall := List.rdropWhile_eq_nil_iff.mp htext '#' List.mem_cons_self
      exact absurd hall (by decide)
    | cons c trimmed =>
      rw [htext, List.cons_append] at hblanks
      rw [(List.cons.inj hblanks).1, List.head?_cons]
  rw [hstrip, parseLines, if_pos (Or.inr htrim)]

/-- The line of a sample is read as this sample. -/
theorem parseLines_sample (sample : MetricSample V) {maxSamples index : ℕ}
    {samples : List (PrometheusSample Number)} {rest : List (List Char)}
    (hmax : samples.length < maxSamples) :
    parseLines numbers.parse maxSamples index samples
        (stripReturn (sample.line numbers.display) :: rest) =
      parseLines numbers.parse maxSamples (index + 1) (samples ++ [sample.read numbers.parsed])
        rest := by
  obtain ⟨⟨first, hfirst, hplain⟩, last, hlast, hblank⟩ := sample.line_ends numbers
  rw [Option.mem_def] at hfirst hlast
  have hreturn : stripReturn (sample.line numbers.display) = sample.line numbers.display := by
    rw [stripReturn, hlast, if_neg]
    rintro ⟨⟩
    exact absurd hblank (by decide)
  have htrim : trim (sample.line numbers.display) = sample.line numbers.display := by
    apply trim_eq_self
    · rintro c hc
      rw [hfirst, Option.mem_some_iff] at hc
      exact hc ▸ hplain.not_blank
    · rintro c hc
      rw [hlast, Option.mem_some_iff] at hc
      exact hc ▸ hblank
  have hread : ¬(sample.line numbers.display = [] ∨
      (sample.line numbers.display).head? = some '#') := by
    rintro (hnil | hhash)
    · rw [hnil] at hfirst
      cases hfirst
    · rw [hfirst, Option.some.injEq] at hhash
      exact hplain.ne_hash hhash
  rw [hreturn, parseLines, htrim, if_neg hread, if_neg (by omega),
    sample.parseSample_line numbers (index + 1)]
  rfl

/-- The loop over the lines of an exposition collects its samples. -/
theorem parseLines_exposition (items : List (ExpositionItem V)) {maxSamples index : ℕ}
    {samples : List (PrometheusSample Number)}
    (hmax : samples.length + (items.filterMap ExpositionItem.sample?).length ≤ maxSamples) :
    parseLines numbers.parse maxSamples index samples
        ((items.map (ExpositionItem.line numbers.display)).map stripReturn) =
      .ok (samples ++ (items.filterMap ExpositionItem.sample?).map fun sample =>
        sample.read numbers.parsed) := by
  induction items generalizing index samples with
  | nil => simp [parseLines]
  | cons item items ih =>
    cases item with
    | comment text oneLine =>
      rw [List.map_cons, List.map_cons, ExpositionItem.line, parseLines_comment]
      exact ih hmax
    | metric sample =>
      have hsample : (ExpositionItem.metric sample :: items).filterMap ExpositionItem.sample? =
          sample :: items.filterMap ExpositionItem.sample? := rfl
      rw [hsample, List.length_cons] at hmax
      rw [List.map_cons, List.map_cons, ExpositionItem.line,
        parseLines_sample numbers sample (by omega),
        ih (by rw [List.length_append, List.length_singleton]; omega), hsample, List.map_cons,
        List.append_assoc, List.singleton_append]

/-- What was written is read back: the names, labels and values of all samples, in their order. -/
theorem parsePrometheus_exposition (items : List (ExpositionItem V)) {maxSamples : ℕ}
    (hmax : (items.filterMap ExpositionItem.sample?).length ≤ maxSamples) :
    parsePrometheus numbers.parse (exposition numbers.display items) maxSamples =
      .ok ((items.filterMap ExpositionItem.sample?).map fun sample =>
        sample.read numbers.parsed) := by
  have hlines : lines (exposition numbers.display items) =
      (items.map (ExpositionItem.line numbers.display)).map stripReturn := by
    rw [exposition_eq]
    apply lines_flatMap
    rintro line hline
    obtain ⟨item, -, rfl⟩ := List.mem_map.mp hline
    exact item.newline_notMem_line numbers
  rw [parsePrometheus, hlines, parseLines_exposition numbers items (by simpa using hmax),
    List.nil_append]

/-- Whole numbers in decimal digits. -/
def decimals : NumberText ℕ ℕ where
  display value := Nat.toDigits 10 value
  parse text :=
    if text ≠ [] ∧ text.all Char.isDigit then some (Nat.ofDigitChars 10 text 0) else none
  parsed value := value
  parse_display value := by
    rw [if_pos, Nat.ofDigitChars_toDigits (by decide) (by decide)]
    refine ⟨Nat.toDigits_ne_nil, List.all_eq_true.mpr fun c hc => ?_⟩
    exact Nat.isDigit_of_mem_toDigits (by decide) (by decide) hc
  parse_nil := rfl
  not_blank {text number} h c hc := by
    have hdigits : text.all Char.isDigit := by
      split_ifs at h with htext
      exact htext.2
    have hdigit := List.all_eq_true.mp hdigits c hc
    exact (IsPlain.of_isNameChar (by simp [isNameChar, Char.isAlphanum, hdigit])).not_blank

/-- A sample with everything in the value of a label that could lead the scanners astray. -/
def awkwardSample : MetricSample ℕ where
  name := "metric:queue"
  labels := [("model_name", "a\"b\\n\x7b,\x7d #=\n\""), ("rank", "")]
  value := 2
  name_valid := by decide
  labels_valid := by
    rintro label hlabel
    rw [List.mem_cons, List.mem_singleton] at hlabel
    rcases hlabel with rfl | rfl
    · exact IsLabel.of_all (by decide) (by decide) (by decide)
    · exact IsLabel.of_all (by decide) (by decide) (by decide)
  keys_distinct := by decide

theorem parsePrometheus_exposition_awkwardSample :
    parsePrometheus decimals.parse
        (exposition decimals.display
          [.comment " TYPE metric:queue gauge".toList (by decide), .metric awkwardSample]) 1 =
      .ok [awkwardSample.read decimals.parsed] :=
  parsePrometheus_exposition decimals
    [.comment " TYPE metric:queue gauge".toList (by decide), .metric awkwardSample] (by decide)

end Expositions

end Locus.Engine
