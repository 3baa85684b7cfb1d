import Locus.Lib.Occurrences
import Locus.Lib.Utf8

/-!
# Byte positions in a text

A text is read at positions that count bytes. Only some of them stand between two characters,
and only there can a text be cut. The encoding marks the first byte of each character, so the
bytes of a word occur in the bytes of a text only where the word occurs in the text.
-/

namespace Locus.Lib

/-- Cut a text at a position in bytes, if it stands between characters. -/
def splitAt? : List Char → ℕ → Option (List Char × List Char)
  | text, 0 => some ([], text)
  | [], _ + 1 => none
  | c :: text, position + 1 =>
    if c.utf8Size ≤ position + 1 then
      (splitAt? text (position + 1 - c.utf8Size)).map fun parts => (c :: parts.1, parts.2)
    else none

/-- The position in bytes of each character. -/
def charIndices (text : List Char) : List ℕ :=
  (List.range text.length).map fun index => (utf8 (text.take index)).length

variable {text front back word : List Char} {position i j : ℕ}

@[simp] theorem length_utf8_cons (c : Char) (text : List Char) :
    (utf8 (c :: text)).length = c.utf8Size + (utf8 text).length := by
  simp [utf8]

/-- A text is cut exactly between the characters. -/
theorem splitAt?_eq_some_iff :
    splitAt? text position = some (front, back) ↔
      text = front ++ back ∧ (utf8 front).length = position := by
  fun_induction splitAt? text position generalizing front with
  | case1 text =>
    simp only [Option.some.injEq, Prod.mk.injEq, List.length_eq_zero_iff, utf8_eq_nil_iff]
    constructor
    · rintro ⟨rfl, rfl⟩
      exact ⟨rfl, rfl⟩
    · rintro ⟨rfl, rfl⟩
      exact ⟨rfl, rfl⟩
  | case2 position =>
    simp only [reduceCtorEq, false_iff, not_and]
    intro hnil
    simp [(List.append_eq_nil_iff.mp hnil.symm).1]
  | case3 c text position hfits ih =>
    simp only [Option.map_eq_some_iff, Prod.exists, Prod.mk.injEq]
    constructor
    · rintro ⟨front, back, hsplit, rfl, rfl⟩
      obtain ⟨rfl, hlen⟩ := ih.mp hsplit
      exact ⟨rfl, by rw [length_utf8_cons, hlen]; omega⟩
    · rintro ⟨heq, hlen⟩
      cases front with
      | nil => simp at hlen
      | cons d front =>
        obtain ⟨rfl, rfl⟩ := List.cons.inj heq
        rw [length_utf8_cons] at hlen
        exact ⟨front, back, ih.mpr ⟨rfl, by omega⟩, rfl, rfl⟩
  | case4 c text position hfits =>
    simp only [reduceCtorEq, false_iff, not_and]
    intro heq hlen
    cases front with
    | nil => simp at hlen
    | cons d front =>
      obtain ⟨rfl, rfl⟩ := List.cons.inj heq
      rw [length_utf8_cons] at hlen
      omega

/-- A text can be cut between its parts. -/
theorem splitAt?_append (front back : List Char) :
    splitAt? (front ++ back) (utf8 front).length = some (front, back) :=
  splitAt?_eq_some_iff.mpr ⟨rfl, rfl⟩

/-- A text can be cut behind any number of its characters. -/
theorem splitAt?_take (text : List Char) (i : ℕ) :
    splitAt? text (utf8 (text.take i)).length = some (text.take i, text.drop i) :=
  splitAt?_eq_some_iff.mpr ⟨(List.take_append_drop i text).symm, rfl⟩

/-- More characters have more bytes. -/
theorem length_utf8_take_lt (h : i < j) (hj : j ≤ text.length) :
    (utf8 (text.take i)).length < (utf8 (text.take j)).length := by
  obtain ⟨k, rfl⟩ := Nat.exists_eq_add_of_lt h
  have htake : text.take (i + k + 1) = text.take i ++ (text.drop i).take (k + 1) := by
    rw [Nat.add_assoc, List.take_add]
  have hne : utf8 ((text.drop i).take (k + 1)) ≠ [] := by
    rw [Ne, utf8_eq_nil_iff, ← List.length_eq_zero_iff, List.length_take, List.length_drop]
    omega
  have hpos := List.length_pos_iff.mpr hne
  rw [htake, utf8_append, List.length_append]
  omega

/-- Positions in bytes are in the order of the positions in characters. -/
theorem length_utf8_take_lt_iff (hi : i ≤ text.length) (hj : j ≤ text.length) :
    (utf8 (text.take i)).length < (utf8 (text.take j)).length ↔ i < j := by
  constructor
  · intro h
    by_contra hle
    rcases Nat.lt_or_eq_of_le (Nat.le_of_not_lt hle) with hlt | rfl
    · have := length_utf8_take_lt hlt hi
      omega
    · omega
  · intro h
    exact length_utf8_take_lt h hj

section Encoding

/-- The encodings of two characters begin alike only if the characters are the same. -/
theorem utf8EncodeChar_append_inj {c d : Char} {bytes bytes' : List UInt8}
    (h : String.utf8EncodeChar c ++ bytes = String.utf8EncodeChar d ++ bytes') :
    c = d ∧ bytes = bytes' := by
  have harray : (String.utf8EncodeChar c).toByteArray ++ bytes.toByteArray =
      (String.utf8EncodeChar d).toByteArray ++ bytes'.toByteArray := by
    rw [← List.toByteArray_append, ← List.toByteArray_append, h]
  have hdecode := @ByteArray.utf8DecodeChar?_utf8EncodeChar_append bytes.toByteArray c
  rw [harray, ByteArray.utf8DecodeChar?_utf8EncodeChar_append] at hdecode
  obtain rfl := Option.some.inj hdecode
  exact ⟨rfl, List.append_cancel_left h⟩

/-- The bytes of a word begin the bytes of a text exactly if the word begins the text. -/
theorem utf8_prefix_iff : utf8 word <+: utf8 text ↔ word <+: text := by
  constructor
  · intro h
    induction word generalizing text with
    | nil => exact List.nil_prefix
    | cons c word ih =>
      cases text with
      | nil =>
        have := utf8_eq_nil_iff.mp (List.prefix_nil.mp h)
        cases this
      | cons d text =>
        obtain ⟨bytes, hbytes⟩ := h
        simp only [utf8, List.flatMap_cons, List.append_assoc] at hbytes
        obtain ⟨rfl, hrest⟩ := utf8EncodeChar_append_inj hbytes
        exact List.cons_prefix_cons.mpr ⟨rfl, ih ⟨bytes, hrest⟩⟩
  · rintro ⟨rest, rfl⟩
    rw [utf8_append]
    exact List.prefix_append _ _

/-- The bytes of characters start with a first byte. -/
theorem exists_firstByte {bytes : List UInt8} (hne : bytes ≠ []) (h : bytes <+: utf8 word) :
    ∃ byte tail, bytes = byte :: tail ∧ byte.IsUTF8FirstByte := by
  obtain ⟨byte, tail, rfl⟩ := List.exists_cons_of_ne_nil hne
  refine ⟨byte, tail, rfl, ?_⟩
  cases word with
  | nil => cases List.prefix_nil.mp h
  | cons c word =>
    have hpos : 0 < (String.utf8EncodeChar c).length :=
      List.length_pos_iff.mpr String.utf8EncodeChar_ne_nil
    have hfirst := h.getElem (Nat.succ_pos tail.length)
    have hbyte : byte = (String.utf8EncodeChar c)[0] :=
      hfirst.trans (List.getElem_append_left hpos)
    rw [hbyte]
    exact UInt8.isUTF8FirstByte_getElem_utf8EncodeChar.mpr rfl

/-- A first byte in a text stands between characters. -/
theorem exists_take_of_firstByte {byte : UInt8} (hbyte : (utf8 text)[position]? = some byte)
    (hfirst : byte.IsUTF8FirstByte) :
    ∃ i ≤ text.length, (utf8 (text.take i)).length = position := by
  induction text generalizing position with
  | nil => simp at hbyte
  | cons d text ih =>
    have hcons : utf8 (d :: text) = String.utf8EncodeChar d ++ utf8 text := rfl
    rw [hcons] at hbyte
    rcases Nat.lt_or_ge position (String.utf8EncodeChar d).length with hlt | hge
    · rw [List.getElem?_append_left hlt, List.getElem?_eq_getElem hlt] at hbyte
      obtain rfl := Option.some.inj hbyte
      obtain rfl := UInt8.isUTF8FirstByte_getElem_utf8EncodeChar.mp hfirst
      exact ⟨0, Nat.zero_le _, rfl⟩
    · rw [List.getElem?_append_right hge] at hbyte
      obtain ⟨i, hi, hlen⟩ := ih hbyte
      refine ⟨i + 1, Nat.succ_le_succ hi, ?_⟩
      rw [List.take_succ_cons, length_utf8_cons, hlen, ← String.length_utf8EncodeChar]
      omega

/-- What begins the bytes of a word can only stand between characters. -/
theorem exists_take_of_prefix_drop {bytes : List UInt8} (hne : bytes ≠ [])
    (hword : bytes <+: utf8 word) (h : bytes <+: (utf8 text).drop position) :
    ∃ i ≤ text.length, (utf8 (text.take i)).length = position := by
  obtain ⟨byte, tail, rfl, hfirst⟩ := exists_firstByte hne hword
  obtain ⟨rest, hrest⟩ := h
  refine exists_take_of_firstByte ?_ hfirst
  have hzero := congrArg (fun bytes : List UInt8 => bytes[0]?) hrest
  simpa using hzero.symm

/-- The bytes from a position between characters on. -/
theorem drop_utf8_take (text : List Char) (i : ℕ) :
    (utf8 text).drop (utf8 (text.take i)).length = utf8 (text.drop i) := by
  conv_lhs => rw [← List.take_append_drop i text, utf8_append]
  rw [List.take_append_drop, List.drop_left]

/-- The bytes of a word occur where the word does. -/
theorem occursAt_utf8_iff (hword : word ≠ []) :
    OccursAt (utf8 word) (utf8 text) position ↔
      ∃ i ≤ text.length, (utf8 (text.take i)).length = position ∧ OccursAt word text i := by
  constructor
  · intro h
    have hbytes : utf8 word ≠ [] := mt utf8_eq_nil_iff.mp hword
    obtain ⟨i, hi, rfl⟩ := exists_take_of_prefix_drop hbytes (List.prefix_refl _) h
    rw [OccursAt, drop_utf8_take] at h
    exact ⟨i, hi, rfl, utf8_prefix_iff.mp h⟩
  · rintro ⟨i, -, rfl, hocc⟩
    rw [OccursAt, drop_utf8_take]
    exact utf8_prefix_iff.mpr hocc

/-- The bytes of a word do not occur where the word does not. -/
theorem not_occursAt_utf8 (hword : word ≠ []) (h : ∀ i, ¬ OccursAt word text i) (position : ℕ) :
    ¬ OccursAt (utf8 word) (utf8 text) position := by
  intro hocc
  obtain ⟨i, -, -, hocc⟩ := (occursAt_utf8_iff hword).mp hocc
  exact h i hocc

/-- The bytes of a word that begin in a part of a text come from a word that does. -/
theorem exists_occursAt_of_utf8 (hword : word ≠ []) {front back : List Char}
    (hocc : OccursAt (utf8 word) (utf8 (front ++ (text ++ back))) position)
    (hle : (utf8 front).length ≤ position)
    (hlt : position < (utf8 front).length + (utf8 text).length) :
    ∃ j < text.length, OccursAt word (text ++ back) j := by
  obtain ⟨k, rfl⟩ := Nat.exists_eq_add_of_le hle
  rw [utf8_append, occursAt_append_right] at hocc
  obtain ⟨j, hj, rfl, hwordAt⟩ := (occursAt_utf8_iff hword).mp hocc
  refine ⟨j, ?_, hwordAt⟩
  refine (length_utf8_take_lt_iff hj (by simp)).mp ?_
  rw [List.take_left]
  omega

/-- The search for the bytes of a word finds the word. -/
theorem find_utf8 (hword : word ≠ []) :
    find (utf8 word) (utf8 text) =
      (find word text).map fun index => (utf8 (text.take index)).length := by
  have hbytes : utf8 word ≠ [] := mt utf8_eq_nil_iff.mp hword
  cases hfind : find word text with
  | none =>
    rw [Option.map_none, find_eq_none_iff hbytes]
    exact not_occursAt_utf8 hword ((find_eq_none_iff hword).mp hfind)
  | some i =>
    obtain ⟨hocc, hfirst⟩ := (find_eq_some_iff hword).mp hfind
    have hlen := hocc.add_length_le hword
    rw [Option.map_some, find_eq_some_iff hbytes]
    refine ⟨(occursAt_utf8_iff hword).mpr ⟨i, by omega, rfl, hocc⟩, fun position hlt hbefore => ?_⟩
    obtain ⟨j, hj, rfl, hearlier⟩ := (occursAt_utf8_iff hword).mp hbefore
    exact hfirst j ((length_utf8_take_lt_iff hj (by omega)).mp hlt) hearlier

end Encoding

end Locus.Lib
