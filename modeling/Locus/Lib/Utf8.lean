import Mathlib.Data.List.Basic

/-!
# Texts as bytes

The encoding of a text in UTF-8 and its inverse, on lists. Both are the core library's own;
the lemmas say how the encoding of a text relates to the encodings of its parts.
-/

namespace Locus.Lib

/-- The bytes of a text. -/
def utf8 (text : List Char) : List UInt8 :=
  text.flatMap String.utf8EncodeChar

/-- The text with these bytes, if there is one. -/
def fromUtf8? (bytes : List UInt8) : Option (List Char) :=
  bytes.toByteArray.utf8Decode?.map Array.toList

variable {text front before : List Char} {bytes : List UInt8}

@[simp] theorem utf8_nil : utf8 [] = [] :=
  rfl

@[simp] theorem utf8_append (front back : List Char) :
    utf8 (front ++ back) = utf8 front ++ utf8 back :=
  List.flatMap_append

/-- Every character has bytes. -/
theorem utf8_eq_nil_iff : utf8 text = [] ↔ text = [] := by
  cases text with
  | nil => simp
  | cons c text => simp [utf8, String.utf8EncodeChar_ne_nil]

/-- A character below 128 is one byte. -/
theorem utf8_cons_of_ascii {c : Char} (hc : c.toNat < 128) (text : List Char) :
    utf8 (c :: text) = UInt8.ofNat c.toNat :: utf8 text := by
  have hchar : String.utf8EncodeChar c = [UInt8.ofNat c.toNat] := if_pos (Nat.le_of_lt_succ hc)
  rw [utf8, List.flatMap_cons, hchar]
  rfl

/-- A text of characters below 128 has one byte for each of them. -/
theorem utf8_of_ascii (htext : ∀ c ∈ text, c.toNat < 128) :
    utf8 text = text.map fun c => UInt8.ofNat c.toNat := by
  induction text with
  | nil => rfl
  | cons c text ih =>
    obtain ⟨hc, htext⟩ := List.forall_mem_cons.mp htext
    rw [utf8_cons_of_ascii hc, ih htext, List.map_cons]

/-- Decoding is the inverse of encoding. -/
theorem fromUtf8?_eq_some_iff : fromUtf8? bytes = some text ↔ bytes = utf8 text := by
  constructor
  · intro h
    obtain ⟨chars, hchars, rfl⟩ := Option.map_eq_some_iff.mp h
    have hvalid := @ByteArray.utf8Encode_get_utf8Decode? bytes.toByteArray (by simp [hchars])
    simp only [hchars, Option.get_some] at hvalid
    have hdata := congrArg (fun array => array.data.toList) hvalid
    rw [List.toList_data_toByteArray] at hdata
    rw [← hdata, List.utf8Encode, List.toList_data_toByteArray, utf8]
  · rintro rfl
    have hencode : (utf8 text).toByteArray = text.utf8Encode := rfl
    rw [fromUtf8?, hencode, List.utf8Decode?_utf8Encode, Option.map_some]

/-- Only one text has these bytes. -/
theorem utf8_injective : Function.Injective utf8 := by
  intro text text' h
  have hsame := fromUtf8?_eq_some_iff.mpr h
  rw [fromUtf8?_eq_some_iff.mpr rfl] at hsame
  exact Option.some.inj hsame

/-- A beginning of a text with no more bytes than another one is a beginning of it. -/
theorem exists_eq_append_of_utf8_length_le {back back' : List Char}
    (h : before ++ back' = front ++ back) (hle : (utf8 front).length ≤ (utf8 before).length) :
    ∃ middle, before = front ++ middle := by
  rcases List.prefix_or_prefix_of_prefix (List.prefix_append before back')
    (h ▸ List.prefix_append front back) with ⟨middle, hmiddle⟩ | ⟨middle, hmiddle⟩
  · have hnil : utf8 middle = [] := by
      rw [← hmiddle, utf8_append, List.length_append] at hle
      exact List.length_eq_zero_iff.mp (by omega)
    rw [utf8_eq_nil_iff.mp hnil, List.append_nil] at hmiddle
    exact ⟨[], by rw [hmiddle, List.append_nil]⟩
  · exact ⟨middle, hmiddle.symm⟩

end Locus.Lib
