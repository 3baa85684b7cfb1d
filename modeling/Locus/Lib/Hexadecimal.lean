import Mathlib.Data.Nat.Init

/-!
# Hexadecimal numerals

A numeral in base sixteen, padded with zeros or not, stands for one number.
-/

namespace Locus.Lib

/-- The value of a hexadecimal digit. -/
def hexValue (c : Char) : ℕ := if c.isDigit then c.toNat - 48 else c.toNat - 87

/-- The number that some digits add to one that stands before them. -/
def ofHexDigits (digits : List Char) (value : ℕ) : ℕ :=
  digits.foldl (fun value c => 16 * value + hexValue c) value

theorem hexValue_digitChar {n : ℕ} (h : n < 16) : hexValue n.digitChar = n := by
  decide +revert

theorem ofHexDigits_append (digits rest : List Char) (value : ℕ) :
    ofHexDigits (digits ++ rest) value = ofHexDigits rest (ofHexDigits digits value) := by
  simp [ofHexDigits]

/-- Leading zeros do not count. -/
theorem ofHexDigits_replicate_zero (count : ℕ) : ofHexDigits (List.replicate count '0') 0 = 0 := by
  induction count with
  | zero => rfl
  | succ count ih =>
    rw [List.replicate_succ, ofHexDigits, List.foldl_cons]
    exact ih

/-- The digits of a number stand for it. -/
theorem ofHexDigits_toDigits (n : ℕ) : ofHexDigits (Nat.toDigits 16 n) 0 = n := by
  induction n using Nat.strongRecOn with
  | ind n ih =>
    by_cases hlt : n < 16
    · have hvalue := hexValue_digitChar hlt
      rw [Nat.toDigits_of_lt_base hlt]
      change 16 * 0 + hexValue n.digitChar = n
      omega
    · have hlast := hexValue_digitChar (Nat.mod_lt n (by decide : 0 < 16))
      have hfront := ih (n / 16) (by omega)
      rw [Nat.toDigits_of_base_le (by decide) (by omega), ofHexDigits_append, hfront]
      change 16 * (n / 16) + hexValue (n % 16).digitChar = n
      omega

/-- A padded numeral stands for one number. -/
theorem padded_toDigits_inj {n m width : ℕ}
    (h : List.replicate (width - (Nat.toDigits 16 n).length) '0' ++ Nat.toDigits 16 n =
      List.replicate (width - (Nat.toDigits 16 m).length) '0' ++ Nat.toDigits 16 m) : n = m := by
  have hvalue := congrArg (ofHexDigits · 0) h
  simpa only [ofHexDigits_append, ofHexDigits_replicate_zero, ofHexDigits_toDigits] using hvalue

/-- The format `02x` of a byte. -/
def hexByte (byte : UInt8) : List Char :=
  [(byte.toNat / 16).digitChar, (byte.toNat % 16).digitChar]

/-- A byte is known by its two digits. -/
theorem hexByte_inj {byte byte' : UInt8} (h : hexByte byte = hexByte byte') : byte = byte' := by
  obtain ⟨hhigh, hlow⟩ := List.cons.inj h
  have hbound := byte.toNat_lt
  have hbound' := byte'.toNat_lt
  have hquotient : byte.toNat / 16 = byte'.toNat / 16 := by
    rw [← hexValue_digitChar (show byte.toNat / 16 < 16 by omega), hhigh,
      hexValue_digitChar (by omega)]
  have hremainder : byte.toNat % 16 = byte'.toNat % 16 := by
    rw [← hexValue_digitChar (show byte.toNat % 16 < 16 by omega), (List.cons.inj hlow).1,
      hexValue_digitChar (by omega)]
  exact UInt8.toNat_inj.mp (by omega)

/-- Bytes are known by their digits. -/
theorem flatMap_hexByte_injective : Function.Injective (List.flatMap hexByte) := by
  intro bytes bytes' h
  induction bytes generalizing bytes' with
  | nil =>
    cases bytes' with
    | nil => rfl
    | cons byte' bytes' => cases h
  | cons byte bytes ih =>
    cases bytes' with
    | nil => cases h
    | cons byte' bytes' =>
      rw [List.flatMap_cons, List.flatMap_cons] at h
      obtain ⟨hbyte, hrest⟩ := List.append_inj h rfl
      rw [hexByte_inj hbyte, ih hrest]

/-- A digit is neither a line break nor another control character. -/
theorem newline_notMem_hexByte (byte : UInt8) : '\n' ∉ hexByte byte := by
  have hdigit (n : ℕ) (h : n < 16) : n.digitChar ≠ '\n' := by decide +revert
  have hbound := byte.toNat_lt
  simp only [hexByte, List.mem_cons, List.not_mem_nil, or_false, not_or]
  exact ⟨(hdigit _ (by omega)).symm, (hdigit _ (by omega)).symm⟩

end Locus.Lib
