import Mathlib.Data.List.Basic
import Mathlib.Data.Nat.Digits.Defs
import Mathlib.Data.String.Basic
import Std.Data.String.ToNat

/-!
# Parts of a text

Several texts can be written one after the other and read apart again, if a separator stands
between them that does not occur in them, or if their lengths are known.
-/

namespace Locus.Lib

variable {α : Type*} {separator : α} {front front' word word' rest rest' : List α}

/-- A word without separators behind the last separator is determined. -/
theorem eq_of_append_separator_eq (hword : separator ∉ word) (hword' : separator ∉ word')
    (h : front ++ separator :: word = front' ++ separator :: word') : word = word' := by
  rcases List.append_eq_append_iff.mp h with ⟨middle, -, heq⟩ | ⟨middle, -, heq⟩
  · cases middle with
    | nil => exact (List.cons.inj heq).2
    | cons head middle =>
      have hmem : separator ∈ word := by simp [(List.cons.inj heq).2]
      exact absurd hmem hword
  · cases middle with
    | nil => exact (List.cons.inj heq).2.symm
    | cons head middle =>
      have hmem : separator ∈ word' := by simp [(List.cons.inj heq).2]
      exact absurd hmem hword'

/-- A word without separators before the first separator is determined, and so is what
follows. -/
theorem eq_of_separator_append_eq (hword : separator ∉ word) (hword' : separator ∉ word')
    (h : word ++ separator :: rest = word' ++ separator :: rest') :
    word = word' ∧ rest = rest' := by
  rcases List.append_eq_append_iff.mp h with ⟨middle, hmiddle, heq⟩ | ⟨middle, hmiddle, heq⟩
  · cases middle with
    | nil => exact ⟨by simpa using hmiddle.symm, (List.cons.inj heq).2⟩
    | cons head middle =>
      have hmem : separator ∈ word' := by simp [hmiddle, (List.cons.inj heq).1]
      exact absurd hmem hword'
  · cases middle with
    | nil => exact ⟨by simpa using hmiddle, (List.cons.inj heq).2.symm⟩
    | cons head middle =>
      have hmem : separator ∈ word := by simp [hmiddle, (List.cons.inj heq).1]
      exact absurd hmem hword

/-- Two texts with a separator in the middle are the same if the parts are, or if the middle of
one lies in a part of the other. -/
theorem append_separator_eq_iff :
    front ++ separator :: rest = front' ++ separator :: rest' ↔
      (front = front' ∧ rest = rest') ∨
      (∃ middle, front' = front ++ separator :: middle ∧
        rest = middle ++ separator :: rest') ∨
      (∃ middle, front = front' ++ separator :: middle ∧
        rest' = middle ++ separator :: rest) := by
  constructor
  · intro h
    rcases List.append_eq_append_iff.mp h with ⟨middle, rfl, heq⟩ | ⟨middle, rfl, heq⟩
    · cases middle with
      | nil => exact .inl ⟨by simp, (List.cons.inj heq).2⟩
      | cons head middle =>
        obtain ⟨rfl, hrest⟩ := List.cons.inj heq
        exact .inr (.inl ⟨middle, rfl, hrest⟩)
    · cases middle with
      | nil => exact .inl ⟨by simp, (List.cons.inj heq).2.symm⟩
      | cons head middle =>
        obtain ⟨rfl, hrest⟩ := List.cons.inj heq
        exact .inr (.inr ⟨middle, rfl, hrest⟩)
  · rintro (⟨rfl, rfl⟩ | ⟨middle, rfl, rfl⟩ | ⟨middle, rfl, rfl⟩)
    · rfl
    · simp
    · simp

/-- The same for strings. -/
theorem string_append_separator_eq_iff (separator : Char) {s s' t t' : String} :
    s ++ String.singleton separator ++ t = s' ++ String.singleton separator ++ t' ↔
      (s = s' ∧ t = t') ∨
      (∃ middle, s' = s ++ String.singleton separator ++ middle ∧
        t = middle ++ String.singleton separator ++ t') ∨
      (∃ middle, s = s' ++ String.singleton separator ++ middle ∧
        t' = middle ++ String.singleton separator ++ t) := by
  have hexists (p : List Char → Prop) : (∃ chars, p chars) ↔ ∃ text : String, p text.toList :=
    ⟨fun ⟨chars, h⟩ => ⟨String.ofList chars, by simpa using h⟩, fun ⟨text, h⟩ => ⟨_, h⟩⟩
  simp only [← String.toList_inj, String.toList_append, String.toList_singleton,
    List.append_assoc, List.singleton_append, append_separator_eq_iff, hexists]

/-- A number is written in digits. -/
theorem notMem_toString {c : Char} (hc : c.isDigit = false) (n : ℕ) : c ∉ (toString n).toList := by
  intro hmem
  rw [Nat.toString_eq_repr, Nat.toList_repr] at hmem
  have hdigit := Nat.isDigit_of_mem_toDigits (by decide) (by decide) hmem
  rw [hc] at hdigit
  cases hdigit

/-- Two texts of the same size in bytes that start one text are the same. -/
theorem eq_of_string_append_eq {s s' t t' : String} (h : s ++ t = s' ++ t')
    (hsize : s.utf8ByteSize = s'.utf8ByteSize) : s = s' ∧ t = t' := by
  have hbytes := congrArg String.toByteArray h
  rw [String.toByteArray_append, String.toByteArray_append] at hbytes
  have hs : s = s' := String.toByteArray_inj.mp (ByteArray.append_inj_left hbytes hsize)
  subst hs
  exact ⟨rfl, (String.append_right_inj s).mp h⟩

/-- Parts of known layouts are determined, if each is by its own code, and so is what follows. -/
theorem eq_of_flatMap_append_eq {β γ : Type*} {code : β → List α} {layout : β → γ}
    (hlength : ∀ part part', layout part = layout part' →
      (code part).length = (code part').length)
    (hcode : ∀ part part', layout part = layout part' → code part = code part' → part = part')
    {parts parts' : List β} (hlayout : parts.map layout = parts'.map layout)
    (h : parts.flatMap code ++ rest = parts'.flatMap code ++ rest') :
    parts = parts' ∧ rest = rest' := by
  induction parts generalizing parts' with
  | nil =>
    obtain rfl : parts' = [] := by simpa using hlayout.symm
    exact ⟨rfl, h⟩
  | cons part parts ih =>
    cases parts' with
    | nil => simp at hlayout
    | cons part' parts' =>
      rw [List.map_cons, List.map_cons, List.cons.injEq] at hlayout
      simp only [List.flatMap_cons, List.append_assoc] at h
      obtain ⟨hpart, hrest⟩ := List.append_inj h (hlength part part' hlayout.1)
      obtain ⟨rfl, hparts⟩ := ih hlayout.2 hrest
      exact ⟨by rw [hcode part part' hlayout.1 hpart], hparts⟩

end Locus.Lib
