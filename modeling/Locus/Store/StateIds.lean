import Locus.Lib.Separators
import Locus.Store.NexusKv

/-!
# Identifiers of states

An identifier is made of a tenant, a namespace and an entry. The first two are written behind
their sizes, so all three can be read from it, whatever characters they contain.
-/

namespace Locus.Store

open Locus.Lib

/-- A text behind its size, and what follows. -/
def sized (text rest : String) : String :=
  toString text.utf8ByteSize ++ ":" ++ text ++ ":" ++ rest

theorem storeStateId_eq (tenant nameSpace entryId : String) :
    storeStateId tenant nameSpace entryId =
      "nexuskv:" ++ sized tenant (sized nameSpace entryId) := by
  unfold storeStateId sized
  simp only [String.append_assoc]

/-- A text behind its size can be read from what it starts. -/
theorem eq_of_sized_eq {text text' rest rest' : String} (h : sized text rest = sized text' rest') :
    text = text' ∧ rest = rest' := by
  have hlist := congrArg String.toList h
  simp only [sized, String.toList_append, List.append_assoc] at hlist
  obtain ⟨hdigits, -⟩ := eq_of_separator_append_eq (notMem_toString (c := ':') rfl _)
    (notMem_toString rfl _) (by simpa using hlist)
  have hsize : text.utf8ByteSize = text'.utf8ByteSize :=
    Nat.repr_injective (String.toList_injective hdigits)
  have hbehind : text ++ (":" ++ rest) = text' ++ (":" ++ rest') := by
    simp only [sized, hsize, String.append_assoc] at h
    exact (String.append_right_inj _).mp ((String.append_right_inj _).mp h)
  obtain ⟨htext, hrest⟩ := eq_of_string_append_eq hbehind hsize
  exact ⟨htext, (String.append_right_inj _).mp hrest⟩

/-- The tenant, the namespace and the entry of a state are known by its identifier. -/
theorem storeStateId_inj {tenant tenant' nameSpace nameSpace' entryId entryId' : String} :
    storeStateId tenant nameSpace entryId = storeStateId tenant' nameSpace' entryId' ↔
      tenant = tenant' ∧ nameSpace = nameSpace' ∧ entryId = entryId' := by
  constructor
  · intro h
    rw [storeStateId_eq, storeStateId_eq] at h
    obtain ⟨htenant, hrest⟩ := eq_of_sized_eq ((String.append_right_inj _).mp h)
    exact ⟨htenant, eq_of_sized_eq hrest⟩
  · rintro ⟨rfl, rfl, rfl⟩
    rfl

end Locus.Store
