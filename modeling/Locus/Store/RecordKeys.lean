import Locus.Store.Provenance

/-!
# Keys of the records

All requests share the table of records, whose keys are identifiers of states. Only the records
of one tenant, one namespace and one entry share a key, however the requests are interleaved.
-/

namespace Locus.Store

open Locus.Lib

/-- What stands under the identifier of a tenant, a namespace and an entry was registered for
that tenant, from a match of that entry, by a store of that namespace. -/
def KeysApart (config : NexusKvStoreConfig) (s : Calls) : Prop :=
  ∀ (tenant nameSpace entryId : String) (record : NexusStoreRecord),
    s.shared.records[storeStateId tenant nameSpace entryId]? = some record →
      nameSpace = config.nameSpace ∧ ∃ index ∈ s.shared.registered, ∃ hit : NexusMatchResult,
        foundBy config s index = some (tenant, hit) ∧ hit.entry.identity.entryId = entryId ∧
          hit.record = record

variable {config : NexusKvStoreConfig} {s : Calls}

/-- What lookups have registered under an identifier they have found for its tenant, its
namespace and its entry. -/
theorem registeredUnder_eq_some {tenant nameSpace entryId : String} {record : NexusStoreRecord}
    (h : registeredUnder config s (storeStateId tenant nameSpace entryId) = some record) :
    nameSpace = config.nameSpace ∧ ∃ index ∈ s.shared.registered, ∃ hit : NexusMatchResult,
      foundBy config s index = some (tenant, hit) ∧ hit.entry.identity.entryId = entryId ∧
        hit.record = record := by
  obtain ⟨index, hindex, hfound⟩ := List.exists_of_findSome?_eq_some h
  obtain ⟨⟨owner, hit⟩, hown, hrecord⟩ := Option.bind_eq_some_iff.mp hfound
  split_ifs at hrecord with hkey
  obtain ⟨rfl, rfl, rfl⟩ := storeStateId_inj.mp hkey
  exact ⟨rfl, index, hindex, hit, hown, rfl, Option.some.inj hrecord⟩

/-- A sound table keeps the records apart. -/
theorem Sound.keysApart (h : Sound config s) : KeysApart config s := by
  intro tenant nameSpace entryId record hrecord
  rw [h.records_eq] at hrecord
  exact registeredUnder_eq_some hrecord

/-- The identifier of a state determines the tenant, the namespace and the entry, so in every
run their records are kept apart. -/
theorem storeStateId_injective_keysApart {labels : List (ThreadLabel Operation StoreCall.Answer)}
    (hrun : Run (storeSystem config).Step freshStore labels s) :
    (Function.Injective fun key : String × String × String =>
      storeStateId key.1 key.2.1 key.2.2) ∧ KeysApart config s := by
  refine ⟨?_, (sound_of_run hrun).keysApart⟩
  rintro ⟨tenant, nameSpace, entryId⟩ ⟨tenant', nameSpace', entryId'⟩ h
  obtain ⟨rfl, rfl, rfl⟩ := storeStateId_inj.mp h
  rfl

/-- After one lookup the table has a record. -/
theorem storeStateId_injective_keysApart_acme :
    ∃ s, Run (storeSystem acmeConfig).Step freshStore (lookupLabels 0 1 "first") s ∧
      s.shared.records[storeStateId "acme" "prefixes" "entry"]? =
        some (versionMatch 1 "first").record ∧
      (Function.Injective fun key : String × String × String =>
        storeStateId key.1 key.2.1 key.2.2) ∧ KeysApart acmeConfig s := by
  have hrun : ∃ s, Run (storeSystem acmeConfig).Step freshStore (lookupLabels 0 1 "first") s ∧
      s.shared.records[storeStateId "acme" "prefixes" "entry"]? =
        some (versionMatch 1 "first").record :=
    ⟨_, .snoc (.snoc (.snoc (.snoc (.nil _) (.start trivial)) (.answer rfl rfl))
      (.answer rfl rfl)) (.answer rfl rfl), Std.ExtTreeMap.getElem?_insert_self⟩
  obtain ⟨s, hrun, hrecord⟩ := hrun
  exact ⟨s, hrun, hrecord, storeStateId_injective_keysApart hrun⟩

end Locus.Store
