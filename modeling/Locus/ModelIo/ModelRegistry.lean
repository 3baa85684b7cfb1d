import Locus.Lib.Fallible
import Locus.ModelIo.Normalize

/-!
# The model registry

A model is registered under all its public aliases at once. Whatever was registered and
refused before, an alias leads to the one model that has it. Of a model only its profile is
looked at. No operation panics under the lock, so it is never poisoned.
-/

namespace Locus.ModelIo

open Std (TreeMap)
open Locus.Lib

variable {Io : Type} (profileOf : Io → ModelProfile)

/-- `ModelRegistryInner` -/
structure ModelRegistry (Io : Type) where
  aliases : TreeMap String Io := ∅
  profiles : TreeMap String ModelProfile := ∅

namespace ModelRegistry

/-- `ModelRegistry::register` -/
def register (registry : ModelRegistry Io) (modelIo : Io) :
    Except ModelIoError (ModelRegistry Io) :=
  let profile := profileOf modelIo
  match profile.publicAliases with
  | [] => .error (.invalidInput "model has no public alias")
  | primary :: _ =>
    match profile.publicAliases.find? fun name => registry.aliases.contains name with
    | some name => .error (.invalidInput ("model alias is already registered: " ++ name))
    | none => .ok {
      aliases := profile.publicAliases.foldl (fun aliases name => aliases.insert name modelIo)
        registry.aliases
      profiles := registry.profiles.insert primary profile }

/-- `ModelRegistry::resolve` -/
def resolve (registry : ModelRegistry Io) (name : String) : Except ModelIoError Io :=
  match registry.aliases[name]? with
  | none => .error (.modelNotFound name)
  | some modelIo => .ok modelIo

/-- `ModelRegistry::profiles` -/
def profileList (registry : ModelRegistry Io) : List ModelProfile :=
  registry.profiles.toList.map Prod.snd

/-- What a registry is after an attempt to register a model. -/
def attempt (registry : ModelRegistry Io) (modelIo : Io) : ModelRegistry Io :=
  match registry.register profileOf modelIo with
  | .error _ => registry
  | .ok next => next

/-- What an empty registry is after attempts to register these models. -/
def afterAttempts (attempts : List Io) : ModelRegistry Io :=
  attempts.foldl (attempt profileOf) {}

end ModelRegistry

/-- The registry stands for these models: an alias leads to the model that has it, and each
model is listed under its first alias. -/
structure Holds (registry : ModelRegistry Io) (models : List Io) : Prop where
  resolves : ∀ name modelIo, registry.aliases[name]? = some modelIo ↔
    modelIo ∈ models ∧ name ∈ (profileOf modelIo).publicAliases
  lists : ∀ name profile, registry.profiles[name]? = some profile ↔
    ∃ modelIo ∈ models, profileOf modelIo = profile ∧ profile.publicAliases.head? = some name
  named : ∀ modelIo ∈ models, (profileOf modelIo).publicAliases ≠ []

variable {profileOf} {registry next : ModelRegistry Io} {models : List Io}

/-- The aliases after all names of a model were inserted. -/
theorem getElem?_foldl_insert (names : List String) (modelIo : Io) (aliases : TreeMap String Io)
    (name : String) :
    (names.foldl (fun aliases name => aliases.insert name modelIo) aliases)[name]? =
      if name ∈ names then some modelIo else aliases[name]? := by
  induction names generalizing aliases with
  | nil => simp
  | cons first rest ih =>
    rw [List.foldl_cons, ih, TreeMap.getElem?_insert]
    by_cases hrest : name ∈ rest
    · simp [hrest]
    · by_cases hfirst : first = name
      · simp [hfirst]
      · have hne : name ≠ first := fun h => hfirst h.symm
        simp [hrest, hfirst, hne]

/-- No model is held by an empty registry. -/
theorem Holds.empty : Holds profileOf ({} : ModelRegistry Io) [] := by
  constructor <;> simp

/-- What a model is registered under. -/
theorem register_eq_ok {modelIo : Io} (h : registry.register profileOf modelIo = .ok next) :
    (∀ name ∈ (profileOf modelIo).publicAliases, registry.aliases[name]? = none) ∧
    ∃ primary, (profileOf modelIo).publicAliases.head? = some primary ∧
      next.profiles = registry.profiles.insert primary (profileOf modelIo) ∧
      ∀ name, next.aliases[name]? = if name ∈ (profileOf modelIo).publicAliases
        then some modelIo else registry.aliases[name]? := by
  unfold ModelRegistry.register at h
  dsimp only at h
  split at h
  · cases h
  · rename_i primary rest hnames
    split at h
    · cases h
    · rename_i hfree
      cases h
      refine ⟨fun name hname => ?_, primary, by rw [hnames]; rfl, rfl,
        getElem?_foldl_insert _ _ _⟩
      have hnot := List.find?_eq_none.mp hfree name hname
      simpa using hnot

/-- A refused model has no alias, or one that is taken. -/
theorem register_eq_error {modelIo : Io} {error : ModelIoError}
    (h : registry.register profileOf modelIo = .error error) :
    (profileOf modelIo).publicAliases = [] ∨
      ∃ name ∈ (profileOf modelIo).publicAliases, (registry.aliases[name]?).isSome := by
  unfold ModelRegistry.register at h
  dsimp only at h
  split at h
  · rename_i hnames
    exact .inl hnames
  · split at h
    · rename_i name hfound
      refine .inr ⟨name, List.mem_of_find?_eq_some hfound, ?_⟩
      simpa using List.find?_some hfound
    · cases h

/-- Registering a model adds it to what the registry stands for. -/
theorem Holds.register {modelIo : Io} (hholds : Holds profileOf registry models)
    (h : registry.register profileOf modelIo = .ok next) :
    Holds profileOf next (models ++ [modelIo]) := by
  obtain ⟨hfree, primary, hprimary, hprofiles, haliases⟩ := register_eq_ok h
  have hmem : primary ∈ (profileOf modelIo).publicAliases := List.mem_of_mem_head? hprimary
  constructor
  · intro name other
    rw [haliases]
    split_ifs with hname
    · have hnone := hfree name hname
      constructor
      · rintro ⟨⟩
        exact ⟨by simp, hname⟩
      · rintro ⟨hother, hown⟩
        rcases List.mem_append.mp hother with hold | hnew
        · rw [(hholds.resolves name other).mpr ⟨hold, hown⟩] at hnone
          cases hnone
        · rw [List.mem_singleton.mp hnew]
    · rw [hholds.resolves]
      constructor
      · rintro ⟨hold, hown⟩
        exact ⟨List.mem_append_left _ hold, hown⟩
      · rintro ⟨hother, hown⟩
        rcases List.mem_append.mp hother with hold | hnew
        · exact ⟨hold, hown⟩
        · rw [List.mem_singleton.mp hnew] at hown
          exact absurd hown hname
  · intro name profile
    rw [hprofiles, TreeMap.getElem?_insert]
    split_ifs with hname
    · obtain rfl : primary = name := by simpa using hname
      constructor
      · rintro ⟨⟩
        exact ⟨modelIo, by simp, rfl, hprimary⟩
      · rintro ⟨other, hother, rfl, hhead⟩
        rcases List.mem_append.mp hother with hold | hnew
        · have hfound := (hholds.resolves primary other).mpr ⟨hold, List.mem_of_mem_head? hhead⟩
          rw [hfree primary hmem] at hfound
          cases hfound
        · rw [List.mem_singleton.mp hnew]
    · rw [hholds.lists]
      constructor
      · rintro ⟨other, hold, hrest⟩
        exact ⟨other, List.mem_append_left _ hold, hrest⟩
      · rintro ⟨other, hother, rfl, hhead⟩
        rcases List.mem_append.mp hother with hold | hnew
        · exact ⟨other, hold, rfl, hhead⟩
        · rw [List.mem_singleton.mp hnew, hprimary] at hhead
          exact absurd (by simpa using hhead) hname
  · intro other hother
    rcases List.mem_append.mp hother with hold | hnew
    · exact hholds.named other hold
    · rw [List.mem_singleton.mp hnew]
      exact List.ne_nil_of_mem hmem

/-- Whatever attempts were made, the registry holds models of them, in order. Another model has
no alias, or one that is held. -/
theorem exists_holds (attempts : List Io) :
    ∃ models : List Io, models.Sublist attempts ∧
      Holds profileOf (ModelRegistry.afterAttempts profileOf attempts) models ∧
      ∀ modelIo ∈ attempts, modelIo ∉ models → (profileOf modelIo).publicAliases = [] ∨
        ∃ name ∈ (profileOf modelIo).publicAliases, ∃ other ∈ models,
          name ∈ (profileOf other).publicAliases := by
  unfold ModelRegistry.afterAttempts
  induction attempts using List.reverseRecOn with
  | nil => exact ⟨[], List.Sublist.refl _, .empty, by simp⟩
  | append_singleton attempts modelIo ih =>
    obtain ⟨models, hsublist, hholds, hrefused⟩ := ih
    rw [List.foldl_append, List.foldl_cons, List.foldl_nil]
    generalize attempts.foldl (ModelRegistry.attempt profileOf) {} = registry at hholds
    unfold ModelRegistry.attempt
    cases hregister : registry.register profileOf modelIo with
    | error error =>
      refine ⟨models, hsublist.trans (List.sublist_append_left _ _), hholds, ?_⟩
      intro other hother hnot
      rcases List.mem_append.mp hother with hold | hnew
      · exact hrefused other hold hnot
      · rw [List.mem_singleton.mp hnew]
        refine (register_eq_error hregister).imp_right ?_
        rintro ⟨name, hname, htaken⟩
        obtain ⟨holder, hholder⟩ := Option.isSome_iff_exists.mp htaken
        exact ⟨name, hname, holder, (hholds.resolves name holder).mp hholder⟩
    | ok next =>
      refine ⟨models ++ [modelIo], hsublist.append (List.Sublist.refl _),
        hholds.register hregister, ?_⟩
      intro other hother hnot
      rcases List.mem_append.mp hother with hold | hnew
      · refine (hrefused other hold fun h => hnot (List.mem_append_left _ h)).imp_right ?_
        rintro ⟨name, hname, holder, hholder, hown⟩
        exact ⟨name, hname, holder, List.mem_append_left _ hholder, hown⟩
      · exact absurd (List.mem_append_right _ hnew) hnot

/-- Looking up an alias finds the model that has it. -/
theorem Holds.resolve_eq_ok (hholds : Holds profileOf registry models) {name : String}
    {modelIo : Io} :
    registry.resolve name = .ok modelIo ↔
      modelIo ∈ models ∧ name ∈ (profileOf modelIo).publicAliases := by
  rw [← hholds.resolves, ModelRegistry.resolve]
  cases registry.aliases[name]? <;> simp

/-- The profiles that are listed are those of the models held. -/
theorem Holds.mem_profileList (hholds : Holds profileOf registry models)
    {profile : ModelProfile} :
    profile ∈ registry.profileList ↔ ∃ modelIo ∈ models, profileOf modelIo = profile := by
  have hlisted : profile ∈ registry.profileList ↔
      ∃ name : String, registry.profiles[name]? = some profile := by
    simp [ModelRegistry.profileList, TreeMap.mem_toList_iff_getElem?_eq_some]
  rw [hlisted]
  constructor
  · rintro ⟨name, hfound⟩
    obtain ⟨modelIo, hmodel, hprofile, -⟩ := (hholds.lists name profile).mp hfound
    exact ⟨modelIo, hmodel, hprofile⟩
  · rintro ⟨modelIo, hmodel, rfl⟩
    obtain ⟨primary, rest, hnames⟩ := List.exists_cons_of_ne_nil (hholds.named modelIo hmodel)
    exact ⟨primary, (hholds.lists primary _).mpr ⟨modelIo, hmodel, rfl, by rw [hnames]; rfl⟩⟩

/-- Whatever attempts were made, an alias leads to the one model that holds it, and the models
that hold aliases are listed. A model that holds none was refused: it has no alias, or one that
another model holds. -/
theorem resolve_after_attempts (attempts : List Io) :
    ∃ models : List Io, models.Sublist attempts ∧
      (∀ name modelIo,
        (ModelRegistry.afterAttempts profileOf attempts).resolve name = .ok modelIo ↔
          modelIo ∈ models ∧ name ∈ (profileOf modelIo).publicAliases) ∧
      (∀ profile, profile ∈ (ModelRegistry.afterAttempts profileOf attempts).profileList ↔
        ∃ modelIo ∈ models, profileOf modelIo = profile) ∧
      ∀ modelIo ∈ attempts, modelIo ∉ models → (profileOf modelIo).publicAliases = [] ∨
        ∃ name ∈ (profileOf modelIo).publicAliases, ∃ other ∈ models,
          name ∈ (profileOf other).publicAliases := by
  obtain ⟨models, hsublist, hholds, hrefused⟩ := @exists_holds Io profileOf attempts
  exact ⟨models, hsublist, fun _ _ => hholds.resolve_eq_ok, fun _ => hholds.mem_profileList,
    hrefused⟩

end Locus.ModelIo
