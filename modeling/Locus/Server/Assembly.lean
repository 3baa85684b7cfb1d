import Locus.Engine.RemoteTargets
import Locus.ModelIo.ProfileFingerprint
import Locus.Server.Deployment

/-!
# What an assembled server knows

The models of a configuration are registered under their aliases, and its engines under their
ids. No two engines have a target id in common, and each target is of a registered model.
-/

namespace Locus.Server

open Std (TreeMap TreeSet)
open Locus.Core Locus.Engine Locus.Lib Locus.ModelIo Locus.Parser

section Models

variable {serde : Serde} {platform : ModelIo.Platform serde.Value} {files : ModelIo.Files}
  {directory : String}

/-- A model was loaded as it was configured. -/
structure Loads (settings : ModelSettings serde.Value) (modelIo : BasicModelIo) : Prop where
  built : modelIo.Built
  aliases : modelIo.profile.publicAliases = settings.aliases
  model : modelIo.profile.model = settings.executionIdentity

/-- The registry and the aliases stand for these models. -/
structure KnowsModels (models : Models) (loaded : List BasicModelIo) : Prop where
  registry : Holds BasicModelIo.profile models.registry loaded
  byAlias : ∀ name identity, models.byAlias[name]? = some identity ↔
    ∃ modelIo ∈ loaded, name ∈ modelIo.profile.publicAliases ∧ modelIo.profile.model = identity

theorem required_eq_ok {field value result : String} (h : required field value = .ok result) :
    result = value := by
  unfold required at h
  split_ifs at h
  cases h
  rfl

/-- The aliases after those of one more model were inserted. -/
theorem getElem?_insertAliases (names : List String) (identity : ModelExecutionIdentity)
    (byAlias : TreeMap String ModelExecutionIdentity) (name : String) :
    (names.foldl (fun byAlias name => byAlias.insert name identity) byAlias)[name]? =
      if name ∈ names then some identity else byAlias[name]? :=
  getElem?_foldl_insert names identity byAlias name

theorem KnowsModels.addModel {models next : Models} {loaded : List BasicModelIo}
    {settings : ModelSettings serde.Value} (hknows : KnowsModels models loaded)
    (h : addModel serde platform files directory models settings = .ok next) :
    ∃ modelIo, Loads settings modelIo ∧ KnowsModels next (loaded ++ [modelIo]) := by
  obtain ⟨modelRevision, hrevision, h⟩ := bind_eq_ok h
  obtain ⟨executionProfile, hprofile, h⟩ := bind_eq_ok h
  obtain ⟨modelIo, hload, h⟩ := bind_eq_ok h
  obtain ⟨registry, hregister, h⟩ := bind_eq_ok h
  cases h
  rw [required_eq_ok hrevision, required_eq_ok hprofile] at hload ⊢
  obtain ⟨tokenizerBytes, templateBytes, -, -, hloaded⟩ :=
    loadHuggingfaceModelIo_eq_ok (mapError_eq_ok hload)
  obtain ⟨hbuilt, haliases, hmodel⟩ := hloaded.built
  obtain ⟨hfree, -⟩ := register_eq_ok (mapError_eq_ok hregister)
  have haliases : modelIo.profile.publicAliases = settings.aliases := haliases
  have hmodel : modelIo.profile.model = settings.executionIdentity := hmodel
  refine ⟨modelIo, ⟨hbuilt, haliases, hmodel⟩, hknows.registry.register (mapError_eq_ok hregister),
    fun name identity => ?_⟩
  rw [getElem?_insertAliases, ← haliases]
  -- the names of the new model were free, so no old model has one of them
  have hfresh (hname : name ∈ modelIo.profile.publicAliases) (other : BasicModelIo)
      (hother : other ∈ loaded) : name ∉ other.profile.publicAliases := by
    intro hown
    have hfound := (hknows.registry.resolves name other).mpr ⟨hother, hown⟩
    rw [hfree name hname] at hfound
    cases hfound
  split_ifs with hname
  · constructor
    · rintro ⟨⟩
      exact ⟨modelIo, by simp, hname, hmodel⟩
    · rintro ⟨other, hother, hown, rfl⟩
      rcases List.mem_append.mp hother with hold | hnew
      · exact absurd hown (hfresh hname other hold)
      · rw [List.mem_singleton.mp hnew, hmodel]
        rfl
  · rw [hknows.byAlias]
    constructor
    · rintro ⟨other, hold, hrest⟩
      exact ⟨other, List.mem_append_left _ hold, hrest⟩
    · rintro ⟨other, hother, hown, hidentity⟩
      rcases List.mem_append.mp hother with hold | hnew
      · exact ⟨other, hold, hown, hidentity⟩
      · rw [List.mem_singleton.mp hnew] at hown
        exact absurd hown hname

/-- All configured models are loaded, and no others. -/
theorem KnowsModels.foldlM {models next : Models} {loaded : List BasicModelIo}
    {settings : List (ModelSettings serde.Value)} (hknows : KnowsModels models loaded)
    (h : settings.foldlM (Server.addModel serde platform files directory) models = .ok next) :
    ∃ added, settings.Forall₂ Loads added ∧ KnowsModels next (loaded ++ added) := by
  induction settings generalizing models loaded with
  | nil =>
    cases h
    exact ⟨[], .nil, by rwa [List.append_nil]⟩
  | cons first rest ih =>
    rw [List.foldlM_cons] at h
    obtain ⟨middle, hfirst, hrest⟩ := bind_eq_ok h
    obtain ⟨modelIo, hloads, hmiddle⟩ := hknows.addModel hfirst
    obtain ⟨added, hadded, hnext⟩ := ih hmiddle hrest
    refine ⟨modelIo :: added, .cons hloads hadded, ?_⟩
    rwa [List.append_assoc, List.singleton_append] at hnext

theorem buildModels_eq_ok {models : Models} {settings : List (ModelSettings serde.Value)}
    (h : buildModels serde platform files directory settings = .ok models) :
    ∃ loaded, settings.Forall₂ Loads loaded ∧ KnowsModels models loaded := by
  have hempty : KnowsModels {} [] := ⟨.empty, by simp⟩
  exact hempty.foldlM h

end Models

section Engines

variable {byAlias : TreeMap String ModelExecutionIdentity} {environment : String → VariableValue}

/-- The instance of a configured engine. -/
def EngineSettings.reference (engine : EngineSettings) : EngineInstanceRef :=
  ⟨engine.id, engine.generation⟩

/-- An adapter has one target for each model of its engine. -/
structure Binds (byAlias : TreeMap String ModelExecutionIdentity) (engine : EngineSettings)
    (adapter : RemoteCompletionAdapter) : Prop where
  reference : adapter.config.engineInstance.reference = engine.reference
  targets : ∃ bindings, resolveEngineModels byAlias engine = .ok bindings ∧
    bindings.mapM (buildTarget byAlias engine engine.reference) = .ok adapter.config.targets

/-- The adapters and the entries of the registry stand for these engines, which have no target
id in common. -/
structure KnowsEngines (byAlias : TreeMap String ModelExecutionIdentity)
    (settings : List EngineSettings) (engines : Engines) : Prop where
  distinct : (settings.map EngineSettings.id).Nodup
  engineIds : ∀ engine ∈ settings, engine.id ∈ engines.engineIds
  adapters : ∀ engine ∈ settings, ∃ adapter, engines.adapters[engine.id]? = some adapter ∧
    Binds byAlias engine adapter
  entries : ∀ id entry, engines.entries[id]? = some entry ↔
    ∃ engine ∈ settings, engine.id = id ∧ entry = { generation := engine.generation }
  targetIds : ∀ (id : EngineInstanceId) adapter, engines.adapters[id]? = some adapter →
    ∀ candidate ∈ adapter.config.targets, candidate.target.id ∈ engines.targetIds
  apart : ∀ (id id' : EngineInstanceId) adapter adapter', engines.adapters[id]? = some adapter →
    engines.adapters[id']? = some adapter' → ∀ candidate ∈ adapter.config.targets,
      ∀ candidate' ∈ adapter'.config.targets, candidate.target.id = candidate'.target.id → id = id'

/-- The target of a binding has the id of the binding and the model of its alias. -/
theorem buildTarget_eq_ok {engine : EngineSettings} {reference : EngineInstanceRef}
    {binding : ResolvedEngineModel} {candidate : RemoteExecutionTarget}
    (h : buildTarget byAlias engine reference binding = .ok candidate) :
    candidate.servedModel = binding.upstreamModel ∧ candidate.target.id = binding.targetId ∧
      candidate.target.engine = reference ∧
      byAlias[binding.profile]? = some candidate.target.model := by
  unfold buildTarget at h
  cases hmodel : byAlias[binding.profile]? with
  | none =>
    rw [hmodel] at h
    cases h
  | some model =>
    rw [hmodel] at h
    obtain ⟨_, ⟨⟩, h⟩ := bind_eq_ok h
    obtain ⟨_, -, h⟩ := bind_eq_ok h
    obtain ⟨_, -, h⟩ := bind_eq_ok h
    obtain ⟨_, -, h⟩ := bind_eq_ok h
    obtain ⟨_, -, h⟩ := bind_eq_ok h
    obtain ⟨_, -, h⟩ := bind_eq_ok h
    obtain ⟨_, -, h⟩ := bind_eq_ok h
    cases h
    exact ⟨rfl, rfl, rfl, rfl⟩

/-- The targets of an engine have ids that no target before them has. -/
theorem buildTargets_eq_ok {engine : EngineSettings} {reference : EngineInstanceRef}
    {bindings : List ResolvedEngineModel} {targetIds next : Finset String}
    {targets : List RemoteExecutionTarget}
    (h : buildTargets byAlias engine reference bindings targetIds = .ok (targets, next)) :
    bindings.mapM (buildTarget byAlias engine reference) = .ok targets ∧
      (∀ candidate ∈ targets, candidate.target.id ∉ targetIds ∧ candidate.target.id ∈ next) ∧
      targetIds ⊆ next := by
  induction bindings generalizing targetIds targets with
  | nil =>
    cases h
    exact ⟨rfl, by simp, subset_rfl⟩
  | cons binding bindings ih =>
    rw [buildTargets] at h
    split_ifs at h with hid
    obtain ⟨target, htarget, h⟩ := bind_eq_ok h
    obtain ⟨⟨rest, ids⟩, hrest, h⟩ := bind_eq_ok h
    cases h
    obtain ⟨hbuilt, hfresh, hsubset⟩ := ih hrest
    have hown : target.target.id = binding.targetId := (buildTarget_eq_ok htarget).2.1
    have hold := (Finset.subset_insert binding.targetId targetIds).trans hsubset
    refine ⟨mapM_cons_eq_ok.mpr ⟨target, rest, htarget, hbuilt, rfl⟩, fun candidate hmem => ?_,
      hold⟩
    rcases List.mem_cons.mp hmem with rfl | hmem
    · rw [hown]
      exact ⟨hid, hsubset (Finset.mem_insert_self _ _)⟩
    · obtain ⟨hnot, hnext⟩ := hfresh candidate hmem
      exact ⟨fun h => hnot (Finset.mem_insert_of_mem h), hnext⟩

theorem newAdapter_eq_ok {config : RemoteEngineConfig} {flavor : RuntimeFlavor}
    {adapter : RemoteCompletionAdapter} (h : newAdapter config flavor = .ok adapter) :
    adapter.config = config := by
  unfold newAdapter at h
  split at h
  · cases h
  · cases h
    rfl

/-- What adding an engine has checked and done. -/
theorem addEngine_eq_ok {engines next : Engines} {engine : EngineSettings}
    (h : addEngine byAlias environment engines engine = .ok next) :
    engine.id ∉ engines.engineIds ∧ engines.entries[engine.id]? = none ∧
    ∃ adapter bindings, resolveEngineModels byAlias engine = .ok bindings ∧
      buildTargets byAlias engine engine.reference bindings engines.targetIds =
        .ok (adapter.config.targets, next.targetIds) ∧
      adapter.config.engineInstance.reference = engine.reference ∧
      next.engineIds = insert engine.id engines.engineIds ∧
      next.adapters = engines.adapters.insert engine.id adapter ∧
      next.entries = engines.entries.insert engine.id { generation := engine.generation } := by
  unfold addEngine at h
  obtain ⟨hnew, h⟩ := guard_eq_ok h
  obtain ⟨-, h⟩ := guard_eq_ok h
  obtain ⟨id, hid, h⟩ := bind_eq_ok h
  obtain ⟨_, -, h⟩ := bind_eq_ok h
  obtain ⟨_, -, h⟩ := bind_eq_ok h
  obtain ⟨_, -, h⟩ := bind_eq_ok h
  obtain ⟨_, -, h⟩ := bind_eq_ok h
  obtain ⟨bindings, hbindings, h⟩ := bind_eq_ok h
  obtain ⟨⟨targets, targetIds⟩, htargets, h⟩ := bind_eq_ok h
  obtain ⟨baseUrl, -, h⟩ := bind_eq_ok h
  obtain ⟨_, -, h⟩ := bind_eq_ok h
  obtain ⟨adapter, hadapter, h⟩ := bind_eq_ok h
  obtain ⟨entries, hregister, h⟩ := bind_eq_ok h
  cases h
  obtain rfl := required_eq_ok hid
  have hconfig := newAdapter_eq_ok hadapter
  have hregister := mapError_eq_ok hregister
  unfold Registry.register at hregister
  split_ifs at hregister with hfree
  cases hregister
  refine ⟨hnew, ?_, adapter, bindings, hbindings, ?_, ?_, rfl, rfl, rfl⟩
  · simpa using hfree
  · rw [hconfig]
    exact htargets
  · rw [hconfig]
    rfl

theorem KnowsEngines.addEngine {settings : List EngineSettings} {engines next : Engines}
    {engine : EngineSettings} (hknows : KnowsEngines byAlias settings engines)
    (h : addEngine byAlias environment engines engine = .ok next) :
    KnowsEngines byAlias (settings ++ [engine]) next := by
  obtain ⟨hnew, hfree, adapter, bindings, hbindings, htargets, hreference, hengineIds, hadapters,
    hentries⟩ := addEngine_eq_ok h
  obtain ⟨hbuilt, hfresh, hsubset⟩ := buildTargets_eq_ok htargets
  have hother (other : EngineSettings) (hmem : other ∈ settings) : other.id ≠ engine.id := by
    intro hsame
    exact hnew (hsame ▸ hknows.engineIds other hmem)
  have hlookup (id : EngineInstanceId) :
      next.adapters[id]? = if engine.id = id then some adapter else engines.adapters[id]? := by
    rw [hadapters, TreeMap.getElem?_insert]
    simp
  constructor
  · rw [List.map_append, List.map_singleton, List.nodup_append]
    refine ⟨hknows.distinct, List.nodup_singleton _, ?_⟩
    intro id hid _ hown
    obtain ⟨other, hmem, rfl⟩ := List.mem_map.mp hid
    rw [List.mem_singleton.mp hown]
    exact hother other hmem
  · intro other hmem
    rw [hengineIds]
    rcases List.mem_append.mp hmem with hold | hlast
    · exact Finset.mem_insert_of_mem (hknows.engineIds other hold)
    · rw [List.mem_singleton.mp hlast]
      exact Finset.mem_insert_self _ _
  · intro other hmem
    rcases List.mem_append.mp hmem with hold | hlast
    · rw [hlookup, if_neg (hother other hold).symm]
      exact hknows.adapters other hold
    · rw [List.mem_singleton.mp hlast, hlookup, if_pos rfl]
      exact ⟨adapter, rfl, hreference, bindings, hbindings, hbuilt⟩
  · intro id entry
    rw [hentries, TreeMap.getElem?_insert]
    by_cases hid : engine.id = id
    · subst hid
      rw [if_pos (by simp)]
      constructor
      · rintro ⟨⟩
        exact ⟨engine, by simp, rfl, rfl⟩
      · rintro ⟨other, hmem, hsame, rfl⟩
        rcases List.mem_append.mp hmem with hold | hlast
        · exact absurd hsame (hother other hold)
        · rw [List.mem_singleton.mp hlast]
    · rw [if_neg (by simpa using hid), hknows.entries]
      constructor
      · rintro ⟨other, hold, hrest⟩
        exact ⟨other, List.mem_append_left _ hold, hrest⟩
      · rintro ⟨other, hmem, hsame, hentry⟩
        rcases List.mem_append.mp hmem with hold | hlast
        · exact ⟨other, hold, hsame, hentry⟩
        · rw [List.mem_singleton.mp hlast] at hsame
          exact absurd hsame hid
  · intro id other hfound candidate hcandidate
    rw [hlookup] at hfound
    split_ifs at hfound with hid
    · cases hfound
      exact (hfresh candidate hcandidate).2
    · exact hsubset (hknows.targetIds id other hfound candidate hcandidate)
  · intro id id' first second hfirst hsecond candidate hcandidate candidate' hcandidate' hsame
    rw [hlookup] at hfirst hsecond
    split_ifs at hfirst hsecond with hid hid' hid'
    · exact hid.symm.trans hid'
    · cases hfirst
      have hold := hknows.targetIds id' second hsecond candidate' hcandidate'
      exact absurd (hsame ▸ hold) (hfresh candidate hcandidate).1
    · cases hsecond
      have hold := hknows.targetIds id first hfirst candidate hcandidate
      exact absurd (hsame ▸ hold) (hfresh candidate' hcandidate').1
    · exact hknows.apart id id' first second hfirst hsecond candidate hcandidate candidate'
        hcandidate' hsame

theorem KnowsEngines.foldlM {settings added : List EngineSettings} {engines next : Engines}
    (hknows : KnowsEngines byAlias settings engines)
    (h : added.foldlM (Server.addEngine byAlias environment) engines = .ok next) :
    KnowsEngines byAlias (settings ++ added) next := by
  induction added generalizing settings engines with
  | nil =>
    cases h
    rwa [List.append_nil]
  | cons engine rest ih =>
    rw [List.foldlM_cons] at h
    obtain ⟨middle, hfirst, hrest⟩ := bind_eq_ok h
    have hnext := ih (hknows.addEngine hfirst) hrest
    rwa [List.append_assoc, List.singleton_append] at hnext

theorem KnowsEngines.empty : KnowsEngines byAlias [] {} := by
  constructor <;> simp

end Engines

section Deployed

variable {serde : Serde} {platform : ModelIo.Platform serde.Value} {files : ModelIo.Files}
  {directory : String} {environment : String → VariableValue}
  {config : DeploymentConfig serde.Value} {deployment : Deployment}

theorem deploy_eq_ok
    (h : deploy serde platform files directory environment config = .ok deployment) :
    (∃ loaded, config.models.Forall₂ Loads loaded ∧ KnowsModels deployment.models loaded) ∧
      checkRequired deployment.models.byAlias config.requiredModels =
        .ok deployment.requiredModels ∧
      KnowsEngines deployment.models.byAlias config.engines deployment.engines := by
  unfold deploy at h
  obtain ⟨-, h⟩ := guard_eq_ok h
  obtain ⟨-, h⟩ := guard_eq_ok h
  obtain ⟨models, hmodels, h⟩ := bind_eq_ok h
  obtain ⟨requiredModels, hrequired, h⟩ := bind_eq_ok h
  obtain ⟨engines, hengines, h⟩ := bind_eq_ok h
  cases h
  exact ⟨buildModels_eq_ok hmodels, hrequired, KnowsEngines.empty.foldlM hengines⟩

/-- The required models are those of the configuration. -/
theorem mem_checkRequired {byAlias : TreeMap String ModelExecutionIdentity}
    {names required : List String} (h : checkRequired byAlias names = .ok required)
    {name : String} : name ∈ required ↔ name ∈ names := by
  obtain ⟨checked, hchecked, h⟩ := bind_eq_ok h
  have hsame (other : String) : other ∈ checked ↔ other ∈ names := by
    rw [mem_mapM_eq_ok hchecked]
    constructor
    · rintro ⟨item, hitem, hok⟩
      rwa [required_eq_ok hok]
    · intro hmem
      obtain ⟨value, hvalue⟩ := exists_of_mapM_eq_ok hchecked hmem
      exact ⟨other, hmem, by rw [hvalue, required_eq_ok hvalue]⟩
  dsimp only at h
  split at h
  · cases h
  · cases h
    rw [← hsame, TreeSet.mem_toList, TreeSet.mem_ofList, List.contains_iff_mem]

end Deployed

end Locus.Server
