import Locus.Engine.NormalizedBody
import Locus.Runtime.Routability
import Locus.Server.Assembly

/-!
# Requests go where the configuration says

Discovery over the engines of a deployment finds exactly the targets that the configuration binds
to the model of a request, as far as the engines list them. Each of them can be acquired. If the
server says that it is ready, the models that it is required to serve are served.
-/

namespace Locus.Server

open Std (TreeMap TreeSet)
open Locus.Core Locus.Engine Locus.Lib Locus.ModelIo Locus.Parser Locus.Runtime

section Deployment

/-- Ask the adapter of an engine. Only registered engines are asked. -/
def Engines.ask {α : Type} (engines : Engines) (id : EngineInstanceId)
    (question : RemoteCompletionAdapter → Except EngineError α) : Except EngineError α :=
  match engines.adapters[id]? with
  | none => .error (.targetNotFound id)
  | some adapter => question adapter

variable (upstream : EngineInstanceId → Except EngineError (List String))
  (observe : EngineInstanceId → ExecutionTarget → Except EngineError EngineSnapshot)

/-- The answers of the engines, given the models that each of them lists and what is observed of
a target that its adapter knows. -/
def Engines.answer (engines : Engines) : (question : AdapterCall) → question.Answer
  | .executionTargets id => engines.ask id fun adapter =>
    adapter.config.executionTargets (upstream id)
  | .capabilities id target => engines.ask id fun adapter => adapter.config.capabilities target
  | .snapshot id target => engines.ask id fun adapter => do
    let _ ← adapter.config.targetConfig target
    observe id target

/-- An engine is configured with a target and lists the model of it. -/
def Offers (byAlias : TreeMap String ModelExecutionIdentity) (engine : EngineSettings)
    (target : ExecutionTarget) : Prop :=
  ∃ bindings binding active, resolveEngineModels byAlias engine = .ok bindings ∧
    binding ∈ bindings ∧
    buildTarget byAlias engine engine.reference binding = .ok ⟨binding.upstreamModel, target⟩ ∧
    upstream engine.id = .ok active ∧ binding.upstreamModel ∈ active

variable {upstream observe} {byAlias : TreeMap String ModelExecutionIdentity}
  {settings : List EngineSettings} {engines : Engines}

theorem KnowsEngines.mem_routableAdapters (hknows : KnowsEngines byAlias settings engines)
    {id : EngineInstanceId} :
    id ∈ routableAdapters engines.entries ↔ ∃ engine ∈ settings, engine.id = id := by
  rw [Runtime.mem_routableAdapters]
  constructor
  · rintro ⟨entry, hentry, -⟩
    obtain ⟨engine, hmem, hid, -⟩ := (hknows.entries id entry).mp hentry
    exact ⟨engine, hmem, hid⟩
  · rintro ⟨engine, hmem, hid⟩
    exact ⟨_, (hknows.entries id _).mpr ⟨engine, hmem, hid, rfl⟩, rfl⟩

/-- What a target is known by to the adapter that reports it. -/
theorem KnowsEngines.reports (hknows : KnowsEngines byAlias settings engines)
    {id : EngineInstanceId} {target : ExecutionTarget} :
    ReportsTarget (engines.answer upstream observe) engines.entries id target ↔
      ∃ engine ∈ settings, engine.id = id ∧ Offers upstream byAlias engine target := by
  unfold ReportsTarget
  rw [hknows.mem_routableAdapters]
  constructor
  · rintro ⟨⟨engine, hmem, rfl⟩, targets, htargets, htarget⟩
    obtain ⟨adapter, hadapter, -, bindings, hbindings, hbuilt⟩ := hknows.adapters engine hmem
    have htargets : adapter.config.executionTargets (upstream engine.id) = .ok targets := by
      simpa [targetsOf, Engines.answer, Engines.ask, hadapter] using htargets
    obtain ⟨active, hactive, hiff⟩ := mem_executionTargets htargets
    obtain ⟨candidate, hcandidate, hlisted, rfl⟩ := (hiff target).mp htarget
    obtain ⟨binding, hbinding, hbuild⟩ := (mem_mapM_eq_ok hbuilt).mp hcandidate
    have hserved : candidate.servedModel = binding.upstreamModel := (buildTarget_eq_ok hbuild).1
    rw [hserved] at hlisted
    refine ⟨engine, hmem, rfl, bindings, binding, active, hbindings, hbinding, ?_, hactive,
      hlisted⟩
    rw [hbuild, ← hserved]
  · rintro ⟨engine, hmem, rfl, bindings, binding, active, hbindings, hbinding, hbuild, hactive,
      hlisted⟩
    obtain ⟨adapter, hadapter, -, bindings', hbindings', hbuilt⟩ := hknows.adapters engine hmem
    rw [hbindings] at hbindings'
    cases hbindings'
    have hcandidate := (mem_mapM_eq_ok hbuilt).mpr ⟨binding, hbinding, hbuild⟩
    refine ⟨⟨engine, hmem, rfl⟩, ?_⟩
    cases htargets : adapter.config.executionTargets (upstream engine.id) with
    | error error =>
      rw [RemoteEngineConfig.executionTargets, hactive] at htargets
      cases htargets
    | ok targets =>
      refine ⟨targets, by simp [targetsOf, Engines.answer, Engines.ask, hadapter, htargets], ?_⟩
      obtain ⟨active', hactive', hiff⟩ := mem_executionTargets htargets
      rw [hactive] at hactive'
      cases hactive'
      exact (hiff target).mpr ⟨_, hcandidate, hlisted, rfl⟩

/-- A target that an engine offers is known to its adapter, with a model that the engine
lists. -/
theorem KnowsEngines.adapter (hknows : KnowsEngines byAlias settings engines)
    {engine : EngineSettings} (hmem : engine ∈ settings) {target : ExecutionTarget}
    (hoffers : Offers upstream byAlias engine target) :
    ∃ adapter candidate active, engines.adapters[engine.id]? = some adapter ∧
      adapter.config.targetConfig target = .ok candidate ∧
      upstream engine.id = .ok active ∧ candidate.servedModel ∈ active := by
  obtain ⟨bindings, binding, active, hbindings, hbinding, hbuild, hactive, hlisted⟩ := hoffers
  obtain ⟨adapter, hadapter, -, bindings', hbindings', hbuilt⟩ := hknows.adapters engine hmem
  rw [hbindings] at hbindings'
  cases hbindings'
  have hcandidate := (mem_mapM_eq_ok hbuilt).mpr ⟨binding, hbinding, hbuild⟩
  exact ⟨adapter, _, active, hadapter, adapter.targetConfig_eq hcandidate, hactive, hlisted⟩

variable (observe) in
/-- What an adapter answers for a target that its engine offers. -/
theorem KnowsEngines.known (hknows : KnowsEngines byAlias settings engines)
    {engine : EngineSettings} (hmem : engine ∈ settings) {target : ExecutionTarget}
    (hoffers : Offers upstream byAlias engine target) :
    capabilitiesOf (engines.answer upstream observe) engine.id target = .ok remoteCapabilities ∧
      snapshotOf (engines.answer upstream observe) engine.id target = observe engine.id target := by
  obtain ⟨adapter, candidate, -, hadapter, hfound, -⟩ := hknows.adapter hmem hoffers
  constructor
  · simp [capabilitiesOf, Engines.answer, Engines.ask, hadapter, RemoteEngineConfig.capabilities,
      hfound, Except.map]
  · simp [snapshotOf, Engines.answer, Engines.ask, hadapter, hfound, bind, Except.bind]

/-- The ids of the reported targets are distinct. -/
theorem KnowsEngines.distinct_answer (hknows : KnowsEngines byAlias settings engines) :
    Distinct (engines.answer upstream observe) engines.entries := by
  constructor
  · intro id targets htargets
    cases hadapter : engines.adapters[id]? with
    | none => simp [targetsOf, Engines.answer, Engines.ask, hadapter] at htargets
    | some adapter =>
      have htargets : adapter.config.executionTargets (upstream id) = .ok targets := by
        simpa [targetsOf, Engines.answer, Engines.ask, hadapter] using htargets
      exact adapter.nodup_executionTargets htargets
  · intro id id' target target' hreports hreports' hsame
    obtain ⟨engine, hmem, rfl, bindings, binding, -, hbindings, hbinding, hbuild, -⟩ :=
      hknows.reports.mp hreports
    obtain ⟨engine', hmem', rfl, bindings', binding', -, hbindings', hbinding', hbuild', -⟩ :=
      hknows.reports.mp hreports'
    obtain ⟨adapter, hadapter, -, own, hown, hbuilt⟩ := hknows.adapters engine hmem
    obtain ⟨adapter', hadapter', -, own', hown', hbuilt'⟩ := hknows.adapters engine' hmem'
    rw [hbindings] at hown
    rw [hbindings'] at hown'
    cases hown
    cases hown'
    exact hknows.apart engine.id engine'.id adapter adapter' hadapter hadapter' _
      ((mem_mapM_eq_ok hbuilt).mpr ⟨binding, hbinding, hbuild⟩) _
      ((mem_mapM_eq_ok hbuilt').mpr ⟨binding', hbinding', hbuild'⟩) hsame

/-- A target that an engine offers can be acquired. -/
theorem KnowsEngines.acquire (hknows : KnowsEngines byAlias settings engines)
    {engine : EngineSettings} (hmem : engine ∈ settings) {target : ExecutionTarget}
    (hoffers : Offers upstream byAlias engine target) (context : Registry.ExecutionContext) :
    ∃ permit next, Registry.acquireExecution engines.entries target context none =
      .ok (permit, next) := by
  obtain ⟨bindings, binding, active, -, -, hbuild, -, -⟩ := hoffers
  have hreference : target.engine = engine.reference := (buildTarget_eq_ok hbuild).2.2.1
  have hentry := (hknows.entries target.engine.id { generation := engine.generation }).mpr
    ⟨engine, hmem, by rw [hreference]; rfl, rfl⟩
  have hgeneration : engine.generation = target.engine.generation := by
    rw [hreference]
    rfl
  unfold Registry.acquireExecution
  rw [hentry]
  simp [hgeneration]

end Deployment

section Deployed

variable {serde : Serde} {platform : ModelIo.Platform serde.Value} {files : ModelIo.Files}
  {directory : String} {environment : String → VariableValue}
  {config : DeploymentConfig serde.Value} {deployment : Deployment}
  {upstream : EngineInstanceId → Except EngineError (List String)}
  {observe : EngineInstanceId → ExecutionTarget → Except EngineError EngineSnapshot}

/-- One model. -/
def sampleSettings : ModelSettings sampleSerde.Value where
  aliases := ["a"]
  modelRevision := "revision"
  tokenizerJson := "tokenizer.json"
  tokenizerRevision := "unversioned"
  chatTemplate := "template"
  templateRevision := "unversioned"

/-- An engine that serves the model. -/
def sampleEngine : EngineSettings where
  id := "engine"
  kind := .vllm
  baseUrl := "http://engine"
  modelMappings := [⟨"served", "a", none⟩]
  runtimeVersion := "1"
  adapterVersion := "1"

def sampleConfig : DeploymentConfig sampleSerde.Value where
  models := [sampleSettings]
  requiredModels := ["a"]
  engines := [sampleEngine]

/-- What the engine is asked for the model by. -/
def sampleBinding : ResolvedEngineModel := ⟨"served", "a", "engine/served"⟩

/-- The target of the model. -/
def sampleCandidate : RemoteExecutionTarget where
  servedModel := "served"
  target := {
    id := "engine/served"
    engine := ⟨"engine", 1⟩
    model := sampleSettings.executionIdentity
    role := .combined
    parallelLayout := ⟨1, 1, 1, "v1"⟩
    residency := "resident"
    capabilityRevision := "v1" }

/-- A request for the model. -/
def sampleRequest : CanonicalRequest where
  id := "request"
  model := sampleSettings.executionIdentity
  inputSemantics := ⟨⟨"tokenizer", "1", "a"⟩, ⟨"template", "1", "b"⟩, none⟩
  requirements := ⟨∅, false, false, false, false⟩

/-- What the adapter of the engine is made with. -/
def sampleRemote : RemoteEngineConfig where
  baseUrl := "http://engine"
  engineInstance := ⟨⟨"engine", 1⟩, none⟩
  targets := [sampleCandidate]
  telemetry := {}

theorem required_of_not_blank {field value : String} (h : Engine.isBlank value = false) :
    required field value = .ok value := by
  rw [required, h]
  rfl

theorem addModel_sample :
    ∃ models, addModel sampleSerde samplePlatform sampleFiles "" {} sampleSettings = .ok models ∧
      models.byAlias["a"]? = some sampleSettings.executionIdentity := by
  have hname : ModelIo.isBlank "a" = false := by decide
  obtain ⟨model, hload, -⟩ := loadHuggingfaceModelIo_sample hname
  have hspec : sampleSettings.spec "" sampleSettings.executionIdentity = sampleProfileSpec "a" := by
    have htokenizer : resolvePath "" "tokenizer.json" = "tokenizer.json" := by decide
    have htemplate : resolvePath "" "template" = "template" := by decide
    simp only [ModelSettings.spec, sampleSettings, htokenizer, htemplate]
    rfl
  obtain ⟨tokenizerBytes, templateBytes, -, -, hloaded⟩ := loadHuggingfaceModelIo_eq_ok hload
  have haliases : model.profile.publicAliases = ["a"] := hloaded.built.2.1
  have hregister : ∃ registry, ModelRegistry.register BasicModelIo.profile {} model =
      .ok registry := by
    simp [ModelRegistry.register, haliases]
  obtain ⟨registry, hregister⟩ := hregister
  have hrevision : required "models.model_revision" sampleSettings.modelRevision =
      .ok sampleSettings.modelRevision := required_of_not_blank (by decide)
  have hprofile : required "models.execution_profile" sampleSettings.executionProfile =
      .ok sampleSettings.executionProfile := required_of_not_blank (by decide)
  have hadd : addModel sampleSerde samplePlatform sampleFiles "" {} sampleSettings =
      .ok ⟨registry, (∅ : TreeMap String ModelExecutionIdentity).insert "a"
        sampleSettings.executionIdentity⟩ := by
    unfold addModel
    rw [hrevision, hprofile]
    change (do
      let modelIo ← (loadHuggingfaceModelIo sampleSerde samplePlatform sampleFiles
        (sampleSettings.spec "" sampleSettings.executionIdentity)).mapError ServerError.modelProfile
      let registry ← (ModelRegistry.register BasicModelIo.profile {} modelIo).mapError
        ServerError.modelIo
      return (⟨registry, _⟩ : Models)) = _
    rw [hspec, hload]
    change (do
      let registry ← (ModelRegistry.register BasicModelIo.profile {} model).mapError
        ServerError.modelIo
      return (⟨registry, _⟩ : Models)) = _
    rw [hregister]
    rfl
  exact ⟨_, hadd, TreeMap.getElem?_insert_self⟩

theorem resolveEngineModels_sample (byAlias : TreeMap String ModelExecutionIdentity) :
    resolveEngineModels byAlias sampleEngine = .ok [sampleBinding] :=
  rfl

theorem buildTarget_sample {byAlias : TreeMap String ModelExecutionIdentity}
    (hknown : byAlias["a"]? = some sampleSettings.executionIdentity) :
    buildTarget byAlias sampleEngine sampleEngine.reference sampleBinding =
      .ok sampleCandidate := by
  have hknown : byAlias[sampleBinding.profile]? = some sampleSettings.executionIdentity := hknown
  unfold buildTarget
  rw [hknown]
  rfl

/-- The sample engine is added where its model is known. -/
theorem addEngine_sample {byAlias : TreeMap String ModelExecutionIdentity}
    (hknown : byAlias["a"]? = some sampleSettings.executionIdentity) :
    ∃ engines, addEngine byAlias (fun _ => .notPresent) {} sampleEngine = .ok engines := by
  have htargets : buildTargets byAlias sampleEngine sampleEngine.reference [sampleBinding] ∅ =
      .ok ([sampleCandidate], {"engine/served"}) := by
    rw [buildTargets, if_neg (Finset.notMem_empty _), buildTarget_sample hknown]
    rfl
  have hvalid : sampleRemote.validate = .ok () := by decide
  have hremote : newAdapter ⟨sampleEngine.baseUrl, ⟨⟨sampleEngine.id, sampleEngine.generation⟩,
      sampleEngine.healthEndpoint⟩, [sampleCandidate], sampleEngine.telemetry⟩ sampleEngine.kind =
      .ok ⟨sampleRemote, .vllm, hvalid⟩ := by
    unfold newAdapter
    split
    · rename_i hrefused
      have haccepted : sampleRemote.validate = .error _ := hrefused
      rw [hvalid] at haccepted
      cases haccepted
    · rfl
  have hsecret : resolveOptionalSecret (fun _ => .notPresent) sampleEngine.apiKeyEnv =
      .ok none := rfl
  have hrequired : ∀ field, ∀ value ∈ [sampleEngine.id, sampleEngine.runtimeVersion,
      sampleEngine.adapterVersion, sampleEngine.topology, sampleEngine.hardware,
      sampleEngine.baseUrl], required field value = .ok value := by
    intro field value hmem
    refine required_of_not_blank ?_
    revert value
    decide
  unfold addEngine
  rw [if_neg (Finset.notMem_empty _), if_neg (by decide), resolveEngineModels_sample]
  simp only [hrequired, List.mem_cons, true_or, or_true, bind, Except.bind]
  change ∃ engines, Except.bind (buildTargets byAlias sampleEngine sampleEngine.reference
    [sampleBinding] ∅) _ = _
  rw [htargets]
  simp only [Except.bind, hsecret, hremote]
  exact ⟨_, rfl⟩

/-- The sample configuration is accepted. -/
theorem deploy_sample :
    ∃ deployment, deploy sampleSerde samplePlatform sampleFiles "" (fun _ => .notPresent)
        sampleConfig = .ok deployment ∧
      deployment.models.byAlias["a"]? = some sampleSettings.executionIdentity := by
  obtain ⟨models, hmodels, hknown⟩ := addModel_sample
  obtain ⟨engines, hengines⟩ := addEngine_sample hknown
  have hbuild : buildModels sampleSerde samplePlatform sampleFiles "" sampleConfig.models =
      .ok models := by
    change addModel sampleSerde samplePlatform sampleFiles "" {} sampleSettings >>= _ = _
    rw [hmodels]
    rfl
  have hfold : sampleConfig.engines.foldlM (addEngine models.byAlias fun _ => .notPresent) {} =
      .ok engines := by
    change addEngine models.byAlias (fun _ => .notPresent) {} sampleEngine >>= _ = _
    rw [hengines]
    rfl
  have hrequired : ∃ names, checkRequired models.byAlias sampleConfig.requiredModels =
      .ok names := by
    have hcontains : models.byAlias.contains "a" = true := by
      rw [TreeMap.contains_eq_isSome_getElem?, hknown]
      rfl
    have hknown : (["a"].find? fun name => !models.byAlias.contains name) = none := by
      simp [hcontains]
    have hnames : sampleConfig.requiredModels.mapM (required "required_models") = .ok ["a"] := rfl
    have hordered : (TreeSet.ofList ["a"]).toList = ["a"] := rfl
    unfold checkRequired
    rw [hnames]
    refine ⟨["a"], ?_⟩
    simp only [bind, Except.bind, hordered, hknown]
  obtain ⟨names, hnames⟩ := hrequired
  refine ⟨⟨models, names, engines⟩, ?_, hknown⟩
  unfold deploy
  rw [if_neg (by simp [sampleConfig]), if_neg (by simp [sampleConfig]), hbuild]
  change (do
    let requiredModels ← checkRequired models.byAlias sampleConfig.requiredModels
    let engines ← sampleConfig.engines.foldlM (addEngine models.byAlias fun _ => .notPresent) {}
    return (⟨models, requiredModels, engines⟩ : Deployment)) = _
  rw [hnames, hfold]
  rfl

/-- The engine lists its model. -/
def sampleUpstream : EngineInstanceId → Except EngineError (List String) := fun _ => .ok ["served"]

/-- Every target is ready. -/
def sampleObserve : EngineInstanceId → ExecutionTarget → Except EngineError EngineSnapshot :=
  fun _ target => .ok { targetId := target.id, ready := true, estimatedQueueMicros := none }

/-- What discovery finds. -/
def sampleFound : DiscoveredTarget :=
  ⟨sampleCandidate.target, remoteCapabilities,
    { targetId := sampleCandidate.target.id, ready := true, estimatedQueueMicros := none }⟩

theorem offers_sample {byAlias : TreeMap String ModelExecutionIdentity}
    (hknown : byAlias["a"]? = some sampleSettings.executionIdentity) :
    Offers sampleUpstream byAlias sampleEngine sampleCandidate.target :=
  ⟨_, sampleBinding, _, resolveEngineModels_sample byAlias, List.mem_singleton_self _,
    buildTarget_sample hknown, rfl, List.mem_singleton_self _⟩

theorem answer_sample {deployment : Deployment}
    (h : deploy sampleSerde samplePlatform sampleFiles "" (fun _ => .notPresent) sampleConfig =
      .ok deployment)
    (hknown : deployment.models.byAlias["a"]? = some sampleSettings.executionIdentity) :
    let world := deployment.engines.answer sampleUpstream sampleObserve
    ReportsTarget world deployment.engines.entries "engine" sampleFound.target ∧
      capabilitiesOf world "engine" sampleFound.target = .ok sampleFound.capabilities ∧
      snapshotOf world "engine" sampleFound.target = .ok sampleFound.snapshot := by
  obtain ⟨-, -, hengines⟩ := deploy_eq_ok h
  have hmem : sampleEngine ∈ sampleConfig.engines := List.mem_singleton_self _
  obtain ⟨hcapabilities, hsnapshot⟩ := hengines.known sampleObserve hmem (offers_sample hknown)
  exact ⟨hengines.reports.mpr ⟨sampleEngine, hmem, rfl, offers_sample hknown⟩, hcapabilities,
    hsnapshot⟩

/-- What discovery over a deployment finds. -/
theorem mem_discovered_iff
    (h : deploy serde platform files directory environment config = .ok deployment)
    {request : CanonicalRequest} {discovered : List DiscoveredTarget}
    (hdiscover : (discover request deployment.engines.entries).evaluate
      (deployment.engines.answer upstream observe) = .ok discovered)
    (found : DiscoveredTarget) :
    found ∈ discovered ↔
      found.target.model = request.model ∧ found.capabilities = remoteCapabilities ∧
        ∃ engine ∈ config.engines, Offers upstream deployment.models.byAlias engine found.target ∧
          observe engine.id found.target = .ok found.snapshot := by
  obtain ⟨-, -, hengines⟩ := deploy_eq_ok h
  rw [(evaluate_discover.1 discovered hdiscover).2, ok_mem_outcomes]
  constructor
  · rintro ⟨id, hreports, hmodel, hcapabilities, hsnapshot⟩
    obtain ⟨engine, hengine, rfl, hoffers⟩ := hengines.reports.mp hreports
    obtain ⟨hown, hobserved⟩ := hengines.known observe hengine hoffers
    rw [hown] at hcapabilities
    rw [hobserved] at hsnapshot
    exact ⟨hmodel, (Except.ok.inj hcapabilities).symm, engine, hengine, hoffers, hsnapshot⟩
  · rintro ⟨hmodel, hcapabilities, engine, hengine, hoffers, hsnapshot⟩
    obtain ⟨hown, hobserved⟩ := hengines.known observe hengine hoffers
    refine ⟨engine.id, hengines.reports.mpr ⟨engine, hengine, rfl, hoffers⟩, hmodel, ?_, ?_⟩
    · rw [hown, hcapabilities]
    · rw [hobserved, hsnapshot]

/-- Discovery over a deployment finds each target once: those that the configuration binds to
the model of the request, that their engine lists and that can be observed. Each of them is of
a registered model and can be acquired. -/
theorem deployment_discovers
    (h : deploy serde platform files directory environment config = .ok deployment)
    {request : CanonicalRequest} {discovered : List DiscoveredTarget}
    (hdiscover : (discover request deployment.engines.entries).evaluate
      (deployment.engines.answer upstream observe) = .ok discovered) :
    discovered.Pairwise (fun left right => left.target.id < right.target.id) ∧
    (∀ found, found ∈ discovered ↔
      found.target.model = request.model ∧ found.capabilities = remoteCapabilities ∧
        ∃ engine ∈ config.engines, Offers upstream deployment.models.byAlias engine found.target ∧
          observe engine.id found.target = .ok found.snapshot) ∧
    ∀ found ∈ discovered,
      (∃ name modelIo, deployment.models.registry.resolve name = .ok modelIo ∧
        modelIo.profile.model = found.target.model) ∧
      ∀ context, ∃ permit next, Registry.acquireExecution deployment.engines.entries
        found.target context none = .ok (permit, next) := by
  obtain ⟨⟨loaded, -, hmodels⟩, -, hengines⟩ := deploy_eq_ok h
  have hiff := mem_discovered_iff h hdiscover
  refine ⟨pairwise_discover hengines.distinct_answer hdiscover, hiff, fun found hfound => ?_⟩
  obtain ⟨-, -, engine, hengine, hoffers, -⟩ := (hiff found).mp hfound
  refine ⟨?_, hengines.acquire hengine hoffers⟩
  obtain ⟨bindings, binding, active, -, -, hbuild, -⟩ := hoffers
  have hknown := (buildTarget_eq_ok hbuild).2.2.2
  obtain ⟨modelIo, hloaded, hname, hmodel⟩ := (hmodels.byAlias _ _).mp hknown
  exact ⟨binding.profile, modelIo, hmodels.registry.resolve_eq_ok.mpr ⟨hloaded, hname⟩, hmodel⟩

/-- The sample deployment discovers its target. -/
theorem deployment_discovers_sample :
    ∃ deployment discovered, deploy sampleSerde samplePlatform sampleFiles ""
        (fun _ => .notPresent) sampleConfig = .ok deployment ∧
      (discover sampleRequest deployment.engines.entries).evaluate
        (deployment.engines.answer sampleUpstream sampleObserve) = .ok discovered ∧
      sampleFound ∈ discovered := by
  obtain ⟨deployment, h, hknown⟩ := deploy_sample
  obtain ⟨hreports, hcapabilities, hsnapshot⟩ := answer_sample h hknown
  have houtcome : .ok sampleFound ∈ outcomes
      (deployment.engines.answer sampleUpstream sampleObserve) deployment.engines.entries
      sampleRequest :=
    ok_mem_outcomes.mpr ⟨"engine", hreports, rfl, hcapabilities, hsnapshot⟩
  cases hdiscover : (discover sampleRequest deployment.engines.entries).evaluate
    (deployment.engines.answer sampleUpstream sampleObserve) with
  | error error => exact absurd houtcome ((evaluate_discover.2.mp ⟨error, hdiscover⟩).1 _)
  | ok discovered =>
    exact ⟨deployment, discovered, h, hdiscover, ((deployment_discovers h hdiscover).2.1 _).mpr
      ⟨rfl, rfl, sampleEngine, List.mem_singleton_self _, offers_sample hknown, rfl⟩⟩

end Deployed

end Locus.Server
