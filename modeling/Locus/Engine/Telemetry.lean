import Locus.Engine.Completion
import Locus.Engine.Prometheus
import Locus.Lib.Dialogue

/-!
# What a remote engine reports

`RemoteCompletionAdapter` reads the metrics of its engine, keeps what it has read, and reports it
in snapshots. A snapshot asks for the health of the engine and for the time, and either takes
what was read a short while ago or reads the metrics again. All snapshots of an adapter share
what was read. Floats are known by what is done with them.
-/

namespace Locus.Engine

open Std (ExtTreeMap)
open Locus.Core Locus.Lib Locus.Store

section Config

structure RemoteTelemetryConfig where
  metricsPath : String := "/metrics"
  requestTimeoutMillis : UInt64 := 2000
  minScrapeIntervalMillis : UInt64 := 500
  validForMillis : UInt64 := 5000
  maxResponseBytes : ℕ := 2 * 1024 * 1024
  maxSamples : ℕ := 20000
  requireFreshMetrics : Bool := false
  deriving DecidableEq

/-- A model of the remote engine, and the target that it is known by. -/
structure RemoteExecutionTarget where
  servedModel : String
  target : ExecutionTarget
  deriving DecidableEq

/-- The parts of an engine instance that the adapter reads. -/
structure EngineInstance where
  reference : EngineInstanceRef
  healthEndpoint : Option String
  deriving DecidableEq

structure RemoteEngineConfig where
  baseUrl : String
  engineInstance : EngineInstance
  targets : List RemoteExecutionTarget
  telemetry : RemoteTelemetryConfig
  deriving DecidableEq

/-- `trim().is_empty()` -/
def isBlank (text : String) : Bool := text.toList.all isWhitespace

/-- The checks of the targets, with the identifiers and models before them. -/
def validateTargets (reference : EngineInstanceRef) (targetIds servedModels : Finset String) :
    List RemoteExecutionTarget → Except EngineError Unit
  | [] => .ok ()
  | candidate :: rest =>
    if candidate.target.engine ≠ reference then
      .error (.execution "remote target generation does not match engine instance")
    else if isBlank candidate.servedModel then
      .error (.execution "remote served model must not be empty")
    else if candidate.target.id ∈ targetIds then
      .error (.execution ("duplicate remote target id: " ++ candidate.target.id))
    else if candidate.servedModel ∈ servedModels then
      .error (.execution ("duplicate remote served model: " ++ candidate.servedModel))
    else
      validateTargets reference (insert candidate.target.id targetIds)
        (insert candidate.servedModel servedModels) rest

/-- The checks of `RemoteCompletionAdapter::new`. -/
def RemoteEngineConfig.validate (config : RemoteEngineConfig) : Except EngineError Unit :=
  let telemetry := config.telemetry
  if isBlank config.baseUrl then
    .error (.execution "remote engine base URL must not be empty")
  else if config.targets = [] then
    .error (.execution "remote engine must have at least one model candidate")
  else if isBlank telemetry.metricsPath ∨ telemetry.requestTimeoutMillis = 0 ∨
      telemetry.minScrapeIntervalMillis = 0 ∨ telemetry.validForMillis = 0 ∨
      telemetry.maxResponseBytes = 0 ∨ telemetry.maxSamples = 0 then
    .error (.execution "remote telemetry limits and metrics path must be non-empty and non-zero")
  else validateTargets config.engineInstance.reference ∅ ∅ config.targets

/-- An adapter has a configuration that `RemoteCompletionAdapter::new` accepts. -/
structure RemoteCompletionAdapter where
  config : RemoteEngineConfig
  flavor : RuntimeFlavor
  accepted : config.validate = .ok ()

/-- `RemoteCompletionAdapter::endpoint` -/
def RemoteEngineConfig.endpoint (config : RemoteEngineConfig) (path : String) : String :=
  String.ofList (config.baseUrl.toList.rdropWhile (· = '/')) ++ path

/-- `RemoteCompletionAdapter::metrics_endpoint` -/
def RemoteEngineConfig.metricsEndpoint (config : RemoteEngineConfig) : String :=
  let path := config.telemetry.metricsPath
  if "http://".toList <+: path.toList ∨ "https://".toList <+: path.toList then path
  else config.endpoint (String.ofList ('/' :: path.toList.dropWhile (· = '/')))

/-- Where the health of the engine is asked for. -/
def RemoteEngineConfig.healthEndpoint (config : RemoteEngineConfig) : String :=
  config.engineInstance.healthEndpoint.getD (config.endpoint "/health")

/-- `RemoteCompletionAdapter::target_config` -/
def RemoteEngineConfig.targetConfig (config : RemoteEngineConfig) (target : ExecutionTarget) :
    Except EngineError RemoteExecutionTarget :=
  match config.targets.find? fun candidate => candidate.target = target with
  | some candidate => .ok candidate
  | none => .error (.targetNotFound target.id)

end Config

section Metrics

/-- What is done with floats, and the texts of errors of the standard library. -/
structure Platform (F : Type) where
  parse : List Char → Option F
  isFinite : F → Bool
  isNonnegative : F → Bool
  isLess : F → F → Bool
  sum : List F → F
  max : F → F → F
  ratePerSecond : (current previous : F) → (elapsedMillis : UInt64) → F
  nonnegativeU64 : F → Option UInt64
  secondsToMicros : F → Option UInt64
  ratioToPermyriad : F → Option UInt16
  quoteName : List Char → String
  utf8Error : List UInt8 → String

structure TargetTelemetry where
  runningRequests : Option UInt64 := none
  waitingRequests : Option UInt64 := none
  estimatedQueueMicros : Option UInt64 := none
  kvCacheUsagePermyriad : Option UInt16 := none
  prefillTokensPerSecond : Option UInt64 := none
  decodeTokensPerSecond : Option UInt64 := none
  deriving DecidableEq

structure MetricCounters (F : Type) where
  promptTokens : Option F
  generationTokens : Option F

structure CounterBaseline (F : Type) where
  observedAtUnixMillis : UInt64
  promptTokens : Option F
  generationTokens : Option F

/-- `TargetTelemetry::confidence` -/
def TargetTelemetry.confidence (telemetry : TargetTelemetry) : TelemetryConfidence :=
  let scheduler := telemetry.runningRequests.isSome && telemetry.waitingRequests.isSome
  let rates := telemetry.prefillTokensPerSecond.isSome || telemetry.decodeTokensPerSecond.isSome
  if scheduler && rates then .high
  else if scheduler then .medium
  else if rates || telemetry.kvCacheUsagePermyriad.isSome then .low
  else .unknown

variable {F : Type} (platform : Platform F)

/-- `sample_matches_model`: the sample is labelled with the model, or with none. -/
def sampleMatchesModel (sample : PrometheusSample F) (servedModel : String) : Bool :=
  let observed := ["model_name", "model", "served_model_name"].filterMap (sample.labels[·]?)
  observed.contains servedModel || observed.isEmpty

/-- The usable values of a metric. -/
def matchingValues (samples : List (PrometheusSample F)) (name servedModel : String) : List F :=
  ((samples.filter fun sample => sample.name == name && sampleMatchesModel sample servedModel).map
    (·.value)).filter fun value => platform.isFinite value && platform.isNonnegative value

/-- `metric_sum` -/
def metricSum (samples : List (PrometheusSample F)) (names : List String) (servedModel : String) :
    Option F :=
  names.findSome? fun name =>
    match matchingValues platform samples name servedModel with
    | [] => none
    | matching => some (platform.sum matching)

/-- `metric_max` -/
def metricMax (samples : List (PrometheusSample F)) (names : List String) (servedModel : String) :
    Option F :=
  names.findSome? fun name =>
    match matchingValues platform samples name servedModel with
    | [] => none
    | value :: rest => some (rest.foldl platform.max value)

/-- `counter_rate` -/
def counterRate (current previous : Option F) (elapsedMillis : Option UInt64) : Option UInt64 :=
  match current, previous, elapsedMillis with
  | some current, some previous, some elapsedMillis =>
    if !platform.isFinite current || !platform.isFinite previous || platform.isLess current previous ||
        elapsedMillis == 0 then none
    else platform.nonnegativeU64 (platform.ratePerSecond current previous elapsedMillis)
  | _, _, _ => none

/-- A name in both of its spellings. -/
def spellings (engine metric : String) : List String :=
  [engine ++ ":" ++ metric, engine ++ "_" ++ metric]

def RuntimeFlavor.asStr : RuntimeFlavor → String
  | sglang => "sglang"
  | vllm => "vllm"

/-- The names of the metrics of an engine, the preferred ones first. -/
structure MetricNames where
  running : List String
  waiting : List String
  kv : List String
  directDecode : List String
  prompt : List String
  generation : List String

def RuntimeFlavor.metricNames : RuntimeFlavor → MetricNames
  | sglang => {
      running := spellings "sglang" "num_running_reqs"
      waiting := spellings "sglang" "num_queue_reqs"
      kv := spellings "sglang" "token_usage" ++ spellings "sglang" "full_token_usage"
      directDecode := spellings "sglang" "gen_throughput"
      prompt := spellings "sglang" "prompt_tokens_total" ++ spellings "sglang" "input_tokens_total"
      generation := spellings "sglang" "generation_tokens_total" ++
        spellings "sglang" "output_tokens_total" }
  | vllm => {
      running := spellings "vllm" "num_requests_running"
      waiting := spellings "vllm" "num_requests_waiting"
      kv := spellings "vllm" "kv_cache_usage_perc" ++ spellings "vllm" "gpu_cache_usage_perc"
      directDecode := []
      prompt := spellings "vllm" "prompt_tokens_total" ++ spellings "vllm" "prompt_tokens"
      generation := spellings "vllm" "generation_tokens_total" ++
        spellings "vllm" "generation_tokens" }

/-- `metric_counters` -/
def metricCounters (flavor : RuntimeFlavor) (samples : List (PrometheusSample F))
    (servedModel : String) : MetricCounters F where
  promptTokens := metricSum platform samples flavor.metricNames.prompt servedModel
  generationTokens := metricSum platform samples flavor.metricNames.generation servedModel

/-- `target_telemetry` -/
def targetTelemetry (flavor : RuntimeFlavor) (samples : List (PrometheusSample F))
    (servedModel : String) (previous : Option (CounterBaseline F)) (counters : MetricCounters F)
    (observedAtUnixMillis : UInt64) : TargetTelemetry :=
  let names := flavor.metricNames
  let elapsedMillis := previous.map fun baseline =>
    saturatingSub observedAtUnixMillis baseline.observedAtUnixMillis
  { runningRequests := (metricSum platform samples names.running servedModel).bind platform.nonnegativeU64
    waitingRequests := (metricSum platform samples names.waiting servedModel).bind platform.nonnegativeU64
    estimatedQueueMicros := (metricMax platform samples ["locus:estimated_queue_seconds",
      "sglang:estimated_queue_time_seconds", "vllm:estimated_queue_time_seconds"]
      servedModel).bind platform.secondsToMicros
    kvCacheUsagePermyriad := (metricMax platform samples names.kv servedModel).bind
      platform.ratioToPermyriad
    prefillTokensPerSecond := counterRate platform counters.promptTokens
      (previous.bind (·.promptTokens)) elapsedMillis
    decodeTokensPerSecond :=
      ((metricSum platform samples names.directDecode servedModel).bind platform.nonnegativeU64).or
        (counterRate platform counters.generationTokens (previous.bind (·.generationTokens))
          elapsedMillis) }

end Metrics

section Cache

/-- What was read at one time of all models. -/
structure CachedTelemetry where
  observedAtUnixMillis : UInt64
  revision : UInt64
  targets : ExtTreeMap String TargetTelemetry

structure TelemetryState (F : Type) where
  revision : UInt64 := 0
  cache : Option CachedTelemetry := none
  counters : ExtTreeMap String (CounterBaseline F) := ∅

/-- What was read of one model, and whether it is still valid. -/
structure CacheEntry where
  telemetry : TargetTelemetry
  observedAt : UInt64
  revision : UInt64
  status : TelemetryStatus
  deriving DecidableEq

variable {F : Type} (platform : Platform F) (adapter : RemoteCompletionAdapter)

/-- `cached_telemetry`, while it holds the lock -/
def cachedTelemetry (servedModel : String) (nowUnixMillis : UInt64)
    (cache : Option CachedTelemetry) : Option CacheEntry :=
  cache.bind fun cache =>
    cache.targets[servedModel]?.map fun telemetry =>
      let validUntil :=
        saturatingAdd cache.observedAtUnixMillis adapter.config.telemetry.validForMillis
      let status :=
        if cache.observedAtUnixMillis ≤ nowUnixMillis ∧ nowUnixMillis ≤ validUntil then
          TelemetryStatus.fresh
        else .stale
      ⟨telemetry, cache.observedAtUnixMillis, cache.revision, status⟩

/-- What is read of one model more. -/
def recordTarget (samples : List (PrometheusSample F)) (observedAtUnixMillis : UInt64)
    (recorded : ExtTreeMap String (CounterBaseline F) × ExtTreeMap String TargetTelemetry)
    (candidate : RemoteExecutionTarget) :
    ExtTreeMap String (CounterBaseline F) × ExtTreeMap String TargetTelemetry :=
  let servedModel := candidate.servedModel
  let counters := metricCounters platform adapter.flavor samples servedModel
  let telemetry := targetTelemetry platform adapter.flavor samples servedModel
    recorded.1[servedModel]? counters observedAtUnixMillis
  (recorded.1.insert servedModel
    ⟨observedAtUnixMillis, counters.promptTokens, counters.generationTokens⟩,
    recorded.2.insert servedModel telemetry)

/-- The end of `observe_telemetry`, while it holds the lock: all models are read, and the cache is
replaced if the model that was asked for is among them. -/
def recordTelemetry (servedModel : String) (samples : List (PrometheusSample F))
    (observedAtUnixMillis : UInt64) (state : TelemetryState F) :
    Except EngineError (TargetTelemetry × UInt64) × TelemetryState F :=
  let revision := saturatingAdd state.revision 1
  let recorded := adapter.config.targets.foldl
    (recordTarget platform adapter samples observedAtUnixMillis) (state.counters, ∅)
  match recorded.2[servedModel]? with
  | none =>
    (.error (.execution ("telemetry has no configured candidate for " ++ servedModel)),
      { state with revision, counters := recorded.1 })
  | some telemetry =>
    (.ok (telemetry, revision),
      { revision, cache := some ⟨observedAtUnixMillis, revision, recorded.2⟩
        counters := recorded.1 })

end Cache

section Calls

/-- How the clock answers: it is before the epoch, or this many milliseconds after it. -/
inductive ClockReading
  | beforeEpoch (error : String)
  | millis (elapsed : ℕ)

/-- `unix_millis` -/
def ClockReading.unixMillis : ClockReading → Except EngineError UInt64
  | beforeEpoch error => .error (.execution ("system clock precedes Unix epoch: " ++ error))
  | millis elapsed =>
    if elapsed < 2 ^ 64 then .ok (UInt64.ofNat elapsed)
    else .error (.execution "system clock exceeds telemetry range")

/-- How the engine answers when its metrics are read. -/
inductive ScrapeAnswer
  | sendError (error : String)
  | failure (status : String)
  | readError (error : String)
  | body (bytes : List UInt8)

variable {F : Type}

/-- What is read from an answer. -/
def ScrapeAnswer.samples (platform : Platform F) (config : RemoteTelemetryConfig) :
    ScrapeAnswer → Except EngineError (List (PrometheusSample F))
  | sendError error => .error (.execution ("telemetry request failed: " ++ error))
  | failure status => .error (.execution ("telemetry endpoint returned " ++ status))
  | readError error => .error (.execution ("telemetry response read failed: " ++ error))
  | body bytes =>
    if config.maxResponseBytes < bytes.length then
      .error (.execution ("telemetry response exceeds the " ++ toString config.maxResponseBytes ++
        "-byte limit"))
    else
      match fromUtf8? bytes with
      | none =>
        .error (.execution ("telemetry response is not UTF-8: " ++ platform.utf8Error bytes))
      | some text =>
        match parsePrometheus platform.parse text config.maxSamples with
        | .error error =>
          .error (.execution ("invalid telemetry: " ++ error.text platform.quoteName))
        | .ok samples => .ok samples

/-- Where `cached_telemetry` is called. -/
inductive CacheUse
  | beforeScrape
  | afterFailure
  deriving DecidableEq

/-- What a snapshot asks of its environment: the context, the engine, the clock, and the state
that it shares with other snapshots. -/
inductive TelemetryCall (F : Type)
  | ensureActive (context : OperationContext)
  | health (endpoint : String)
  | clock
  | scrape (endpoint : String)
  | cachedTelemetry (use : CacheUse) (servedModel : String) (nowUnixMillis : UInt64)
  | record (servedModel : String) (samples : List (PrometheusSample F))
      (observedAtUnixMillis : UInt64)

def TelemetryCall.Answer : TelemetryCall F → Type
  | ensureActive _ => Except ContextError Unit
  | health _ => Except String Bool
  | clock => ClockReading
  | scrape _ => ScrapeAnswer
  | cachedTelemetry _ _ _ => Except EngineError (Option CacheEntry)
  | record _ _ _ => Except EngineError (TargetTelemetry × UInt64)

/-- A conversation with the engine and the shared state. -/
abbrev TelemetryM (F α : Type) := Dialogue (TelemetryCall.Answer (F := F)) α

/-- Ask one question. -/
abbrev askTelemetry (question : TelemetryCall F) : TelemetryM F question.Answer :=
  Dialogue.call question

end Calls

section Snapshots

/-- An observation. The clock reading that it was served by is kept with it; the source drops
this reading. -/
structure Observation where
  telemetry : TargetTelemetry
  observedAt : UInt64
  revision : UInt64
  servedAt : UInt64

/-- A snapshot with the clock reading that it was served by. -/
structure Served where
  snapshot : EngineSnapshot
  servedAt : UInt64

variable {F : Type} (platform : Platform F) (adapter : RemoteCompletionAdapter)

/-- The part of `observe_telemetry` after the metrics are read. -/
def recordSamples (servedModel : String) :
    Except EngineError (List (PrometheusSample F)) → TelemetryM F (Except EngineError Observation)
  | .error error => return .error error
  | .ok samples => do
    let reading : ClockReading ← askTelemetry .clock
    match reading.unixMillis with
    | .error error => return .error error
    | .ok observedAt => do
      let recorded : Except EngineError (TargetTelemetry × UInt64) ←
        askTelemetry (.record servedModel samples observedAt)
      match recorded with
      | .error error => return .error error
      | .ok (telemetry, revision) => return .ok ⟨telemetry, observedAt, revision, observedAt⟩

/-- The part of `observe_telemetry` that reads the metrics. -/
def scrapeTelemetry (servedModel : String) : TelemetryM F (Except EngineError Observation) := do
  let answer : ScrapeAnswer ← askTelemetry (.scrape adapter.config.metricsEndpoint)
  recordSamples servedModel (answer.samples platform adapter.config.telemetry)

/-- What was read is younger than the interval between two scrapes. -/
def CacheEntry.isRecent (entry : CacheEntry) (config : RemoteTelemetryConfig)
    (nowUnixMillis : UInt64) : Bool :=
  saturatingSub nowUnixMillis entry.observedAt < config.minScrapeIntervalMillis

/-- `observe_telemetry` -/
def observeTelemetry (servedModel : String) : TelemetryM F (Except EngineError Observation) := do
  let reading : ClockReading ← askTelemetry .clock
  match reading.unixMillis with
  | .error error => return .error error
  | .ok now => do
    let cached : Except EngineError (Option CacheEntry) ←
      askTelemetry (.cachedTelemetry .beforeScrape servedModel now)
    match cached with
    | .error error => return .error error
    | .ok none => scrapeTelemetry platform adapter servedModel
    | .ok (some entry) =>
      -- the status of the entry is not looked at
      if entry.isRecent adapter.config.telemetry now then
        return .ok ⟨entry.telemetry, entry.observedAt, entry.revision, now⟩
      else scrapeTelemetry platform adapter servedModel

/-- The snapshot of an observation. -/
def engineSnapshot (target : ExecutionTarget) (healthReady : Bool) (telemetry : TargetTelemetry)
    (observedAt revision : UInt64) (status : TelemetryStatus) (reason : Option String) :
    EngineSnapshot :=
  let fresh := status == .fresh
  { targetId := target.id
    ready := healthReady && (!adapter.config.telemetry.requireFreshMetrics || fresh)
    telemetryStatus := status
    telemetryConfidence := if fresh then telemetry.confidence else .unknown
    telemetrySource := "prometheus:" ++ adapter.flavor.asStr
    observedAtUnixMillis := observedAt
    validUntilUnixMillis := saturatingAdd observedAt adapter.config.telemetry.validForMillis
    runningRequests := telemetry.runningRequests
    waitingRequests := telemetry.waitingRequests
    estimatedQueueMicros := telemetry.estimatedQueueMicros
    kvCacheUsagePermyriad := telemetry.kvCacheUsagePermyriad
    prefillTokensPerSecond := telemetry.prefillTokensPerSecond
    decodeTokensPerSecond := telemetry.decodeTokensPerSecond
    observationRevision := revision
    degradedReason := reason }

/-- The end of `snapshot`: the snapshot of what was observed, or after a failure of what was read
earlier. -/
def finishSnapshot (target : ExecutionTarget) (servedModel : String) (healthReady : Bool)
    (now : UInt64) : Except EngineError Observation → TelemetryM F (Except EngineError Served)
  | .ok observation =>
    return .ok ⟨engineSnapshot adapter target healthReady observation.telemetry
      observation.observedAt observation.revision .fresh none, observation.servedAt⟩
  | .error error => do
    let cached : Except EngineError (Option CacheEntry) ←
      askTelemetry (.cachedTelemetry .afterFailure servedModel now)
    match cached with
    | .error error => return .error error
    | .ok (some entry) =>
      return .ok ⟨engineSnapshot adapter target healthReady entry.telemetry entry.observedAt
        entry.revision entry.status (some error.text), now⟩
    | .ok none =>
      return .ok ⟨engineSnapshot adapter target healthReady {} now 0 .unavailable
        (some error.text), now⟩

/-- The part of `snapshot` after the clock is read. -/
def snapshotAt (target : ExecutionTarget) (servedModel : String) (healthReady : Bool)
    (now : UInt64) : TelemetryM F (Except EngineError Served) := do
  let observed ← observeTelemetry platform adapter servedModel
  finishSnapshot adapter target servedModel healthReady now observed

/-- `snapshot` -/
def snapshot (target : ExecutionTarget) (context : OperationContext) :
    TelemetryM F (Except EngineError Served) := do
  let active : Except ContextError Unit ← askTelemetry (.ensureActive context)
  match active with
  | .error error => return .error (.context error)
  | .ok () =>
    match adapter.config.targetConfig target with
    | .error error => return .error error
    | .ok candidate => do
      let health : Except String Bool ← askTelemetry (.health adapter.config.healthEndpoint)
      match health with
      | .error error => return .error (.execution ("health request failed: " ++ error))
      | .ok healthReady => do
        let reading : ClockReading ← askTelemetry .clock
        match reading.unixMillis with
        | .error error => return .error error
        | .ok now => snapshotAt platform adapter target candidate.servedModel healthReady now

end Snapshots

end Locus.Engine
