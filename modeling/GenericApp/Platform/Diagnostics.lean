import GenericApp.Platform.SessionReads
import Mathlib.Data.String.Basic

/-!
# The diagnostics of the platform

`DiagnosticsService.collect`: seven sections, each from its own probes, gathered. The platform section loads the
configuration through the cache, and the sections of PostgreSQL and of the index ask on the session of the request.

`pgvector_readiness` is a parameter, any coroutine. What the process reads of itself is given with the settings:
the gauges, the pool, the hosts without their credentials, and the injected faults. The polling of
`_wait_for_distributed_lock` is one call here.
-/

namespace GenericApp

open Py

/-- `OperationalState` -/
inductive OperationalState
  | healthy | degraded | unavailable | notRequired | unknown
  deriving DecidableEq

/-- A value of `metrics`. -/
inductive Metric
  | none
  | bool (b : Bool)
  | int (n : ℤ)
  | float (x : ℚ)
  | text (s : String)
  | list (xs : List Metric)
  | dict (entries : List (String × Metric))

namespace Metric

/-- An optional value. -/
def optional {α : Type} (f : α → Metric) (a : Option α) : Metric := a.elim none f

/-- A list of texts. -/
def texts (xs : List String) : Metric := list (xs.map text)

end Metric

/-- `DiagnosticsSection` -/
structure DiagnosticsSection where
  state : OperationalState
  detail : String
  metrics : List (String × Metric)

/-- `AiProviderDiagnostics` -/
structure AiProviderDiagnostics where
  key : String
  label : String
  configured : Bool
  state : OperationalState
  detail : String
  supportsGeneration : Bool
  supportsEmbeddings : Bool
  latencySummaryMs : Option ℚ

/-- The settings, and what the process reads of itself. -/
structure DiagnosticsSettings where
  appName : String
  appEnv : String
  appVersion : String
  gitCommit : String
  uptimeSeconds : ℚ
  startedAt : String
  ragEnabled : Bool
  celeryTaskAlwaysEager : Bool
  storageBucket : String
  storageRegion : String
  storageHost : Option String
  databaseHost : Option String
  redisHost : Option String
  openaiApiKey : String
  anthropicApiKey : String
  aiEmbeddingProvider : String
  pool : List (String × Metric)
  cacheHitRatio : Option ℚ
  cacheHits : Option ℚ
  cacheMisses : Option ℚ
  cacheErrors : Option ℚ
  workerFailedJobs : Option ℚ
  retrievalLatencyMsAvg : Option ℚ
  embeddingLatencyMsAvg : Option ℚ
  vectorUnavailableTotal : Option ℚ
  retrievalDegradedTotal : Option ℚ
  activeFaults : List String
  injectionPermitted : Bool
  failureInjectionEnabled : Bool
  grafanaBaseUrl : Option String
  tempoExploreUrl : Option String
  generatedAt : String

/-! ### States -/

/-- The rank of `_worst_state`. -/
def OperationalState.rank : OperationalState → ℕ
  | healthy | notRequired => 0
  | unknown => 1
  | degraded => 2
  | unavailable => 3

/-- `_worst_state`: the first of the worst. -/
def worstState : List OperationalState → OperationalState
  | [] => .unknown
  | state :: states => states.foldl (fun worst state ↦ if worst.rank < state.rank then state else worst) state

/-- `dependency_operational_state`, with what it does not know taken for unknown. -/
def dependencyOperationalState (checkValue : String) : OperationalState :=
  if checkValue = "ok" ∨ checkValue = "healthy" then .healthy
  else if checkValue = "error" ∨ checkValue = "unavailable" then .unavailable
  else if checkValue = "not_required" then .notRequired
  else if checkValue = "degraded" then .degraded
  else .unknown

/-- The text of a state. -/
def OperationalState.text : OperationalState → String
  | healthy => "healthy"
  | degraded => "degraded"
  | unavailable => "unavailable"
  | notRequired => "not_required"
  | unknown => "unknown"

section Service

variable {Row : AiTable → Type}
variable (E : DiagnosticsSettings)

/-! ### The platform -/

section Application

variable (C : PlatformCatalog) (D : PlatformDefaults)
  (resolve : String → List (String × Bool) → Except String (List String))

/-- What loading the configuration raises. -/
def ReadError.ofPlatform : PlatformError → ReadError
  | .http statusCode detail => .http statusCode detail
  | .keyError _ => .named "KeyError"

/-- `_load_platform_config` -/
def loadConfig : SharedRead Row PlatformConfig := do
  let T : AppSettings ← execute (.settingsByPrefix "platform.")
  match loadPlatformConfig C D resolve T with
  | .ok config => pure config
  | .error e => .raised (.ofPlatform e)

/-- `coordinated_cache_load` from the second look-up on, which is under the lock of the process. -/
def loadUnderLock : SharedRead Row (Option PlatformConfig) := do
  let cached : Option PlatformConfig ← elsewhere (.cachedConfig .second)
  match cached with
  | some config => pure (some config)
  | none => do
    let lock : LockOutcome ← elsewhere .waitForDistributedLock
    let load : SharedRead Row (Option PlatformConfig) := do
      let config ← loadConfig C D resolve
      let _ ← elsewhere (.cacheConfig config)
      pure (some config)
    match lock with
    | .filled => elsewhere (.cachedConfig .last)
    | .held token => load.tryFinally ((elsewhere (.releaseDistributedLock token)).tryCatch fun _ ↦ .done ())
    | .unavailable | .expired => load

/-- `get_platform_config` -/
def getPlatformConfigCached : SharedRead Row (Option PlatformConfig) := do
  let cached : Option PlatformConfig ← elsewhere (.cachedConfig .first)
  match cached with
  | some config => pure (some config)
  | none => do
    let _ ← elsewhere .singleflight
    loadUnderLock C D resolve

/-- `get_platform_metadata`, of which the section reads the active modules and the pack. -/
def platformMetadata : SharedRead Row (List String × Option String) := do
  let config ← getPlatformConfigCached C D resolve
  match config with
  | some config => pure (config.activeModules, some config.modulePack)
  | none => .raised (.named "AttributeError")

/-- `_application` -/
def application : SharedRead Row DiagnosticsSection := do
  let metadata ← (platformMetadata C D resolve).tryCatch fun _ ↦ .done ([], none)
  pure
    { state := .healthy
      detail := "Application process is serving diagnostics"
      metrics :=
        [("app_name", .text E.appName), ("environment", .text E.appEnv), ("version", .text E.appVersion),
          ("git_commit", .optional .text (given (some E.gitCommit))), ("uptime_seconds", .float E.uptimeSeconds),
          ("started_at", .text E.startedAt), ("module_pack", .optional .text metadata.2),
          ("enabled_modules", .texts metadata.1), ("async_jobs", .text "celery")] }

end Application

/-! ### PostgreSQL -/

variable (vector : SharedRead Row VectorReadiness)

/-- The section of an engine that answers. -/
def postgresqlSection (probe : EngineProbe) (vector : VectorReadiness) : DiagnosticsSection :=
  let state : OperationalState := if !vector.available && E.ragEnabled then .degraded else .healthy
  let vectorState : OperationalState :=
    if vector.available then .healthy else if !E.ragEnabled then .notRequired else .unavailable
  { state := state
    detail := if state = .healthy then "PostgreSQL reachable" else "PostgreSQL up; pgvector not ready"
    metrics :=
      [("connectivity", .text "ok"), ("latency_ms", .float probe.latencyMs),
        ("migration_revision", .optional .text probe.migrationRevision), ("pool", .dict E.pool),
        ("pgvector", .dict
          [("state", .text vectorState.text), ("available", .bool vector.available),
            ("reason", .optional .text vector.reason)]),
        ("database_host", .optional .text E.databaseHost)] }

/-- What `_postgresql` does once the engine has answered. -/
def afterProbe (probe : EngineProbe) : SharedRead Row DiagnosticsSection := do
  let vector ← vector
  pure (postgresqlSection E probe vector)

/-- `_postgresql` -/
def postgresql : SharedRead Row DiagnosticsSection := do
  let probe : Except ReadError EngineProbe ←
    ((do let probe : EngineProbe ← elsewhere .engineProbe; pure (.ok probe)) :
      SharedRead Row (Except ReadError EngineProbe)).tryCatch fun exc ↦ .done (.error exc)
  match probe with
  | .error exc =>
    pure
      { state := .unavailable
        detail := "PostgreSQL connectivity failed (" ++ exc.typeName ++ ")"
        metrics := [("connectivity", .text "error"), ("pool", .dict E.pool)] }
  | .ok probe => afterProbe E vector probe

/-! ### Redis, the workers, the storage and the providers -/

/-- What `_redis` says about the memory. -/
def redisMemorySummary : SharedRead Row (List (String × Metric)) :=
  ((do
    let info : RedisMemory ← elsewhere .redisMemory
    pure
      [("used_memory_human", .optional .text info.usedMemoryHuman),
        ("maxmemory_human", .optional .text info.maxmemoryHuman),
        ("mem_fragmentation_ratio", .optional .float info.memFragmentationRatio)]) :
    SharedRead Row (List (String × Metric))).tryCatch fun _ ↦ .done [("available", .bool false)]

/-- The section of a Redis that answers. -/
def redisSection (latencyMs : ℚ) (memorySummary : List (String × Metric)) : DiagnosticsSection :=
  { state := .healthy
    detail := "Redis reachable"
    metrics :=
      [("connectivity", .text "ok"), ("latency_ms", .float latencyMs), ("memory", .dict memorySummary),
        ("cache_hit_ratio", .optional .float E.cacheHitRatio), ("cache_hits", .optional .float E.cacheHits),
        ("cache_misses", .optional .float E.cacheMisses), ("cache_errors", .optional .float E.cacheErrors),
        ("celery_broker", .text "redis"), ("broker_host", .optional .text E.redisHost)] }

/-- `_redis` -/
def redis : SharedRead Row DiagnosticsSection :=
  ((do
    let latencyMs : ℚ ← elsewhere .redisPing
    let memorySummary ← redisMemorySummary
    pure (redisSection E latencyMs memorySummary)) : SharedRead Row _).tryCatch fun exc ↦ .done
      { state := .unavailable
        detail := "Redis connectivity failed (" ++ exc.typeName ++ ")"
        metrics :=
          [("connectivity", .text "error"), ("cache_hit_ratio", .optional .float E.cacheHitRatio),
            ("cache_errors", .optional .float E.cacheErrors), ("broker_host", .optional .text E.redisHost)] }

/-- `sorted` -/
def sortedTexts (xs : List String) : List String := sortedBy id xs

/-- The workers, the queues and the stale workers of an inspection. -/
def inspected (inspection : CeleryInspection) : List String × List String × List String :=
  (sortedTexts inspection.ping,
    sortedTexts ((inspection.activeQueues.flatMap fun entry ↦ entry.2.filterMap given).dedup),
    (inspection.activeQueues.map Prod.fst).filter fun name ↦ !inspection.ping.contains name)

/-- The inspection that `_celery` makes unless the tasks are eager. -/
def inspectWorkers : SharedRead Row (List String × List String × List String) :=
  if E.celeryTaskAlwaysEager then .done ([], [], [])
  else
    ((do
      let inspection : CeleryInspection ← elsewhere .inspectCelery
      pure (inspected inspection)) : SharedRead Row _).tryCatch fun _ ↦ .done ([], [], [])

/-- The section of workers that answer, with what the inspection has found. -/
def celerySection (readiness : WorkerReadiness) (found : List String × List String × List String) :
    DiagnosticsSection :=
  { state := dependencyOperationalState readiness.status
    detail := readiness.detail
    metrics :=
      [("eager_mode", .bool E.celeryTaskAlwaysEager), ("workers", .texts found.1),
        ("worker_count", .int found.1.length), ("queues", .texts found.2.1),
        ("queue_depth", .optional (fun n : ℕ ↦ .int n) readiness.queueDepth),
        ("oldest_job_age_seconds", .optional .float readiness.oldestJobAgeSeconds),
        ("retry_count", .optional (fun n : ℕ ↦ .int n) readiness.retryCount),
        ("failed_job_count", .optional (fun n : ℕ ↦ .int n) readiness.failedJobCount),
        ("last_successful_heartbeat_at", .optional .text readiness.lastSuccessfulHeartbeatAt),
        ("stale_workers", .texts found.2.2),
        ("prometheus_failed_jobs", .optional .float E.workerFailedJobs)] }

/-- `_celery` -/
def celery : SharedRead Row DiagnosticsSection := do
  let readiness : WorkerReadiness ← elsewhere .workerReadiness
  let found ← inspectWorkers E
  pure (celerySection E readiness found)

/-- The object storage is asked unless it is neither configured nor required. -/
def storageAsked : Bool := E.storageBucket ≠ "" || E.ragEnabled

/-- The section of a storage that is asked. -/
def storageSection (readiness : Bool × String) : DiagnosticsSection :=
  let isConfigured : Bool := E.storageBucket ≠ ""
  { state :=
      if !isConfigured && E.ragEnabled then .unavailable else if readiness.1 then .healthy else .unavailable
    detail := readiness.2
    metrics :=
      [("configured", .bool isConfigured), ("bucket_configured", .bool isConfigured),
        ("bucket_name", .optional .text (given (some E.storageBucket))),
        ("endpoint_host", .optional .text E.storageHost), ("region", .text E.storageRegion)] }

/-- `_storage` -/
def storage : SharedRead Row DiagnosticsSection :=
  if !storageAsked E then
    .done
      { state := .notRequired
        detail := "Object storage not configured and not required"
        metrics := [("configured", .bool false), ("bucket_configured", .bool false)] }
  else do
    let readiness : Bool × String ← elsewhere .storageReadiness
    pure (storageSection E readiness)

/-- `_ai_providers` -/
def aiProviders : List AiProviderDiagnostics :=
  (listProviderDescriptors E.aiEmbeddingProvider).map fun descriptor ↦
    let configured : Bool :=
      if descriptor.key = "local" then true
      else if descriptor.key = "openai" then E.openaiApiKey ≠ ""
      else if descriptor.key = "anthropic" then E.anthropicApiKey ≠ ""
      else false
    { key := descriptor.key
      label := descriptor.label
      configured := configured
      state := if descriptor.key = "local" || configured then .healthy else .notRequired
      detail :=
        if descriptor.key = "local" then "Local heuristic provider always available"
        else if configured then "API key configured (live probe skipped)"
        else "API key not configured"
      supportsGeneration := descriptor.supportsGeneration
      supportsEmbeddings := descriptor.supportsEmbeddings
      latencySummaryMs := if descriptor.key = E.aiEmbeddingProvider then E.embeddingLatencyMsAvg else none }

/-! ### The index -/

section Rag

variable (sha256 : String → String) (config : RagConfig) (newId : Uuid) (now : DateTime)

/-- What an operation on index versions raises. -/
def ReadError.ofHttp (e : HttpError) : ReadError := .http e.statusCode e.detail

/-- `_assert_dimensions_compatible`, `db.add(row)` and `db.flush()`. -/
def flushVersion (row : RagIndexVersion) : SharedRead Row RagIndexVersion :=
  match assertDimensionsCompatible row.embeddingDimensions with
  | .error e => .raised (.ofHttp e)
  | .ok () => do
    let _ ← execute (.flushVersion row)
    pure row

/-- `ensure_desired_building_version` -/
def readDesiredBuildingVersion : SharedRead Row (Option RagIndexVersion) := do
  let active : Option RagIndexVersion ← execute .activeVersion
  if active.any fun active ↦ active.key = desiredKey sha256 config then pure none
  else do
    let existing : Option RagIndexVersion ← execute (.versionByKey (desiredKey sha256 config))
    match existing with
    | some existing => pure (some existing)
    | none => do
      let row ← flushVersion (newVersion sha256 config newId .building
        (some "Auto-opened building candidate because runtime config differs from active.") none now)
      pure (some row)

/-- `ensure_active_version` -/
def readActiveVersion : SharedRead Row RagIndexVersion := do
  let active : Option RagIndexVersion ← execute .activeVersion
  match active with
  | some active => do
    let _ ← readDesiredBuildingVersion sha256 config newId now
    pure active
  | none => do
    let existing : Option RagIndexVersion ← execute (.versionByKey (desiredKey sha256 config))
    match existing with
    | some existing =>
      if existing.status = .active then pure existing
      else .raised (.http 409 ("No active RAG index version. Validate and activate a candidate " ++
        "(desired key='" ++ desiredKey sha256 config ++ "', found status=" ++ existing.status.quoted ++ ")."))
    | none => flushVersion (newVersion sha256 config newId .active
        (some "Bootstrap active version from runtime RAG configuration.") (some now) now)

/-- A count: `int(await db.scalar(...) or 0)`. -/
def documentCount (status : Option String) : SharedRead Row ℕ := do
  let count : Option ℕ ← execute (.documentCount status)
  pure (count.getD 0)

@[inherit_doc documentCount]
def documentsWithChunks (versionId : Uuid) : SharedRead Row ℕ := do
  let count : Option ℕ ← execute (.documentsWithChunks versionId)
  pure (count.getD 0)

@[inherit_doc documentCount]
def chunkCount (versionId : Uuid) : SharedRead Row ℕ := do
  let count : Option ℕ ← execute (.chunkCount versionId)
  pure (count.getD 0)

@[inherit_doc documentCount]
def jobCount (status : Option String) (activeOnly : Bool) : SharedRead Row ℕ := do
  let count : Option ℕ ← execute (.jobCount status activeOnly)
  pure (count.getD 0)

/-- The statements of `promotion_readiness`, whose findings the section does not read. -/
def readPromotion (row : RagIndexVersion) : SharedRead Row Unit := do
  let _ ← documentCount none
  let _ ← documentCount (some "indexed")
  let _ ← documentsWithChunks row.id
  let _ ← chunkCount row.id
  let _ ← jobCount (some "failed") false
  let _ ← jobCount none true
  pure ()

/-- What the section reads of `status_summary`. -/
structure IndexSummary where
  activeVersion : RagIndexVersion
  documentsTotal : ℕ
  documentsIndexed : ℕ
  documentsStale : ℕ
  documentsCurrent : ℕ
  jobsActive : ℕ
  jobsFailed : ℕ

/-- `status_summary` -/
def statusSummary : SharedRead Row IndexSummary := do
  let active ← readActiveVersion sha256 config newId now
  let found : Option RagIndexVersion ← execute (.versionByKey (desiredKey sha256 config))
  let building := found.filter fun row ↦
    row.id ≠ active.id ∧ (row.status = .building ∨ row.status = .validated)
  let documentsTotal ← documentCount none
  let documentsIndexed ← documentCount (some "indexed")
  let documentsCurrent ← documentsWithChunks active.id
  let jobsActive ← jobCount none true
  let jobsFailed ← jobCount (some "failed") false
  let _ ← execute .versions
  match building with
  | some row => readPromotion row
  | none => pure ()
  pure
    { activeVersion := active
      documentsTotal := documentsTotal
      documentsIndexed := documentsIndexed
      documentsStale := documentsIndexed - documentsCurrent
      documentsCurrent := documentsCurrent
      jobsActive := jobsActive
      jobsFailed := jobsFailed }

/-- The section of an index that answers. -/
def ragSection (summary : IndexSummary) (vector : VectorReadiness) : DiagnosticsSection :=
  let state : OperationalState :=
    if !vector.available then .unavailable else if 0 < summary.jobsFailed then .degraded else .healthy
  { state := state
    detail :=
      if state = .healthy then "RAG index ready"
      else if !vector.available then "pgvector unavailable" else "RAG has failed ingestions"
    metrics :=
      [("enabled", .bool true), ("vector_ready", .bool vector.available),
        ("active_index_version", .text summary.activeVersion.key),
        ("embedding_provider", .text summary.activeVersion.embeddingProvider),
        ("embedding_model", .text summary.activeVersion.embeddingModel),
        ("documents_total", .int summary.documentsTotal), ("documents_indexed", .int summary.documentsIndexed),
        ("documents_stale", .int summary.documentsStale), ("documents_current", .int summary.documentsCurrent),
        ("ingestion_jobs_active", .int summary.jobsActive), ("ingestion_jobs_failed", .int summary.jobsFailed),
        ("retrieval_latency_ms_avg", .optional .float E.retrievalLatencyMsAvg),
        ("embedding_latency_ms_avg", .optional .float E.embeddingLatencyMsAvg),
        ("cache_hit_ratio", .optional .float E.cacheHitRatio),
        ("vector_unavailable_total", .optional .float E.vectorUnavailableTotal),
        ("retrieval_degraded_total", .optional .float E.retrievalDegradedTotal)] }

/-- `_rag` -/
def rag : SharedRead Row DiagnosticsSection :=
  if !E.ragEnabled then
    .done { state := .notRequired, detail := "RAG is disabled", metrics := [("enabled", .bool false)] }
  else
    ((do
      let summary ← statusSummary sha256 config newId now
      let vector ← vector
      pure (ragSection E summary vector)) : SharedRead Row _).tryCatch fun exc ↦ .done
        { state := .unavailable
          detail := "RAG diagnostics failed (" ++ exc.typeName ++ ")"
          metrics := [("enabled", .bool true)] }

end Rag

/-! ### The response -/

/-- `DiagnosticsResponse` -/
structure DiagnosticsResponse where
  generatedAt : String
  overallState : OperationalState
  application : DiagnosticsSection
  postgresql : DiagnosticsSection
  redis : DiagnosticsSection
  celery : DiagnosticsSection
  storage : DiagnosticsSection
  aiProviders : List AiProviderDiagnostics
  rag : DiagnosticsSection
  observabilityHints : List (String × Metric)

/-- The text has the word in it. -/
def mentions (s word : String) : Bool := s.toList.tails.any fun rest ↦ word.toList.isPrefixOf rest

/-- `_SECRET_KEY_RE` -/
def secretShaped (key : String) : Bool :=
  ["password", "secret", "token", "apikey", "api_key", "api-key", "authorization", "credential", "cookie",
    "database_url"].any (mentions (lower key))

mutual

/-- `_assert_no_secrets` finds nothing in a dictionary. -/
def noSecrets : List (String × Metric) → Bool
  | [] => true
  | (key, value) :: entries => !secretShaped key && noSecretValue value && noSecrets entries

@[inherit_doc noSecrets]
def noSecretValue : Metric → Bool
  | .dict entries => noSecrets entries
  | .list items => noSecretItems items
  | .text s => !mentions (lower s) "password=" && !mentions (lower s) "api_key="
  | .none | .bool _ | .int _ | .float _ => true

/-- Of a list only the dictionaries are looked into. -/
def noSecretItems : List Metric → Bool
  | [] => true
  | .dict entries :: items => noSecrets entries && noSecretItems items
  | _ :: items => noSecretItems items

end

/-- The dump of a section. -/
def DiagnosticsSection.dump (section_ : DiagnosticsSection) : Metric :=
  .dict [("state", .text section_.state.text), ("detail", .text section_.detail), ("metrics", .dict section_.metrics)]

/-- The dump of a provider. -/
def AiProviderDiagnostics.dump (provider : AiProviderDiagnostics) : Metric :=
  .dict
    [("key", .text provider.key), ("label", .text provider.label), ("configured", .bool provider.configured),
      ("state", .text provider.state.text), ("detail", .text provider.detail),
      ("supports_generation", .bool provider.supportsGeneration),
      ("supports_embeddings", .bool provider.supportsEmbeddings),
      ("latency_summary_ms", .optional .float provider.latencySummaryMs)]

/-- `model_dump` -/
def DiagnosticsResponse.dump (response : DiagnosticsResponse) : List (String × Metric) :=
  [("generated_at", .text response.generatedAt), ("overall_state", .text response.overallState.text),
    ("application", response.application.dump), ("postgresql", response.postgresql.dump),
    ("redis", response.redis.dump), ("celery", response.celery.dump), ("storage", response.storage.dump),
    ("ai_providers", .list (response.aiProviders.map AiProviderDiagnostics.dump)), ("rag", response.rag.dump),
    ("observability_hints", .dict response.observabilityHints)]

/-- `observability_hints` -/
def observabilityHints : List (String × Metric) :=
  [("prometheus_metric_names", .texts
      ["db_pool_checked_out", "db_pool_size", "db_pool_overflow", "worker_queue_depth", "worker_failed_job_count",
        "rag_embedding_latency_ms", "rag_retrieval_latency_ms", "cache_hits_total", "cache_misses_total"]),
    ("grafana_base_url", .optional .text E.grafanaBaseUrl),
    ("tempo_explore_url", .optional .text E.tempoExploreUrl),
    ("observability_page", .text "/observability"),
    ("failure_injection", .dict
      [("permitted", .bool E.injectionPermitted), ("env_enabled", .bool E.failureInjectionEnabled),
        ("active_faults", .texts (sortedTexts E.activeFaults))]),
    ("note", .text ("Prefer Grafana/Tempo for deep latency analysis; this page reuses " ++
      "gauges. Active failure-injection faults are listed when permitted."))]

/-- The coroutines that `collect` gathers. -/
inductive DiagnosticsPart
  | application | postgresql | redis | celery | storage | aiProviders | rag
  deriving DecidableEq

/-- What each returns. -/
def DiagnosticsPart.Out : DiagnosticsPart → Type
  | .aiProviders => List AiProviderDiagnostics
  | .application | .postgresql | .redis | .celery | .storage | .rag => DiagnosticsSection

variable (operationalStateForFault : String → OperationalState)

/-- The overall state, which active faults never leave healthy. -/
def overallState (states : List OperationalState) : OperationalState :=
  let overall := worstState states
  let faults := sortedTexts E.activeFaults
  if faults = [] then overall
  else
    let overall := worstState (overall :: faults.map operationalStateForFault)
    if overall = .healthy then .degraded else overall

/-- What `collect` makes of the sections. -/
def assembled (result : (part : DiagnosticsPart) → part.Out) : DiagnosticsResponse :=
  let application : DiagnosticsSection := result .application
  let postgresql : DiagnosticsSection := result .postgresql
  let redis : DiagnosticsSection := result .redis
  let celery : DiagnosticsSection := result .celery
  let storage : DiagnosticsSection := result .storage
  let aiProviders : List AiProviderDiagnostics := result .aiProviders
  let rag : DiagnosticsSection := result .rag
  { generatedAt := E.generatedAt
    overallState := overallState E operationalStateForFault
      ([application.state, postgresql.state, redis.state, celery.state, storage.state, rag.state] ++
        (aiProviders.filter AiProviderDiagnostics.configured).map AiProviderDiagnostics.state)
    application := application
    postgresql := postgresql
    redis := redis
    celery := celery
    storage := storage
    aiProviders := aiProviders
    rag := rag
    observabilityHints := observabilityHints E }

variable (C : PlatformCatalog) (D : PlatformDefaults)
  (resolve : String → List (String × Bool) → Except String (List String))
  (sha256 : String → String) (config : RagConfig) (newId : Uuid) (now : DateTime)

/-- The coroutine of each section. -/
def diagnosticsReads : (part : DiagnosticsPart) → SharedRead Row part.Out
  | .application => application E C D resolve
  | .postgresql => postgresql E vector
  | .redis => redis E
  | .celery => celery E
  | .storage => storage E
  | .aiProviders => .done (aiProviders E)
  | .rag => rag E vector sha256 config newId now

/-- `DiagnosticsService.collect` -/
def collect : SharedGathering Row DiagnosticsPart.Out DiagnosticsResponse where
  before := .done none
  order := [.application, .postgresql, .redis, .celery, .storage, .aiProviders, .rag]
  complete
    | .application | .postgresql | .redis | .celery | .storage | .aiProviders | .rag => by decide
  nodup := by decide
  reads := diagnosticsReads E vector C D resolve sha256 config newId now
  after result :=
    let response := assembled E operationalStateForFault result
    if noSecrets response.dump then .done response else .raised (.named "AssertionError")

end Service

end GenericApp
