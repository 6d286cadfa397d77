import GenericApp.Calendar.CalendarService
import GenericApp.Core.CacheLoader
import GenericApp.Foundation.Gathering
import GenericApp.Platform.ConfigService
import GenericApp.Rag.IndexVersions

/-!
# Reads that share the session of a request

`AiOverviewCoordinator.build`, `get_metrics` and `CalendarService.list_items`: each gathers coroutines that issue
their statements on the session of the request. `DiagnosticsService.collect`, which does too, is in
`GenericApp.Platform.Diagnostics`.

The statements are named by what they ask, and the database answers them as it likes. What is awaited elsewhere is
named the same way: the caches, the probes and the locks. The rows of the overview are opaque, because nothing here
reads them.

`build` gathers four counts inside the coroutines that it gathers. All eight are started before any of them goes on,
and the first failure is that of the whole, so that they are gathered as eight here.
-/

namespace GenericApp

open Py

/-! ### What is asked -/

/-- The tables of the overview. -/
inductive AiTable
  | promptTemplates | runs | documents | datasets
  deriving DecidableEq

/-- The statements. -/
inductive SharedStatement
  | total (table : AiTable) (userId : Uuid)
  | page (table : AiTable) (userId : Uuid) (limit offset : ℕ)
  | count (table : AiTable) (userId : Uuid)
  | userCounts
  | notificationCount
  | entriesByUserAndRange (userId : Uuid) (startDate endDate : Day)
  | tasksDueForUser (userId : Uuid) (startDate endDate : Day)
  | settingsByPrefix (start : String)
  | vectorSchema
  | activeVersion
  | versionByKey (key : String)
  | flushVersion (row : RagIndexVersion)
  | documentCount (status : Option String)
  | documentsWithChunks (versionId : Uuid)
  | chunkCount (versionId : Uuid)
  | jobCount (status : Option String) (activeOnly : Bool)
  | versions

/-- What the catalog says about vectors. -/
structure VectorSchema where
  extensionAvailable : Bool
  embeddingColumnAvailable : Bool
  hnswIndexAvailable : Bool

/-- What `pgvector_readiness` returns. -/
structure VectorReadiness where
  available : Bool
  reason : Option String
  deriving DecidableEq

/-- The answers. A scalar that the database has none of is `none`. The settings are the relation that
`list_by_prefix` reads from. -/
def SharedStatement.Answer (Row : AiTable → Type) : SharedStatement → Type
  | .total _ _ | .count _ _ => Option ℕ
  | .page table _ _ _ => List (Row table)
  | .userCounts => Option ℕ × Option ℕ × Option ℕ
  | .notificationCount => Option ℕ
  | .entriesByUserAndRange _ _ _ => List CalendarEntry
  | .tasksDueForUser _ _ _ => List (ProjectTask × Project)
  | .settingsByPrefix _ => AppSettings
  | .vectorSchema => VectorSchema
  | .activeVersion | .versionByKey _ => Option RagIndexVersion
  | .flushVersion _ => Unit
  | .documentCount _ | .documentsWithChunks _ | .chunkCount _ | .jobCount _ _ => Option ℕ
  | .versions => List RagIndexVersion

/-- How `_wait_for_distributed_lock` ends: another process has filled the cache, Redis does not answer, the lock is
held by this token, or the time is up (and without Redis there is no lock). -/
inductive LockOutcome
  | filled
  | unavailable
  | held (token : ℕ)
  | expired

/-- What the engine answers on a connection of its own. -/
structure EngineProbe where
  migrationRevision : Option String
  latencyMs : ℚ

/-- What Redis says about its memory. -/
structure RedisMemory where
  usedMemoryHuman : Option String
  maxmemoryHuman : Option String
  memFragmentationRatio : Option ℚ

/-- `WorkerReadiness`, of which the depths of the queues are not read here. -/
structure WorkerReadiness where
  status : String
  detail : String
  queueDepth : Option ℕ
  oldestJobAgeSeconds : Option ℚ
  retryCount : Option ℕ
  failedJobCount : Option ℕ
  lastSuccessfulHeartbeatAt : Option String

/-- What `_inspect_celery` returns: who answers, and the names of the queues that each is active on. -/
structure CeleryInspection where
  ping : List String
  activeQueues : List (String × List (Option String))

/-- What is awaited elsewhere. -/
inductive SharedCall
  | cachedItems (userId : Uuid) (startDate endDate : Day)
  | cacheItems (userId : Uuid) (startDate endDate : Day) (items : List CalendarItemResponse)
  | cachedConfig (lookUp : LookUp)
  | singleflight
  | waitForDistributedLock
  | cacheConfig (config : PlatformConfig)
  | releaseDistributedLock (token : ℕ)
  | vectorReadiness
  | engineProbe
  | redisPing
  | redisMemory
  | workerReadiness
  | inspectCelery
  | storageReadiness

@[inherit_doc SharedCall]
def SharedCall.Answer : SharedCall → Type
  | .cachedItems _ _ _ => Option (List CalendarItemResponse)
  | .cacheItems _ _ _ _ | .singleflight | .cacheConfig _ | .releaseDistributedLock _ => Unit
  | .cachedConfig _ => Option PlatformConfig
  | .waitForDistributedLock => LockOutcome
  | .vectorReadiness => Option VectorReadiness
  | .engineProbe => EngineProbe
  | .redisPing => ℚ
  | .redisMemory => RedisMemory
  | .workerReadiness => WorkerReadiness
  | .inspectCelery => CeleryInspection
  | .storageReadiness => Bool × String

/-- An exception: an `HTTPException`, or another one by the name of its type. -/
inductive ReadError
  | http (statusCode : ℕ) (detail : String)
  | named (typeName : String)
  deriving DecidableEq

/-- `type(exc).__name__` -/
def ReadError.typeName : ReadError → String
  | http _ _ => "HTTPException"
  | named typeName => typeName

/-- What a service raises. -/
def ReadError.ofRaised : Raised → ReadError
  | .http exc => .http exc.statusCode exc.detail
  | .valueError => .named "ValueError"
  | .other => .named "Exception"

variable (Row : AiTable → Type)

/-- A coroutine that has the session of the request. -/
abbrev SharedRead (α : Type) : Type := Reading (SharedStatement.Answer Row) SharedCall.Answer ReadError α

/-- An operation that gathers such coroutines. -/
abbrev SharedGathering {ι : Type} (Out : ι → Type) (α : Type) : Type :=
  Gathering (SharedStatement.Answer Row) SharedCall.Answer ReadError Out α

/-- The database and what else the request finds. -/
abbrev RequestWorld (σ : Type) : Type :=
  Surroundings (SharedStatement.Answer Row) SharedCall.Answer ReadError σ

variable {Row}

/-- Await a statement. -/
def execute (q : SharedStatement) : SharedRead Row (q.Answer Row) := Reading.statement q

/-- Await something else. -/
def elsewhere (e : SharedCall) : SharedRead Row e.Answer := Reading.elsewhere e

/-- Await something else, without having the session. -/
def awaitCall (e : SharedCall) : Coroutine SharedCall SharedCall.Answer Empty ReadError e.Answer := Coroutine.await e

/-! ### The overview -/

namespace AiOverviewCoordinator

/-- `DEFAULT_PAGE_LIMIT` -/
def defaultPageLimit : ℕ := 50

/-- `paginate_scalars`, of a user's rows. -/
def paginateScalars (table : AiTable) (userId : Uuid) (limit offset : ℕ) : SharedRead Row (List (Row table) × ℕ) := do
  let total : Option ℕ ← execute (.total table userId)
  let rows : List (Row table) ← execute (.page table userId limit offset)
  pure (rows, total.getD 0)

/-- `count_prompt_templates_for_user` and its like. -/
def countForUser (table : AiTable) (userId : Uuid) : SharedRead Row ℕ := do
  let count : Option ℕ ← execute (.count table userId)
  pure (count.getD 0)

/-- `_require_rag_documents` -/
def requireRagDocuments (ragEnabled : Bool) : SharedRead Row Unit :=
  if ragEnabled then .done () else .raised (.http 503 "RAG is disabled")

/-- The coroutines that `build` gathers. -/
inductive Part
  | listed (table : AiTable)
  | counted (table : AiTable)
  deriving DecidableEq

/-- What each returns. -/
def Part.Out (Row : AiTable → Type) : Part → Type
  | .listed table => List (Row table) × ℕ
  | .counted _ => ℕ

/-- The coroutine of each part. Only documents have to be asked for with RAG enabled. -/
def reads (ragEnabled : Bool) (userId : Uuid) : (part : Part) → SharedRead Row (part.Out Row)
  | .listed .promptTemplates => paginateScalars .promptTemplates userId defaultPageLimit 0
  | .listed .runs => paginateScalars .runs userId 10 0
  | .listed .documents => do
    requireRagDocuments ragEnabled
    paginateScalars .documents userId defaultPageLimit 0
  | .listed .datasets => paginateScalars .datasets userId defaultPageLimit 0
  | .counted .documents => do
    requireRagDocuments ragEnabled
    countForUser .documents userId
  | .counted table => countForUser table userId

end AiOverviewCoordinator

/-- `AiProviderDescriptor` -/
structure AiProviderDescriptor where
  key : String
  label : String
  supportsGeneration : Bool
  supportsEmbeddings : Bool

/-- `list_provider_descriptors` -/
def listProviderDescriptors (aiEmbeddingProvider : String) : List AiProviderDescriptor :=
  [⟨"local", "Local heuristic", true, true⟩, ⟨"openai", "OpenAI", true, true⟩,
    ⟨"anthropic", "Anthropic", true, aiEmbeddingProvider = "anthropic"⟩]

/-- What `build` returns. -/
structure AiOverview (Row : AiTable → Type) where
  providers : List AiProviderDescriptor
  promptTemplates : List (Row .promptTemplates)
  recentRuns : List (Row .runs)
  documents : List (Row .documents)
  datasets : List (Row .datasets)
  promptTemplatesCount : ℕ
  recentRunsCount : ℕ
  documentsCount : ℕ
  datasetsCount : ℕ

open AiOverviewCoordinator in
/-- `AiOverviewCoordinator.build`, over the repository and the document service of `AiService`. -/
def AiOverviewCoordinator.build (ragEnabled : Bool) (aiEmbeddingProvider : String) (userId : Uuid) :
    SharedGathering Row (Part.Out Row) (AiOverview Row) where
  before := .done none
  order := [.listed .promptTemplates, .listed .runs, .listed .documents, .listed .datasets,
    .counted .promptTemplates, .counted .runs, .counted .documents, .counted .datasets]
  complete
    | .listed .promptTemplates | .listed .runs | .listed .documents | .listed .datasets
    | .counted .promptTemplates | .counted .runs | .counted .documents | .counted .datasets => by decide
  nodup := by decide
  reads := reads ragEnabled userId
  after result := .done
    { providers := listProviderDescriptors aiEmbeddingProvider
      promptTemplates := (result (.listed .promptTemplates)).1
      recentRuns := (result (.listed .runs)).1
      documents := (result (.listed .documents)).1
      datasets := (result (.listed .datasets)).1
      promptTemplatesCount := result (.counted .promptTemplates)
      recentRunsCount := result (.counted .runs)
      documentsCount := result (.counted .documents)
      datasetsCount := result (.counted .datasets) }

/-! ### The metrics of the administration -/

/-- `MetricsResponse` -/
structure MetricsResponse where
  totalUsers : ℕ
  verifiedUsers : ℕ
  activeUsers : ℕ
  totalNotifications : ℕ

/-- The coroutines that `get_metrics` gathers. -/
inductive MetricsPart
  | userCounts
  | notifs
  deriving DecidableEq

/-- What each returns. -/
def MetricsPart.Out : MetricsPart → Type
  | .userCounts => Option ℕ × Option ℕ × Option ℕ
  | .notifs => Option ℕ

/-- `get_metrics` -/
def getMetrics : SharedGathering Row MetricsPart.Out MetricsResponse where
  before := .done none
  order := [.userCounts, .notifs]
  complete
    | .userCounts | .notifs => by decide
  nodup := by decide
  reads
    | .userCounts => execute .userCounts
    | .notifs => execute .notificationCount
  after result := .done
    { totalUsers := (result .userCounts).1.getD 0
      verifiedUsers := (result .userCounts).2.1.getD 0
      activeUsers := (result .userCounts).2.2.getD 0
      totalNotifications := Option.getD (result .notifs) 0 }

/-! ### Calendars -/

/-- The coroutines that `list_items` gathers. -/
inductive CalendarPart
  | entries
  | tasks
  deriving DecidableEq

/-- What each returns. -/
def CalendarPart.Out : CalendarPart → Type
  | .entries => List CalendarEntry
  | .tasks => List (ProjectTask × Project)

/-- `CalendarService.list_items` -/
def CalendarService.listItems (userId : Uuid) (startDate endDate : Day) :
    SharedGathering Row CalendarPart.Out (List CalendarItemResponse) where
  before :=
    match PlannerState.refuseRange startDate endDate with
    | some raised => .raised (.ofRaised raised)
    | none => awaitCall (.cachedItems userId startDate endDate)
  order := [.entries, .tasks]
  complete
    | .entries | .tasks => by decide
  nodup := by decide
  reads
    | .entries => execute (.entriesByUserAndRange userId startDate endDate)
    | .tasks => execute (.tasksDueForUser userId startDate endDate)
  after result :=
    match PlannerState.mergeItems (result .entries) (result .tasks) with
    | .error raised => .raised (.ofRaised raised)
    | .ok items => do
      awaitCall (.cacheItems userId startDate endDate items)
      pure items

end GenericApp
