import GenericApp.Foundation.ExpiringStore
import GenericApp.Foundation.Python

/-!
# The two tiers of the cache

A value is cached in Redis, as JSON text, and for a few keys also in a dictionary of the process, as the
value itself. `cache_get_json` asks the process first, then Redis, and copies what Redis has into the
process, under a lifetime that depends on the key only. `cache_set_json` writes both tiers with the lifetime
it is given. Some keys are never in Redis at all.

The functions are total here: they return what the caller gets and the tiers they leave behind. `now` is
the clock, which is read once in a call. The calls to Redis go through; where one of them is answered by an
error, that is a step of the modules that need it. JSON is a parameter: `none` is both Python's `None` and
`null`, and the codec may refuse a text (`JSONDecodeError`) or a value.
-/

namespace GenericApp

open Py

/-! ### Keys and settings -/

/-- `CACHE_NAMESPACE` -/
def cacheNamespace : String := "ga"

/-- `PLATFORM_CONFIG_CACHE_KEY` -/
def platformConfigCacheKey : String := "ga:platform:config"

/-- `PLATFORM_FEATURE_FLAGS_CACHE_KEY` -/
def platformFeatureFlagsCacheKey : String := "ga:platform:feature_flags"

/-- `SETTINGS_DATABASE_CACHE_KEY` -/
def settingsDatabaseCacheKey : String := "ga:settings:database:all"

/-- `SETTINGS_CONFIG_ENTRIES_CACHE_KEY` -/
def settingsConfigEntriesCacheKey : String := "ga:settings:config_entries"

/-- `PLATFORM_EMAIL_TEMPLATES_CACHE_KEY` -/
def platformEmailTemplatesCacheKey : String := "ga:platform:email_templates"

/-- `OBSERVABILITY_STATUS_CACHE_KEY` -/
def observabilityStatusCacheKey : String := "ga:observability:status"

/-- `LOCAL_CACHE_KEYS` -/
def localCacheKeys : List String :=
  [platformConfigCacheKey, platformFeatureFlagsCacheKey, settingsDatabaseCacheKey,
    settingsConfigEntriesCacheKey, platformEmailTemplatesCacheKey, observabilityStatusCacheKey]

/-- `LOCAL_ONLY_CACHE_KEYS` -/
def localOnlyCacheKeys : List String := [settingsConfigEntriesCacheKey, observabilityStatusCacheKey]

/-- `cache_key(*parts)`, the parts joined by colons. -/
def cacheKey (parts : List String) : String := parts.foldl (fun key part ↦ key ++ ":" ++ part) cacheNamespace

/-- The settings that the cache reads. None of them has a bound. -/
structure CacheSettings where
  /-- `CACHE_ENABLED` -/
  cacheEnabled : Bool
  /-- `CACHE_MAX_PAYLOAD_BYTES` -/
  cacheMaxPayloadBytes : ℤ
  /-- `CACHE_PLATFORM_TTL_SECONDS` -/
  cachePlatformTtlSeconds : ℤ
  /-- `CACHE_SETTINGS_TTL_SECONDS` -/
  cacheSettingsTtlSeconds : ℤ
  /-- `CACHE_OBSERVABILITY_STATUS_TTL_SECONDS` -/
  cacheObservabilityStatusTtlSeconds : ℤ
  /-- `CACHE_RETRIEVAL_TTL_SECONDS` -/
  cacheRetrievalTtlSeconds : ℤ

/-- The values the program starts with when nothing is overridden. -/
def CacheSettings.default : CacheSettings where
  cacheEnabled := true
  cacheMaxPayloadBytes := 1024 * 1024
  cachePlatformTtlSeconds := 300
  cacheSettingsTtlSeconds := 60
  cacheObservabilityStatusTtlSeconds := 30
  cacheRetrievalTtlSeconds := 180

/-- `_uses_local_cache` -/
def usesLocalCache (key : String) : Bool := localCacheKeys.contains key

/-- `_uses_redis_cache` -/
def usesRedisCache (S : CacheSettings) (key : String) : Bool :=
  if localOnlyCacheKeys.contains key then false else S.cacheEnabled

/-- A key that is copied from Redis into the process. -/
def usesBothTiers (S : CacheSettings) (key : String) : Bool := usesLocalCache key && usesRedisCache S key

/-- `_local_ttl_for_key` -/
def localTtlForKey (S : CacheSettings) (key : String) : ℤ :=
  if key = observabilityStatusCacheKey then S.cacheObservabilityStatusTtlSeconds
  else if [settingsDatabaseCacheKey, settingsConfigEntriesCacheKey,
      platformEmailTemplatesCacheKey].contains key then S.cacheSettingsTtlSeconds
  else if "ga:platform:".toList.isPrefixOf key.toList then S.cachePlatformTtlSeconds
  else 60

/-! ### The tiers -/

/-- The texts in Redis. -/
abbrev Redis := ExpiringStore String String

/-- How a command to Redis ends. -/
inductive RedisReply
  | answered
  | lost
  | refused
deriving DecidableEq

/-- `SETEX`, which refuses a lifetime that is not positive. -/
def Redis.setex (R : Redis) (key : String) (seconds : ℤ) (raw : String) (now : DateTime) : Redis :=
  if 0 < seconds then ExpiringStore.put R key raw (some (now + timedelta seconds)) else R

/-- `_LocalTTLCache` with its 64 entries: a value, and the instant from which it has expired. -/
abbrev LocalTTLCache (V : Type) := RecencyDict String (Option V × DateTime) 64

namespace LocalTTLCache

variable {V : Type}

/-- `_LocalTTLCache.get`. An entry that has expired is removed, one that is read becomes the last. -/
def get (L : LocalTTLCache V) (key : String) (now : DateTime) : Option V × LocalTTLCache V :=
  match RecencyDict.get L key with
  | none => (none, L)
  | some (value, expiresAt) =>
    if expiresAt ≤ now then (none, L.erase key) else (value, L.put key (value, expiresAt))

/-- `_LocalTTLCache.set` -/
def set (L : LocalTTLCache V) (key : String) (value : Option V) (ttlSeconds : ℤ) (now : DateTime) :
    LocalTTLCache V :=
  L.put key (value, now + timedelta ttlSeconds)

/-- `_LocalTTLCache.delete` -/
def delete (L : LocalTTLCache V) (keys : List String) : LocalTTLCache V := L.eraseAll keys

/-- What a read returns is in the dictionary and has not expired. -/
theorem mem_of_get {L : LocalTTLCache V} {key : String} {now : DateTime} {v : V}
    (h : (L.get key now).1 = some v) :
    ∃ expiresAt, (key, (some v, expiresAt)) ∈ L.entries ∧ now < expiresAt := by
  rw [get] at h
  split at h
  · exact nomatch h
  · next value expiresAt hget =>
    split at h
    · exact nomatch h
    · next hlive =>
      obtain rfl : value = some v := h
      exact ⟨expiresAt, RecencyDict.mem_of_get hget, not_le.1 hlive⟩

/-- A read brings no entry in. -/
theorem mem_get {L : LocalTTLCache V} {key : String} {now : DateTime}
    {e : String × Option V × DateTime} (h : e ∈ (L.get key now).2.entries) : e ∈ L.entries := by
  rw [get] at h
  split at h
  · exact h
  · next value expiresAt hget =>
    split at h
    · exact (RecencyDict.mem_erase L).1 h |>.1
    · rcases RecencyDict.mem_put L h with rfl | ⟨-, hold⟩
      · exact RecencyDict.mem_of_get hget
      · exact hold

/-- After a write, an entry is the one written or was there before. -/
theorem mem_set {L : LocalTTLCache V} {key : String} {value : Option V} {ttlSeconds : ℤ}
    {now : DateTime} {e : String × Option V × DateTime}
    (h : e ∈ (L.set key value ttlSeconds now).entries) :
    e = (key, (value, now + timedelta ttlSeconds)) ∨ e ∈ L.entries :=
  (RecencyDict.mem_put L h).imp id And.right

end LocalTTLCache

/-- `json.dumps(value, ensure_ascii=True, default=str)` and `json.loads`. -/
structure JsonCodec (V : Type) where
  /-- No value where the encoder raises. -/
  dumps : Option V → Option String
  /-- No value where the text is not JSON. -/
  loads : String → Option (Option V)

/-! ### Reading and writing -/

section Calls

variable {V : Type} (S : CacheSettings) (J : JsonCodec V)

/-- `_local_cache.get`, for the keys that the process keeps. -/
def readLocal (L : LocalTTLCache V) (key : String) (now : DateTime) : Option V × LocalTTLCache V :=
  if usesLocalCache key then L.get key now else (none, L)

/-- `_local_cache.set`, for the keys that the process keeps. -/
def writeLocal (L : LocalTTLCache V) (key : String) (value : Option V) (ttlSeconds : ℤ) (now : DateTime) :
    LocalTTLCache V :=
  if usesLocalCache key then L.set key value ttlSeconds now else L

/-- `cache_get_json` -/
def cacheGetJson (R : Redis) (L : LocalTTLCache V) (key : String) (now : DateTime) :
    Option V × LocalTTLCache V :=
  match readLocal L key now with
  | (some value, L) => (some value, L)
  | (none, L) =>
    if usesRedisCache S key then
      match R.get key now with
      | none => (none, L)
      | some raw =>
        match J.loads raw with
        | none => (none, L)
        | some value => (value, writeLocal L key value (localTtlForKey S key) now)
    else (none, L)

/-- The first loop of `cache_get_many_json`: what the process has, and the keys to ask Redis for. -/
def readLocals (L : LocalTTLCache V) (keys : List String) (now : DateTime) :
    List (String × Option V) × List String × LocalTTLCache V :=
  match keys with
  | [] => ([], [], L)
  | key :: keys =>
    match readLocal L key now with
    | (some value, L) =>
      let (values, redisKeys, L) := readLocals L keys now
      ((key, some value) :: values, redisKeys, L)
    | (none, L) =>
      let (values, redisKeys, L) := readLocals L keys now
      (values, if usesRedisCache S key then key :: redisKeys else redisKeys, L)

/-- The second loop of `cache_get_many_json`, over the answers of `MGET`. A text that is not JSON ends
it. -/
def refill (R : Redis) (L : LocalTTLCache V) (redisKeys : List String) (now : DateTime) :
    List (String × Option V) × LocalTTLCache V :=
  match redisKeys with
  | [] => ([], L)
  | key :: redisKeys =>
    match R.get key now with
    | none => refill R L redisKeys now
    | some raw =>
      match J.loads raw with
      | none => ([], L)
      | some value =>
        let (values, L) :=
          refill R (writeLocal L key value (localTtlForKey S key) now) redisKeys now
        ((key, value) :: values, L)

/-- `cache_get_many_json`: the assignments to the dictionary it returns, in their order. -/
def cacheGetManyJson (R : Redis) (L : LocalTTLCache V) (keys : List String) (now : DateTime) :
    List (String × Option V) × LocalTTLCache V :=
  let (values, redisKeys, L) := readLocals S L keys now
  let (refilled, L) := refill S J R L redisKeys now
  (values ++ refilled, L)

/-- `cache_set_json` -/
def cacheSetJson (R : Redis) (L : LocalTTLCache V) (key : String) (value : Option V) (ttlSeconds : ℤ)
    (now : DateTime) : Redis × LocalTTLCache V :=
  let L := writeLocal L key value ttlSeconds now
  if usesRedisCache S key then
    match J.dumps value with
    | none => (R, L)
    | some serialized =>
      if S.cacheMaxPayloadBytes < serialized.utf8ByteSize then (R, L)
      else (R.setex key ttlSeconds serialized now, L)
  else (R, L)

/-- `cache_delete` -/
def cacheDelete (R : Redis) (L : LocalTTLCache V) (keys : List String) : Redis × LocalTTLCache V :=
  (R.deleteAll (keys.filter (usesRedisCache S)), L.delete keys)

end Calls

end GenericApp
