import GenericApp.Core.Staleness
import GenericApp.Foundation.Mapping

/-!
# Reading several keys at once

`cache_get_many_json` asks the process for every key and then Redis, in one `MGET`, for those that are left.
`cache_get_json` does both for a single key. What either of them reads under a key, and what it leaves in the
process, depends on the entry that the process has under that key and on what Redis answers for it
(`cacheGetJson_spec`, `readLocals_spec`, `refill_spec`), so that the two can be compared key by key.

They differ where Redis has something else than a value. A text that is not JSON is a miss of its key in
`cache_get_json`, but one handler covers the whole batch: the keys after it get no value and are not copied.
And `null`, which is a miss in `cache_get_json`, is put into the dictionary of the batch.

* `known_of_reachable`: in every run, the process has entries only for the keys it keeps, which are fewer than
  its bound.
* `batch_agrees_iff`: the batch agrees with the single reads if and only if nothing is lost after the first
  text that is not JSON, and no `null` comes before it.

What injects faults into the single read is not under `src/`, and is off here.
-/

namespace GenericApp

open Machine Py

variable {V : Type} (S : CacheSettings) (J : JsonCodec V) (R : Redis) {L L' : LocalTTLCache V}
  (key : String) (now : DateTime)

/-! ### What the process keeps -/

/-- Every entry is under one of the keys that the process keeps. -/
def Known (L : LocalTTLCache V) : Prop := RecencyDict.KeysIn L localCacheKeys

theorem usesLocalCache_iff {key : String} : usesLocalCache key = true ↔ key ∈ localCacheKeys := by
  rw [usesLocalCache, List.contains_iff_mem]

/-- The value of an entry of the process, which an entry that has expired does not have. -/
def seen (entry : Option (Option V × DateTime)) (now : DateTime) : Option V :=
  match entry with
  | some (value, expiresAt) => if expiresAt ≤ now then none else value
  | none => none

/-- What a look-up leaves of an entry of the process. -/
def kept (entry : Option (Option V × DateTime)) (now : DateTime) : Option (Option V × DateTime) :=
  match entry with
  | some (value, expiresAt) => if expiresAt ≤ now then none else some (value, expiresAt)
  | none => none

@[simp] theorem seen_kept (entry : Option (Option V × DateTime)) :
    seen (kept entry now) now = seen entry now := by
  rcases entry with - | ⟨value, expiresAt⟩
  · rfl
  · by_cases hexpired : expiresAt ≤ now
    · simp [kept, seen, hexpired]
    · simp [kept, seen, hexpired]

@[simp] theorem kept_kept (entry : Option (Option V × DateTime)) :
    kept (kept entry now) now = kept entry now := by
  rcases entry with - | ⟨value, expiresAt⟩
  · rfl
  · by_cases hexpired : expiresAt ≤ now
    · simp [kept, hexpired]
    · simp [kept, hexpired]

/-- The entry that a copy of Redis's answer makes, for the keys that the process keeps. -/
def copied (value : Option V) : Option (Option V × DateTime) :=
  if usesLocalCache key then some (value, now + timedelta (localTtlForKey S key)) else none

variable {key now}

theorem Known.get_eq_none (hL : Known L) (hkey : usesLocalCache key = false) : RecencyDict.get L key = none :=
  RecencyDict.KeysIn.get_eq_none hL fun hmem ↦ by
    rw [usesLocalCache_iff.2 hmem] at hkey
    exact nomatch hkey

theorem Known.get_put (hL : Known L) (hkey : usesLocalCache key = true) (entry : Option V × DateTime)
    (other : String) :
    RecencyDict.get (RecencyDict.put L key entry) other =
      if other = key then some entry else RecencyDict.get L other :=
  RecencyDict.KeysIn.get_put hL (by decide) (usesLocalCache_iff.1 hkey) entry other

/-! ### The tier of the process -/

variable (key now) in
/-- A look-up reads what is seen of its entry, and leaves what is kept of it. -/
theorem readLocal_spec (hL : Known L) :
    Known (readLocal L key now).2 ∧ (readLocal L key now).1 = seen (RecencyDict.get L key) now ∧
      ∀ other, RecencyDict.get (readLocal L key now).2 other =
        if other = key then kept (RecencyDict.get L key) now else RecencyDict.get L other := by
  by_cases hkey : usesLocalCache key = true
  · rw [readLocal, if_pos hkey, LocalTTLCache.get]
    rcases hget : RecencyDict.get L key with - | ⟨value, expiresAt⟩
    · dsimp only
      refine ⟨hL, rfl, fun other ↦ ?_⟩
      split
      · next h => rw [h, hget, kept]
      · rfl
    · dsimp only
      by_cases hexpired : expiresAt ≤ now
      · simp only [if_pos hexpired, seen, kept]
        exact ⟨RecencyDict.KeysIn.erase hL key, trivial, RecencyDict.get_erase L key⟩
      · simp only [if_neg hexpired, seen, kept]
        exact ⟨RecencyDict.KeysIn.put hL (usesLocalCache_iff.1 hkey) _, trivial, hL.get_put hkey _⟩
  · have hnone := hL.get_eq_none (eq_false_of_ne_true hkey)
    rw [readLocal, if_neg hkey, hnone]
    refine ⟨hL, rfl, fun other ↦ ?_⟩
    split
    · next h => rw [h, hnone, kept]
    · rfl

theorem Known.writeLocal (hL : Known L) (key : String) (value : Option V) (ttlSeconds : ℤ) (now : DateTime) :
    Known (writeLocal L key value ttlSeconds now) := by
  rw [GenericApp.writeLocal]
  split
  · next hkey => exact RecencyDict.KeysIn.put hL (usesLocalCache_iff.1 hkey) _
  · exact hL

/-- A copy changes its own entry. -/
theorem get_writeLocal (hL : Known L) (value : Option V) (other : String) :
    RecencyDict.get (writeLocal L key value (localTtlForKey S key) now) other =
      if other = key then copied S key now value else RecencyDict.get L other := by
  by_cases hkey : usesLocalCache key = true
  · rw [writeLocal, if_pos hkey, copied, if_pos hkey, LocalTTLCache.set]
    exact hL.get_put hkey _ other
  · rw [writeLocal, if_neg hkey, copied, if_neg hkey]
    split
    · next h => rw [h, hL.get_eq_none (eq_false_of_ne_true hkey)]
    · rfl

/-! ### A single read -/

variable (key now)

/-- What Redis answers for the key, and what that reads as. -/
def redisAnswer : Option (Option (Option V)) := (R.get key now).map J.loads

/-- The process has no value for the key, and Redis may have one. -/
def asksRedis (entry : Option (Option V × DateTime)) : Bool := (seen entry now).isNone && usesRedisCache S key

/-- What a single read takes from Redis, beside an entry of the process. -/
def taken (entry : Option (Option V × DateTime)) : Option (Option V) :=
  if asksRedis S key now entry then (redisAnswer J R key now).join else none

/-- The entry of the process after a single read. -/
def entryAfter (entry : Option (Option V × DateTime)) : Option (Option V × DateTime) :=
  (taken S J R key now entry).elim (kept entry now) (copied S key now)

/-- **A single read**: the value of the process, else that of Redis, which is copied. -/
theorem cacheGetJson_spec (hL : Known L) :
    Known (cacheGetJson S J R L key now).2 ∧
      (cacheGetJson S J R L key now).1 =
        (seen (RecencyDict.get L key) now).or (taken S J R key now (RecencyDict.get L key)).join ∧
      ∀ other, RecencyDict.get (cacheGetJson S J R L key now).2 other =
        if other = key then entryAfter S J R key now (RecencyDict.get L key) else RecencyDict.get L other := by
  obtain ⟨hknown, hseen, hkept⟩ := readLocal_spec key now hL
  rw [cacheGetJson, entryAfter, taken, asksRedis, redisAnswer]
  rcases hread : readLocal L key now with ⟨read, L₁⟩
  rw [hread] at hknown hseen hkept
  dsimp only at hknown hseen hkept
  rw [← hseen]
  rcases read with - | v
  · by_cases hredis : usesRedisCache S key = true
    · rcases hget : R.get key now with - | raw
      · simpa [hredis] using ⟨hknown, hkept⟩
      · rcases hloads : J.loads raw with - | value
        · simpa [hredis, hloads] using ⟨hknown, hkept⟩
        · simp only [hredis, hloads, Option.isNone_none, Bool.true_and, if_true, Option.map_some, Option.join_some,
            Option.none_or, Option.elim_some]
          refine ⟨hknown.writeLocal key value _ now, trivial, fun other ↦ ?_⟩
          rw [get_writeLocal S hknown, hkept]
          split
          · rfl
          · rfl
    · simpa [hredis] using ⟨hknown, hkept⟩
  · simpa using ⟨hknown, hkept⟩

variable {key now}

/-- Redis is asked again beside a copy that is not seen, and only then. -/
theorem taken_copied {value : Option V} {entry : Option (Option V × DateTime)}
    (h : taken S J R key now entry = some value) :
    (taken S J R key now (copied S key now value) = none ∧
        kept (copied S key now value) now = copied S key now value) ∨
      taken S J R key now (copied S key now value) = some value := by
  rw [taken] at h ⊢
  split at h
  · next hasks =>
    rw [asksRedis, Bool.and_eq_true] at hasks
    by_cases hseen : seen (copied S key now value) now = none
    · refine .inr ?_
      have hasks' : asksRedis S key now (copied S key now value) = true := by
        rw [asksRedis, hseen, Option.isNone_none, Bool.true_and, hasks.2]
      rw [if_pos hasks', h]
    · refine .inl ⟨if_neg fun hasks' ↦ ?_, ?_⟩
      · rw [asksRedis, Bool.and_eq_true, Option.isNone_iff_eq_none] at hasks'
        exact hseen hasks'.1
      · rw [copied] at hseen ⊢
        split
        · next hlocal =>
          rw [if_pos hlocal, seen] at hseen
          have hlive : ¬now + timedelta (localTtlForKey S key) ≤ now := fun hle ↦ hseen (if_pos hle)
          rw [kept, if_neg hlive]
        · rfl
  · exact nomatch h

/-- A read after a read changes nothing. -/
theorem entryAfter_entryAfter (entry : Option (Option V × DateTime)) :
    entryAfter S J R key now (entryAfter S J R key now entry) = entryAfter S J R key now entry := by
  rcases htaken : taken S J R key now entry with - | value
  · have hkept : taken S J R key now (kept entry now) = none := by
      rw [taken, asksRedis, seen_kept, ← asksRedis, ← taken, htaken]
    rw [entryAfter, entryAfter, htaken, Option.elim_none, hkept, Option.elim_none, kept_kept]
  · have hafter : entryAfter S J R key now entry = copied S key now value := by
      rw [entryAfter, htaken, Option.elim_some]
    rw [hafter, entryAfter]
    rcases taken_copied S J R htaken with ⟨hnone, hlive⟩ | hagain
    · rw [hnone, Option.elim_none, hlive]
    · rw [hagain, Option.elim_some]

/-! ### Single reads, one after the other -/

variable (L now)

/-- The process after `cache_get_json` of each key in turn. -/
def readOneByOne (keys : List String) : LocalTTLCache V :=
  keys.foldl (fun L key ↦ (cacheGetJson S J R L key now).2) L

variable {L}

/-- Every key that is read has its entry after a single read. -/
theorem readOneByOne_spec (hL : Known L) (keys : List String) (other : String) :
    RecencyDict.get (readOneByOne S J R L now keys) other =
      if other ∈ keys then entryAfter S J R other now (RecencyDict.get L other)
      else RecencyDict.get L other := by
  induction keys generalizing L with
  | nil => rfl
  | cons key keys ih =>
    obtain ⟨hknown, -, hafter⟩ := cacheGetJson_spec S J R key now hL
    show RecencyDict.get (readOneByOne S J R (cacheGetJson S J R L key now).2 now keys) other = _
    rw [ih hknown, hafter]
    by_cases hkey : other = key
    · subst hkey
      simp [entryAfter_entryAfter]
    · simp [hkey]

/-! ### The batch -/

variable (L)

/-- The keys of the batch that Redis is asked for. -/
def misses (keys : List String) : List String :=
  keys.filter fun key ↦ asksRedis S key now (RecencyDict.get L key)

variable {L}

/-- **The first loop** asks Redis for what the process has no value for. -/
theorem readLocals_spec (hL : Known L) (keys : List String) :
    Known (readLocals S L keys now).2.2 ∧
      (readLocals S L keys now).1 =
        keys.filterMap (fun key ↦ ((seen (RecencyDict.get L key) now).map some).map (key, ·)) ∧
      (readLocals S L keys now).2.1 = misses S L now keys ∧
      ∀ other, RecencyDict.get (readLocals S L keys now).2.2 other =
        if other ∈ keys then kept (RecencyDict.get L other) now else RecencyDict.get L other := by
  induction keys generalizing L with
  | nil => exact ⟨hL, rfl, rfl, fun _ ↦ rfl⟩
  | cons key keys ih =>
    obtain ⟨hknown, hseen, hkept⟩ := readLocal_spec key now hL
    rw [readLocals]
    rcases hread : readLocal L key now with ⟨read, L₁⟩
    rw [hread] at hknown hseen hkept
    dsimp only at hknown hseen hkept
    -- what is seen of an entry is not changed by the read of another key, nor by its own
    have hsame (other : String) :
        seen (RecencyDict.get L₁ other) now = seen (RecencyDict.get L other) now := by
      rw [hkept]
      split
      · next h => rw [h, seen_kept]
      · rfl
    obtain ⟨hknown', hvalues, hmisses, hstate⟩ := ih hknown
    simp only [hsame, misses, asksRedis] at hvalues hmisses
    have hall (other : String) : RecencyDict.get (readLocals S L₁ keys now).2.2 other =
        if other ∈ key :: keys then kept (RecencyDict.get L other) now else RecencyDict.get L other := by
      rw [hstate, hkept]
      by_cases hkey : other = key
      · subst hkey
        simp
      · simp [hkey]
    rcases read with - | v
    all_goals
      dsimp only
      refine ⟨hknown', ?_, ?_, hall⟩
      · rw [hvalues, List.filterMap_cons, ← hseen]
        rfl
      · rw [hmisses, misses, List.filter_cons, asksRedis, ← hseen]
        rfl

/-- What Redis answers for the key, if anything, is JSON. -/
def readable (key : String) : Bool := (redisAnswer J R key now).all Option.isSome

/-- The keys of `MGET` that the second loop comes to. -/
def reached (redisKeys : List String) : List String := redisKeys.takeWhile (readable J R now)

/-- **The second loop** copies what Redis has for the keys before the first text that is not JSON. -/
theorem refill_spec (hL : Known L) (redisKeys : List String) :
    Known (refill S J R L redisKeys now).2 ∧
      (refill S J R L redisKeys now).1 =
        (reached J R now redisKeys).filterMap (fun key ↦ (redisAnswer J R key now).join.map (key, ·)) ∧
      ∀ other, RecencyDict.get (refill S J R L redisKeys now).2 other =
        if other ∈ reached J R now redisKeys then
          (redisAnswer J R other now).join.elim (RecencyDict.get L other) (copied S other now)
        else RecencyDict.get L other := by
  induction redisKeys generalizing L with
  | nil => exact ⟨hL, rfl, fun _ ↦ rfl⟩
  | cons key redisKeys ih =>
    by_cases hreadable : readable J R now key = true
    · have hcons : reached J R now (key :: redisKeys) = key :: reached J R now redisKeys :=
        List.takeWhile_cons_of_pos hreadable
      rw [hcons, refill]
      rw [readable, redisAnswer] at hreadable
      rcases hget : R.get key now with - | raw
      · obtain ⟨hknown, hvalues, hstate⟩ := ih hL
        refine ⟨hknown, by simpa [redisAnswer, hget] using hvalues, fun other ↦ (hstate other).trans ?_⟩
        by_cases hkey : other = key
        · subst hkey
          simp [redisAnswer, hget]
        · simp [hkey]
      · obtain ⟨value, hloads⟩ : ∃ value, J.loads raw = some value :=
          Option.isSome_iff_exists.1 (by simpa [hget] using hreadable)
        obtain ⟨hknown, hvalues, hstate⟩ := ih (hL.writeLocal key value (localTtlForKey S key) now)
        simp only [hloads]
        refine ⟨hknown, by simpa [redisAnswer, hget, hloads] using hvalues, fun other ↦ ?_⟩
        rw [hstate, get_writeLocal S hL]
        by_cases hkey : other = key
        · subst hkey
          simp [redisAnswer, hget, hloads]
        · simp [hkey]
    · -- the first text that is not JSON ends the loop
      have hnil : reached J R now (key :: redisKeys) = [] := List.takeWhile_cons_of_neg hreadable
      rw [hnil, refill]
      rw [readable, redisAnswer] at hreadable
      rcases hget : R.get key now with - | raw
      · exact absurd (by rw [hget]; rfl) hreadable
      · have hloads : J.loads raw = none := by simpa [hget] using hreadable
        simpa [hloads] using hL

/-! ### Agreement -/

/-- The dictionary that `cache_get_many_json` returns. -/
def batchValues (L : LocalTTLCache V) (keys : List String) : Mapping (Option V) :=
  Mapping.ofEntries (cacheGetManyJson S J R L keys now).1

/-- **What the batch should do**: it has a value for each of its keys that a single read has one for, and
that value, and leaves the entries that the single reads leave. -/
structure BatchAgrees (L : LocalTTLCache V) (keys : List String) : Prop where
  values : ∀ key, (batchValues S J R now L keys).get? key =
    if key ∈ keys then (cacheGetJson S J R L key now).1.map some else none
  entries : ∀ e, e ∈ (cacheGetManyJson S J R L keys now).2.entries ↔
    e ∈ (readOneByOne S J R L now keys).entries

/-- No `null` comes before the first text that is not JSON, and what comes after it, and not before it as
well, has no value, nor makes an entry that is not there. -/
structure NothingLost (L : LocalTTLCache V) (keys : List String) : Prop where
  before : ∀ key ∈ reached J R now (misses S L now keys), redisAnswer J R key now ≠ some (some none)
  after : ∀ key ∈ misses S L now keys, key ∉ reached J R now (misses S L now keys) →
    ∀ value, redisAnswer J R key now = some (some value) →
      value = none ∧ copied S key now value = kept (RecencyDict.get L key) now

theorem lookup_filterMap (f : String → Option (Option V)) (keys : List String) :
    (keys.filterMap fun key ↦ (f key).map (key, ·)).reverse.lookup key =
      if key ∈ keys then f key else none := by
  induction keys with
  | nil => rfl
  | cons first keys ih =>
    rw [List.filterMap_cons]
    rcases hf : f first with - | value
    · rw [Option.map_none, ih]
      by_cases hkey : key = first
      · subst hkey
        simp [hf]
      · simp [hkey]
    · rw [Option.map_some, List.reverse_cons, List.lookup_append, ih]
      by_cases hkey : key = first
      · subst hkey
        rw [List.lookup_cons_self, if_pos List.mem_cons_self, hf]
        split
        · rfl
        · rfl
      · simp [hkey, List.lookup_cons, beq_eq_false_iff_ne.2 hkey]

/-- What the dictionary has under a key: what Redis answered, else what the process had. -/
theorem get?_batchValues (hL : Known L) (keys : List String) (key : String) :
    (batchValues S J R now L keys).get? key =
      (if key ∈ reached J R now (misses S L now keys) then (redisAnswer J R key now).join else none).or
        (if key ∈ keys then (seen (RecencyDict.get L key) now).map some else none) := by
  obtain ⟨hknown, hvalues, hmisses, -⟩ := readLocals_spec S now hL keys
  obtain ⟨-, hrefilled, -⟩ := refill_spec S J R now hknown (readLocals S L keys now).2.1
  rw [batchValues, Mapping.ofEntries, Mapping.get?_putAll, Mapping.get?_empty, Option.or_none]
  show ((readLocals S L keys now).1 ++ (refill S J R _ _ now).1).reverse.lookup key = _
  rw [List.reverse_append, List.lookup_append, hrefilled, hvalues, hmisses, lookup_filterMap, lookup_filterMap]

/-- The entry that the batch leaves under a key. -/
theorem get_cacheGetManyJson (hL : Known L) (keys : List String) (key : String) :
    RecencyDict.get (cacheGetManyJson S J R L keys now).2 key =
      if key ∈ reached J R now (misses S L now keys) then
        (redisAnswer J R key now).join.elim (kept (RecencyDict.get L key) now) (copied S key now)
      else if key ∈ keys then kept (RecencyDict.get L key) now
      else RecencyDict.get L key := by
  obtain ⟨hknown, -, hmisses, hkept⟩ := readLocals_spec S now hL keys
  obtain ⟨-, -, hstate⟩ := refill_spec S J R now hknown (readLocals S L keys now).2.1
  show RecencyDict.get (refill S J R _ _ now).2 key = _
  rw [hstate, hkept, hmisses]
  by_cases hreached : key ∈ reached J R now (misses S L now keys)
  · have hkey : key ∈ keys := List.mem_of_mem_filter ((List.takeWhile_sublist _).subset hreached)
    simp [hreached, hkey]
  · simp [hreached]

/-! #### Key by key -/

section Keys

variable {S J R now} {keys : List String}

theorem mem_keys_of_misses (h : key ∈ misses S L now keys) : key ∈ keys := List.mem_of_mem_filter h

theorem mem_misses_of_reached (h : key ∈ reached J R now (misses S L now keys)) :
    key ∈ misses S L now keys :=
  (List.takeWhile_sublist _).subset h

/-- A key that is missed has no value in the process, and a single read takes what Redis has. -/
theorem of_mem_misses (h : key ∈ misses S L now keys) :
    seen (RecencyDict.get L key) now = none ∧
      taken S J R key now (RecencyDict.get L key) = (redisAnswer J R key now).join := by
  have hasks : asksRedis S key now (RecencyDict.get L key) = true := (List.mem_filter.1 h).2
  refine ⟨?_, if_pos hasks⟩
  rw [asksRedis, Bool.and_eq_true, Option.isNone_iff_eq_none] at hasks
  exact hasks.1

/-- For another key a single read takes nothing from Redis. -/
theorem taken_of_not_mem_misses (hkey : key ∈ keys) (h : key ∉ misses S L now keys) :
    taken S J R key now (RecencyDict.get L key) = none :=
  if_neg fun hasks ↦ h (List.mem_filter.2 ⟨hkey, hasks⟩)

/-- The dictionary has what a single read returns, unless the key is `null` or has been lost. -/
theorem values_agree_iff (hL : Known L) (key : String) :
    (batchValues S J R now L keys).get? key =
        (if key ∈ keys then (cacheGetJson S J R L key now).1.map some else none) ↔
      (key ∈ reached J R now (misses S L now keys) → redisAnswer J R key now ≠ some (some none)) ∧
        (key ∈ misses S L now keys → key ∉ reached J R now (misses S L now keys) →
          ∀ v, redisAnswer J R key now ≠ some (some (some v))) := by
  rw [get?_batchValues S J R now hL, (cacheGetJson_spec S J R key now hL).2.1]
  by_cases hmiss : key ∈ misses S L now keys
  · obtain ⟨hseen, htaken⟩ := of_mem_misses (J := J) (R := R) hmiss
    simp only [hseen, htaken, mem_keys_of_misses hmiss, hmiss, if_true, Option.map_none, Option.or_none,
      Option.none_or, true_imp_iff]
    by_cases hreached : key ∈ reached J R now (misses S L now keys)
    · simp only [hreached, if_true, true_imp_iff, not_true, false_imp_iff, and_true]
      rcases redisAnswer J R key now with - | - | - | v <;> simp
    · simp only [hreached, if_false, false_imp_iff, true_and, not_false_eq_true, true_imp_iff]
      rcases redisAnswer J R key now with - | - | - | v <;> simp
  · have hreached : key ∉ reached J R now (misses S L now keys) := fun h ↦ hmiss (mem_misses_of_reached h)
    simp only [hmiss, hreached, if_false, Option.none_or, false_imp_iff, and_true, iff_true]
    split
    · next hkey => rw [taken_of_not_mem_misses hkey hmiss, Option.join_none, Option.or_none]
    · rfl

/-- The batch leaves the entry that the single reads leave, unless a copy has been lost. -/
theorem entries_agree_iff (hL : Known L) (key : String) :
    RecencyDict.get (cacheGetManyJson S J R L keys now).2 key =
        RecencyDict.get (readOneByOne S J R L now keys) key ↔
      (key ∈ misses S L now keys → key ∉ reached J R now (misses S L now keys) →
        ∀ value, redisAnswer J R key now = some (some value) →
          copied S key now value = kept (RecencyDict.get L key) now) := by
  rw [get_cacheGetManyJson S J R now hL, readOneByOne_spec S J R now hL, entryAfter]
  by_cases hmiss : key ∈ misses S L now keys
  · obtain ⟨-, htaken⟩ := of_mem_misses (J := J) (R := R) hmiss
    simp only [htaken, mem_keys_of_misses hmiss, hmiss, if_true, true_imp_iff]
    by_cases hreached : key ∈ reached J R now (misses S L now keys)
    · simp [hreached]
    · simp only [hreached, if_false, not_false_eq_true, true_imp_iff]
      rcases redisAnswer J R key now with - | - | value
      · simp
      · simp
      · simp [eq_comm]
  · have hreached : key ∉ reached J R now (misses S L now keys) := fun h ↦ hmiss (mem_misses_of_reached h)
    simp only [hmiss, hreached, if_false, false_imp_iff, iff_true]
    split
    · next hkey => rw [taken_of_not_mem_misses hkey hmiss, Option.elim_none]
    · rfl

end Keys

/-! ### Runs -/

section Runs

variable {S J R now}

theorem Known.cacheSetJson (hL : Known L) (value : Option V) (ttlSeconds : ℤ) :
    Known (cacheSetJson S J R L key value ttlSeconds now).2 := by
  have hwritten := hL.writeLocal key value ttlSeconds now
  rw [GenericApp.cacheSetJson]
  split
  · split
    · exact hwritten
    · split
      · exact hwritten
      · exact hwritten
  · exact hwritten

theorem Known.cacheGetManyJson (hL : Known L) (keys : List String) :
    Known (cacheGetManyJson S J R L keys now).2 :=
  (refill_spec S J R now (readLocals_spec S now hL keys).1 _).1

theorem known_update {locals : ℕ → LocalTTLCache V} (h : ∀ p, Known (locals p)) {p : ℕ} (hL : Known L)
    (q : ℕ) :
    Known (Function.update locals p L q) := by
  rcases update_cases (f := locals) (i := p) (x := L) rfl q with ⟨-, heq⟩ | ⟨-, heq⟩
  · rw [heq]
    exact hL
  · rw [heq]
    exact h q

/-- **In every run** a process has entries only for the keys it keeps. -/
theorem known_of_reachable {u : CacheRun V} (h : (cacheMachine S J).Reachable anyStep u) (p : ℕ) :
    Known (u.locals p) := by
  refine h.invariant (I := fun u ↦ ∀ p, Known (u.locals p)) (fun u hu p ↦ ?_) (fun u c t hu _ hstep ↦ ?_) p
  · rw [hu.2.1 p]
    exact fun e he ↦ absurd he List.not_mem_nil
  · obtain ⟨-, hcall⟩ := Option.ite_none_right_eq_some.1 hstep
    obtain rfl := Option.some.inj hcall
    cases c with
    | set p key value ttlSeconds now => exact known_update hu ((hu p).cacheSetJson value ttlSeconds)
    | get p key now => exact known_update hu (cacheGetJson_spec S J u.redis key now (hu p)).1
    | getMany p keys now => exact known_update hu ((hu p).cacheGetManyJson keys)

/-- `_local_cache`, which every writer writes only after `_uses_local_cache`. -/
structure LocalCache (V : Type) where
  cache : LocalTTLCache V
  known : Known cache

/-- The entries that a process has in a run. -/
def CacheRun.localCache {u : CacheRun V} (h : (cacheMachine S J).Reachable anyStep u) (p : ℕ) :
    LocalCache V :=
  ⟨u.locals p, known_of_reachable h p⟩

end Runs

/-- **When a batch reads what single reads read**: no `null` comes before the first text that is not JSON,
and nothing that a single read would find comes after it. -/
theorem batch_agrees_iff (L : LocalCache V) (keys : List String) :
    BatchAgrees S J R now L.cache keys ↔ NothingLost S J R now L.cache keys := by
  have hentries := RecencyDict.mem_entries_congr (D := (cacheGetManyJson S J R L.cache keys now).2)
    (E := readOneByOne S J R L.cache now keys)
  constructor
  · intro h
    have hvalues (key : String) := (values_agree_iff L.known key).1 (h.values key)
    refine ⟨fun key hreached ↦ (hvalues key).1 hreached, fun key hmiss hlost value hvalue ↦ ⟨?_, ?_⟩⟩
    · rcases value with - | v
      · rfl
      · exact absurd hvalue ((hvalues key).2 hmiss hlost v)
    · exact (entries_agree_iff L.known key).1 (hentries.1 h.entries key) hmiss hlost value hvalue
  · intro h
    refine ⟨fun key ↦ (values_agree_iff L.known key).2 ⟨h.before key, fun hmiss hlost v hvalue ↦ ?_⟩,
      hentries.2 fun key ↦ (entries_agree_iff L.known key).2 fun hmiss hlost value hvalue ↦ ?_⟩
    · exact absurd (h.after key hmiss hlost _ hvalue).1 (Option.some_ne_none v)
    · exact (h.after key hmiss hlost _ hvalue).2

/-! ### A text that is not JSON -/

/-- Redis has a text that was cut off under one key, and a value under another. -/
def cutOff : Redis :=
  (ExpiringStore.put ExpiringStore.empty "ga:one" "tru" none).put "ga:two" "true" none

/-- **The keys after it are lost**: a single read returns the value, the batch does not. -/
theorem batch_loses_keys :
    ¬BatchAgrees CacheSettings.default boolJson cutOff 0 RecencyDict.empty ["ga:one", "ga:two"] := by
  intro h
  have hvalue := h.values "ga:two"
  exact absurd hvalue (by decide)

end GenericApp
