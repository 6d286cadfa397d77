import GenericApp.Core.Cache
import GenericApp.Foundation.Machine

/-!
# How old a cached value can be

Any number of processes, one Redis, one clock, and a sequence of calls, each of which goes through. The
run keeps what has been written and what has been returned, so that an answer can be traced to the call
that wrote it.

An entry that was written directly ends with the lifetime of its write in either tier. A copy does not: it
is made at an instant at which Redis still has the value, and then lives for as long as its key lets a copy
live, whatever was left of the lifetime of the original. So a value can be as old as both together, but no
older, since nothing is ever copied from a process.

* `cached_values_are_bounded`: what a read returns was written within the lifetime of its write, to which
  a key that is kept in both tiers adds the lifetime of one copy.
* `copies_outlive_writes`: with the settings as they are shipped, a value that was written for 300 seconds
  is returned after 598.
-/

namespace GenericApp

open Machine Py

/-! ### Runs -/

/-- A call of `cache_set_json`. -/
structure CacheWrite (V : Type) where
  key : String
  value : Option V
  ttlSeconds : ℤ
  time : DateTime

/-- A value that was returned. -/
structure CacheRead (V : Type) where
  process : ℕ
  key : String
  value : Option V
  time : DateTime
deriving DecidableEq

/-- The clock, both tiers, and what has been written and returned. -/
structure CacheRun (V : Type) where
  clock : DateTime
  redis : Redis
  locals : ℕ → LocalTTLCache V
  writes : List (CacheWrite V)
  reads : List (CacheRead V)

/-- The calls, with the process that makes them and the clock. -/
inductive CacheCall (V : Type)
  | set (p : ℕ) (key : String) (value : Option V) (ttlSeconds : ℤ) (now : DateTime)
  | get (p : ℕ) (key : String) (now : DateTime)
  | getMany (p : ℕ) (keys : List String) (now : DateTime)

/-- The clock of a call. -/
def CacheCall.now {V : Type} : CacheCall V → DateTime
  | set _ _ _ _ now | get _ _ now | getMany _ _ now => now

variable {V : Type} (S : CacheSettings) (J : JsonCodec V)

/-- One call. A `None` that `cache_get_json` returns is a miss, not a value. -/
def CacheRun.call (u : CacheRun V) : CacheCall V → CacheRun V
  | .set p key value ttlSeconds now =>
    let (R, L) := cacheSetJson S J u.redis (u.locals p) key value ttlSeconds now
    { u with
      clock := now
      redis := R
      locals := Function.update u.locals p L
      writes := u.writes ++ [⟨key, value, ttlSeconds, now⟩] }
  | .get p key now =>
    let (value, L) := cacheGetJson S J u.redis (u.locals p) key now
    { u with
      clock := now
      locals := Function.update u.locals p L
      reads := u.reads ++ (value.map fun v ↦ ⟨p, key, some v, now⟩).toList }
  | .getMany p keys now =>
    let (values, L) := cacheGetManyJson S J u.redis (u.locals p) keys now
    { u with
      clock := now
      locals := Function.update u.locals p L
      reads := u.reads ++ values.map fun e ↦ ⟨p, e.1, e.2, now⟩ }

/-- From empty tiers, calls at instants that do not go back. -/
def cacheMachine : Machine (CacheRun V) (CacheCall V) where
  init u := u.redis = ExpiringStore.empty ∧ (∀ p, u.locals p = RecencyDict.empty) ∧ u.writes = [] ∧
    u.reads = []
  step u c := if u.clock ≤ c.now then some (u.call S J c) else none

/-! ### Tracing a value to its write -/

/-- The value is the one written, or what its text reads as. -/
def CacheWrite.Carries (w : CacheWrite V) (value : Option V) : Prop :=
  value = w.value ∨ ∃ raw, J.dumps w.value = some raw ∧ J.loads raw = some value

/-- The value may still be returned at this instant. -/
def CacheWrite.Allows (w : CacheWrite V) (t : DateTime) : Prop :=
  t ≤ w.time + timedelta w.ttlSeconds ∨
    (usesBothTiers S w.key = true ∧
      t < w.time + timedelta w.ttlSeconds + timedelta (localTtlForKey S w.key))

/-- Every entry of a process comes from a write that allows it for as long as it lives. -/
def LocalTraced (W : List (CacheWrite V)) (L : LocalTTLCache V) : Prop :=
  ∀ e ∈ L.entries, ∃ w ∈ W, w.key = e.1 ∧ w.Carries J e.2.1 ∧ ∀ t < e.2.2, w.Allows S t

/-- Every entry of Redis comes from a write, and lives as long as it said. -/
def RedisTraced (W : List (CacheWrite V)) (R : Redis) : Prop :=
  ∀ key e, R key = some e → ∃ w ∈ W, w.key = key ∧ J.dumps w.value = some e.value ∧
    e.expiresAt = some (w.time + timedelta w.ttlSeconds)

/-- The value that was returned comes from an earlier write that allows it. -/
def Justified (W : List (CacheWrite V)) (r : CacheRead V) : Prop :=
  ∃ w ∈ W, w.key = r.key ∧ w.time ≤ r.time ∧ w.Carries J r.value ∧ w.Allows S r.time

variable {S J} {W : List (CacheWrite V)} {R : Redis} {L : LocalTTLCache V} {key : String}
  {now : DateTime}

theorem LocalTraced.mono {w : CacheWrite V} (h : LocalTraced S J W L) : LocalTraced S J (W ++ [w]) L := by
  intro e he
  obtain ⟨w', hw', hrest⟩ := h e he
  exact ⟨w', List.mem_append_left _ hw', hrest⟩

theorem Justified.mono {w : CacheWrite V} {r : CacheRead V} (h : Justified S J W r) :
    Justified S J (W ++ [w]) r := by
  obtain ⟨w', hw', hrest⟩ := h
  exact ⟨w', List.mem_append_left _ hw', hrest⟩

/-- What Redis answers comes from a write whose lifetime is not over. -/
theorem RedisTraced.of_get (h : RedisTraced J W R) {raw : String} {value : Option V}
    (hget : R.get key now = some raw) (hloads : J.loads raw = some value) :
    ∃ w ∈ W, w.key = key ∧ w.Carries J value ∧ now ≤ w.time + timedelta w.ttlSeconds := by
  obtain ⟨e, he, hlive, rfl⟩ := ExpiringStore.live_of_get hget
  obtain ⟨w, hw, hkey, hdumps, hexpires⟩ := h key e he
  exact ⟨w, hw, hkey, .inr ⟨_, hdumps, hloads⟩, hlive _ hexpires⟩

/-! ### What the functions keep -/

/-- A copy of what Redis answers lives no longer than its write allows. -/
theorem localTraced_copy (hL : LocalTraced S J W L) (hR : RedisTraced J W R) {raw : String} {value : Option V}
    (hredis : usesRedisCache S key = true) (hget : R.get key now = some raw)
    (hloads : J.loads raw = some value) :
    LocalTraced S J W (writeLocal L key value (localTtlForKey S key) now) := by
  rw [writeLocal]
  split
  · next hlocal =>
    intro e he
    rcases LocalTTLCache.mem_set he with rfl | hold
    · obtain ⟨w, hw, rfl, hcarries, hfresh⟩ := hR.of_get hget hloads
      refine ⟨w, hw, rfl, hcarries, fun t ht ↦ .inr ⟨?_, ?_⟩⟩
      · rw [usesBothTiers, hlocal, hredis, Bool.and_self]
      · show t < w.time + timedelta w.ttlSeconds + timedelta (localTtlForKey S w.key)
        have hlt : t < now + timedelta (localTtlForKey S w.key) := ht
        exact Int.lt_of_lt_of_le hlt (Int.add_le_add_right hfresh _)
    · exact hL e hold
  · exact hL

/-- A direct write lives exactly as long as it said. -/
theorem localTraced_write (hL : LocalTraced S J W L) (key : String) (value : Option V) (ttlSeconds : ℤ)
    (now : DateTime) :
    LocalTraced S J (W ++ [⟨key, value, ttlSeconds, now⟩]) (writeLocal L key value ttlSeconds now) := by
  rw [writeLocal]
  split
  · intro e he
    rcases LocalTTLCache.mem_set he with rfl | hold
    · exact ⟨_, List.mem_append_right _ (List.mem_singleton_self _), rfl, .inl rfl,
        fun t ht ↦ .inl (le_of_lt ht)⟩
    · exact hL.mono e hold
  · exact hL.mono

theorem localTraced_readLocal (hL : LocalTraced S J W L) : LocalTraced S J W (readLocal L key now).2 := by
  rw [readLocal]
  split
  · exact fun e he ↦ hL e (LocalTTLCache.mem_get he)
  · exact hL

/-- What the process has is allowed. -/
theorem justified_readLocal (hL : LocalTraced S J W L) (hW : ∀ w ∈ W, w.time ≤ now) {v : V}
    (h : (readLocal L key now).1 = some v) (p : ℕ) : Justified S J W ⟨p, key, some v, now⟩ := by
  rw [readLocal] at h
  split at h
  · obtain ⟨expiresAt, hmem, hlive⟩ := LocalTTLCache.mem_of_get h
    obtain ⟨w, hw, hkey, hcarries, hallows⟩ := hL _ hmem
    exact ⟨w, hw, hkey, hW w hw, hcarries, hallows now hlive⟩
  · exact nomatch h

/-- What Redis answers is allowed. -/
theorem RedisTraced.justified (hR : RedisTraced J W R) (hW : ∀ w ∈ W, w.time ≤ now) {raw : String}
    {value : Option V} (hget : R.get key now = some raw) (hloads : J.loads raw = some value) (p : ℕ) :
    Justified S J W ⟨p, key, value, now⟩ := by
  obtain ⟨w, hw, hkey, hcarries, hfresh⟩ := hR.of_get hget hloads
  exact ⟨w, hw, hkey, hW w hw, hcarries, .inl hfresh⟩

/-- **`cache_get_json`** leaves copies that are allowed and returns a value that is. -/
theorem cacheGetJson_sound (hL : LocalTraced S J W L) (hR : RedisTraced J W R) (hW : ∀ w ∈ W, w.time ≤ now)
    (key : String) (p : ℕ) :
    LocalTraced S J W (cacheGetJson S J R L key now).2 ∧
      ∀ v, (cacheGetJson S J R L key now).1 = some v → Justified S J W ⟨p, key, some v, now⟩ := by
  have hheld : LocalTraced S J W (readLocal L key now).2 := localTraced_readLocal hL
  have hlocal := fun v (h : (readLocal L key now).1 = some v) ↦ justified_readLocal hL hW h p
  rw [cacheGetJson]
  split
  · next v L' hread =>
    rw [hread] at hheld hlocal
    exact ⟨hheld, fun v' h ↦ hlocal v' h⟩
  · next L' hread =>
    rw [hread] at hheld
    split
    · next hredis =>
      split
      · exact ⟨hheld, fun v h ↦ nomatch h⟩
      · next raw hget =>
        split
        · exact ⟨hheld, fun v h ↦ nomatch h⟩
        · next value hloads =>
          refine ⟨localTraced_copy hheld hR hredis hget hloads, fun v h ↦ ?_⟩
          obtain rfl : value = some v := h
          exact hR.justified hW hget hloads p
    · exact ⟨hheld, fun v h ↦ nomatch h⟩

/-- The first loop: what the process has is allowed, and Redis is asked for keys that it keeps. -/
theorem readLocals_sound (hW : ∀ w ∈ W, w.time ≤ now) (p : ℕ) (keys : List String) (hL : LocalTraced S J W L) :
    LocalTraced S J W (readLocals S L keys now).2.2 ∧
      (∀ e ∈ (readLocals S L keys now).1, Justified S J W ⟨p, e.1, e.2, now⟩) ∧
      ∀ key ∈ (readLocals S L keys now).2.1, usesRedisCache S key = true := by
  induction keys generalizing L with
  | nil => exact ⟨hL, fun e he ↦ absurd he List.not_mem_nil, fun k hk ↦ absurd hk List.not_mem_nil⟩
  | cons key keys ih =>
    have hheld : LocalTraced S J W (readLocal L key now).2 := localTraced_readLocal hL
    have hlocal := fun v (h : (readLocal L key now).1 = some v) ↦ justified_readLocal hL hW h p
    rw [readLocals]
    split
    · next v L' hread =>
      rw [hread] at hheld hlocal
      obtain ⟨hheld', hvalues, hkeys⟩ := ih hheld
      refine ⟨hheld', fun e he ↦ ?_, hkeys⟩
      rcases List.mem_cons.1 he with rfl | he
      · exact hlocal v rfl
      · exact hvalues e he
    · next L' hread =>
      rw [hread] at hheld
      obtain ⟨hheld', hvalues, hkeys⟩ := ih hheld
      refine ⟨hheld', hvalues, fun k hk ↦ ?_⟩
      dsimp only at hk
      split at hk
      · next hredis =>
        rcases List.mem_cons.1 hk with rfl | hk
        · exact hredis
        · exact hkeys k hk
      · exact hkeys k hk

/-- The second loop: what Redis answers is allowed, and so is every copy of it. -/
theorem refill_sound (hR : RedisTraced J W R) (hW : ∀ w ∈ W, w.time ≤ now) (p : ℕ) (redisKeys : List String)
    (hkeys : ∀ key ∈ redisKeys, usesRedisCache S key = true) (hL : LocalTraced S J W L) :
    LocalTraced S J W (refill S J R L redisKeys now).2 ∧
      ∀ e ∈ (refill S J R L redisKeys now).1, Justified S J W ⟨p, e.1, e.2, now⟩ := by
  induction redisKeys generalizing L with
  | nil => exact ⟨hL, fun e he ↦ absurd he List.not_mem_nil⟩
  | cons key redisKeys ih =>
    have hrest := fun k hk ↦ hkeys k (List.mem_cons_of_mem key hk)
    rw [refill]
    split
    · exact ih hrest hL
    · next raw hget =>
      split
      · exact ⟨hL, fun e he ↦ absurd he List.not_mem_nil⟩
      · next value hloads =>
        have hcopy := localTraced_copy hL hR (hkeys key List.mem_cons_self) hget hloads
        obtain ⟨hheld, hvalues⟩ := ih hrest hcopy
        refine ⟨hheld, fun e he ↦ ?_⟩
        rcases List.mem_cons.1 he with rfl | he
        · exact hR.justified hW hget hloads p
        · exact hvalues e he

/-- **`cache_get_many_json`** leaves copies that are allowed and returns values that are. -/
theorem cacheGetManyJson_sound (hL : LocalTraced S J W L) (hR : RedisTraced J W R) (hW : ∀ w ∈ W, w.time ≤ now)
    (p : ℕ) (keys : List String) :
    LocalTraced S J W (cacheGetManyJson S J R L keys now).2 ∧
      ∀ e ∈ (cacheGetManyJson S J R L keys now).1, Justified S J W ⟨p, e.1, e.2, now⟩ := by
  obtain ⟨hheld, hvalues, hkeys⟩ := readLocals_sound hW p keys hL
  obtain ⟨hheld', hrefilled⟩ := refill_sound hR hW p _ hkeys hheld
  refine ⟨hheld', fun e he ↦ ?_⟩
  rcases List.mem_append.1 he with he | he
  · exact hvalues e he
  · exact hrefilled e he

/-- **`cache_set_json`** leaves in both tiers only what its own write allows, or what was there. -/
theorem cacheSetJson_sound (hL : LocalTraced S J W L) (hR : RedisTraced J W R) (key : String) (value : Option V)
    (ttlSeconds : ℤ) (now : DateTime) :
    LocalTraced S J (W ++ [⟨key, value, ttlSeconds, now⟩]) (cacheSetJson S J R L key value ttlSeconds now).2 ∧
      RedisTraced J (W ++ [⟨key, value, ttlSeconds, now⟩])
        (cacheSetJson S J R L key value ttlSeconds now).1 := by
  have hheld := localTraced_write hL key value ttlSeconds now
  have hold : RedisTraced J (W ++ [⟨key, value, ttlSeconds, now⟩]) R := fun k e he ↦ by
    obtain ⟨w, hw, hrest⟩ := hR k e he
    exact ⟨w, List.mem_append_left _ hw, hrest⟩
  rw [cacheSetJson]
  split
  · split
    · exact ⟨hheld, hold⟩
    · next serialized hdumps =>
      split
      · exact ⟨hheld, hold⟩
      · refine ⟨hheld, fun k e he ↦ ?_⟩
        rw [Redis.setex] at he
        split at he
        · rcases ExpiringStore.put_cases he with ⟨rfl, rfl⟩ | ⟨-, he⟩
          · exact ⟨_, List.mem_append_right _ (List.mem_singleton_self _), rfl, hdumps, rfl⟩
          · exact hold k e he
        · exact hold k e he
  · exact ⟨hheld, hold⟩

/-! ### Runs keep to it -/

variable (S J) in
/-- No write is in the future, and everything in either tier and every answer comes from one of them. -/
structure Traced (u : CacheRun V) : Prop where
  past : ∀ w ∈ u.writes, w.time ≤ u.clock
  held : ∀ p, LocalTraced S J u.writes (u.locals p)
  stored : RedisTraced J u.writes u.redis
  justified : ∀ r ∈ u.reads, Justified S J u.writes r

theorem traced_init {u : CacheRun V} (h : (cacheMachine S J).init u) : Traced S J u := by
  obtain ⟨hredis, hlocals, hwrites, hreads⟩ := h
  refine ⟨?_, fun p e he ↦ ?_, fun k e he ↦ ?_, ?_⟩
  · rw [hwrites]
    exact fun w hw ↦ absurd hw List.not_mem_nil
  · rw [hlocals p] at he
    exact absurd he List.not_mem_nil
  · rw [hredis] at he
    exact nomatch he
  · rw [hreads]
    exact fun r hr ↦ absurd hr List.not_mem_nil

/-- Where one process has new copies, each process has copies that are allowed. -/
theorem localTraced_update {locals : ℕ → LocalTTLCache V} (h : ∀ p, LocalTraced S J W (locals p)) {p : ℕ}
    (hL : LocalTraced S J W L) (q : ℕ) : LocalTraced S J W (Function.update locals p L q) := by
  rcases update_cases (f := locals) (i := p) (x := L) rfl q with ⟨-, heq⟩ | ⟨-, heq⟩
  · rw [heq]
    exact hL
  · rw [heq]
    exact h q

theorem traced_call {u : CacheRun V} (h : Traced S J u) (c : CacheCall V) (hc : u.clock ≤ c.now) :
    Traced S J (u.call S J c) := by
  have hpast : ∀ w ∈ u.writes, w.time ≤ c.now := fun w hw ↦ Int.le_trans (h.past w hw) hc
  cases c with
  | set p key value ttlSeconds now =>
    obtain ⟨hheld, hstored⟩ := cacheSetJson_sound (h.held p) h.stored key value ttlSeconds now
    refine ⟨fun w hw ↦ ?_, localTraced_update (fun q ↦ (h.held q).mono) hheld, hstored,
      fun r hr ↦ (h.justified r hr).mono⟩
    rcases List.mem_append.1 hw with hw | hw
    · exact hpast w hw
    · obtain rfl := List.mem_singleton.1 hw
      exact le_rfl
  | get p key now =>
    obtain ⟨hheld, hvalue⟩ := cacheGetJson_sound (h.held p) h.stored hpast key p
    refine ⟨hpast, localTraced_update h.held hheld, h.stored, fun r hr ↦ ?_⟩
    rcases List.mem_append.1 hr with hr | hr
    · exact h.justified r hr
    · obtain ⟨v, hv, rfl⟩ := Option.map_eq_some_iff.1 (Option.mem_toList.1 hr)
      exact hvalue v hv
  | getMany p keys now =>
    obtain ⟨hheld, hvalues⟩ := cacheGetManyJson_sound (h.held p) h.stored hpast p keys
    refine ⟨hpast, localTraced_update h.held hheld, h.stored, fun r hr ↦ ?_⟩
    rcases List.mem_append.1 hr with hr | hr
    · exact h.justified r hr
    · obtain ⟨e, he, rfl⟩ := List.mem_map.1 hr
      exact hvalues e he

theorem traced_of_reachable {u : CacheRun V} (h : (cacheMachine S J).Reachable anyStep u) :
    Traced S J u := by
  refine h.invariant (fun u hu ↦ traced_init hu) fun u c t hu _ hstep ↦ ?_
  rw [show (cacheMachine S J).step u c = if u.clock ≤ c.now then some (u.call S J c) else none
    from rfl] at hstep
  split at hstep
  · next hc =>
    obtain rfl := Option.some.inj hstep
    exact traced_call hu c hc
  · exact nomatch hstep

variable (S J) in
/-- **A value is returned within the lifetime of its write, and for keys in both tiers within that of one
copy more.** -/
theorem cached_values_are_bounded {u : CacheRun V} (h : (cacheMachine S J).Reachable anyStep u)
    {r : CacheRead V} (hr : r ∈ u.reads) :
    ∃ w ∈ u.writes, w.key = r.key ∧ w.time ≤ r.time ∧ w.Carries J r.value ∧
      (r.time ≤ w.time + timedelta w.ttlSeconds ∨
        (usesBothTiers S r.key = true ∧
          r.time < w.time + timedelta w.ttlSeconds + timedelta (localTtlForKey S r.key))) := by
  obtain ⟨w, hw, hkey, hat, hcarries, hallows⟩ := (traced_of_reachable h).justified r hr
  rw [← hkey]
  exact ⟨w, hw, rfl, hat, hcarries, hallows⟩

/-! ### The bound is that of a copy -/

/-- The JSON of Booleans. -/
def boolJson : JsonCodec Bool where
  dumps
    | none => some "null"
    | some true => some "true"
    | some false => some "false"
  loads raw :=
    if raw = "null" then some none
    else if raw = "true" then some (some true)
    else if raw = "false" then some (some false)
    else none

/-- The empty tiers. -/
def CacheRun.start : CacheRun V := ⟨0, ExpiringStore.empty, fun _ ↦ RecencyDict.empty, [], []⟩

theorem start_init : (cacheMachine S J).init CacheRun.start := ⟨rfl, fun _ ↦ rfl, rfl, rfl⟩

/-- One process writes a value for 300 seconds, another copies it after 299 and reads its copy after 598. -/
def lateCopy : List (CacheCall Bool) :=
  [.set 0 platformConfigCacheKey (some true) 300 0,
    .get 1 platformConfigCacheKey (timedelta 299),
    .get 1 platformConfigCacheKey (timedelta 598)]

/-- **A copy outlives the lifetime of its write.** -/
theorem copies_outlive_writes :
    ∃ u, (cacheMachine CacheSettings.default boolJson).Reachable anyStep u ∧
      ∃ r ∈ u.reads, ∀ w ∈ u.writes, w.key = r.key → ¬r.time ≤ w.time + timedelta w.ttlSeconds := by
  refine ⟨_, reachable_run start_init (show ((cacheMachine CacheSettings.default boolJson).run anyStep
      CacheRun.start lateCopy).isSome = true by decide +kernel),
    ⟨1, platformConfigCacheKey, some true, timedelta 598⟩, ?_, ?_⟩
  · decide +kernel
  · decide +kernel

/-- `cached_values_are_bounded` at the read of the copy. -/
theorem cached_values_are_bounded_late :
    ∃ w : CacheWrite Bool, w.key = platformConfigCacheKey ∧ w.time ≤ timedelta 598 ∧
      timedelta 598 < w.time + timedelta w.ttlSeconds + timedelta 300 := by
  have hrun := reachable_run start_init (show ((cacheMachine CacheSettings.default boolJson).run anyStep
    CacheRun.start lateCopy).isSome = true by decide +kernel)
  obtain ⟨w, -, hkey, htime, -, hbound⟩ := cached_values_are_bounded CacheSettings.default boolJson hrun
    (show ⟨1, platformConfigCacheKey, some true, timedelta 598⟩ ∈ _ by decide +kernel)
  refine ⟨w, hkey, htime, ?_⟩
  rcases hbound with hfresh | ⟨-, hcopy⟩
  · exact Int.lt_of_le_of_lt hfresh (Int.lt_add_of_pos_right _ (by decide))
  · exact hcopy

end GenericApp
