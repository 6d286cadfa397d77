import GenericApp.Core.Invalidation
import GenericApp.Core.SingleFlight

/-!
# What a load returns

A run of `coordinated_cache_load`, with a record of what the loaders have returned and of what the calls have
returned. The record is read off the steps: it changes nothing in the machine (`reachable_loads`).

Every value in the tiers, and in the hands of a call, comes from a loader. A call that finds nothing goes on
to the next look-up or to the loader, except at the end of its last look-up: when the wait for the lock has
seen the entry, the call returns what `get_cached()` returns, and the entry may be gone by then.

* `loads_return_values`: as long as the last look-up finds the entry, every call returns a value that a loader
  has returned, and at most one loader runs in a process.
* `none_of_unserved`: a last look-up that Redis does not answer with the entry makes the call return `None`.
* `load_returns_none`: an invalidation between the last two look-ups is enough for that.
-/

namespace GenericApp

open Machine Py

variable {S : CacheSettings} {key : String} {ttlSeconds : ℤ}

/-! ### What is returned -/

/-- The call that a statement belongs to. -/
def CacheLoadAction.caller : CacheLoadAction → Option ℕ
  | start i _ | answerGet i _ | resume i | acquire i | poll i | tryLock i _ _ | readFilled i | load i
  | fail i | storeLocal i | share i _ | release i _ => some i
  | tick _ | commit .. | deleteLocal _ | deleteShared .. | evict _ | restart _ | forget => none

/-- The loader of the call has raised. -/
def CacheLoad.raised : CacheLoad → Bool
  | releasing _ _ _ none => true
  | _ => false

/-- What a step that ends its call returns: the value that it answers with, else `None`. Where the loader has
raised, the call raises as well. -/
def CacheLoads.returns (u : CacheLoads) (a : CacheLoadAction) (t : CacheLoads) : List (Option ℕ) :=
  match a.caller with
  | none => []
  | some i =>
    if (t.loads i).isSome || (u.loads i).any CacheLoad.raised then []
    else [(t.answers.drop u.answers.length).head?.map CacheAnswer.value]

/-- What the loader returns in a step. -/
def CacheLoads.loaderReturns (u : CacheLoads) : CacheLoadAction → List ℕ
  | .load _ => [u.version]
  | _ => []

/-- The calls, what the loaders have returned, and what the calls have returned. -/
structure LoadOutcomes where
  loads : CacheLoads
  loaded : List ℕ
  returned : List (Option ℕ)

/-- The machine of the calls, with the record. -/
def loadOutcomeMachine (S : CacheSettings) (key : String) (ttlSeconds : ℤ) :
    Machine LoadOutcomes CacheLoadAction where
  init o := (cacheLoadMachine S key ttlSeconds).init o.loads ∧ o.loaded = [] ∧ o.returned = []
  step o a := (o.loads.step S key ttlSeconds a).map fun t ↦
    ⟨t, o.loaded ++ o.loads.loaderReturns a, o.returned ++ o.loads.returns a t⟩

/-- The record does not take part in the run. -/
theorem reachable_loads {o : LoadOutcomes} {C : LoadOutcomes → CacheLoadAction → Prop}
    (h : (loadOutcomeMachine S key ttlSeconds).Reachable C o) :
    (cacheLoadMachine S key ttlSeconds).Reachable anyStep o.loads := by
  refine h.invariant (I := fun o ↦ (cacheLoadMachine S key ttlSeconds).Reachable anyStep o.loads)
    (fun o (ho : (loadOutcomeMachine S key ttlSeconds).init o) ↦ .of_init ho.1) fun o a t ho _ hstep ↦ ?_
  obtain ⟨u, hu, rfl⟩ := Option.map_eq_some_iff.1 hstep
  exact ho.tail trivial hu

/-- No loader raises. That none returns `None` is in the type of what it returns. -/
def LoadersReturn (_ : LoadOutcomes) : CacheLoadAction → Prop
  | .fail _ => False
  | _ => True

instance (o : LoadOutcomes) : (a : CacheLoadAction) → Decidable (LoadersReturn o a)
  | .fail _ => isFalse id
  | .tick _ | .start .. | .answerGet .. | .resume _ | .acquire _ | .poll _ | .tryLock .. | .readFilled _
  | .load _ | .storeLocal _ | .share .. | .release .. | .commit .. | .deleteLocal _ | .deleteShared ..
  | .evict _ | .restart _ | .forget => isTrue trivial

/-- **What a run should deliver**: what a call has returned was returned by a loader, and no two loaders run in
one process. -/
structure LoadOutcomes.Delivered (o : LoadOutcomes) : Prop where
  returned : ∀ r ∈ o.returned, ∃ value ∈ o.loaded, r = some value
  single : ∀ i j p since since' token token', o.loads.loads i = some (.loading p since token) →
    o.loads.loads j = some (.loading p since' token') → i = j

/-! ### The last look-up -/

variable (key) in
/-- **The last look-up is served**: the `GET` of a call that has been told that the cache is filled is
answered, and Redis still has the entry. And no loader raises. -/
def CacheLoads.Served (u : CacheLoads) : CacheLoadAction → Prop
  | .answerGet i reply =>
    match u.loads i with
    | some (.reading _ _ .last) => reply = .answered ∧ (u.redis.get key u.clock).isSome = true
    | _ => True
  | .fail _ => False
  | _ => True

instance (u : CacheLoads) : (a : CacheLoadAction) → Decidable (u.Served key a)
  | .answerGet i reply =>
    match h : u.loads i with
    | some (.reading p since .last) =>
      decidable_of_iff (reply = .answered ∧ (u.redis.get key u.clock).isSome = true)
        (by rw [CacheLoads.Served, h])
    | none | some (.reading _ _ .first) | some (.reading _ _ .second) | some (.reading _ _ (.polling _))
    | some (.heard ..) | some (.waiting ..) | some (.polling ..) | some (.locking ..) | some (.filled ..)
    | some (.loading ..) | some (.storing ..) | some (.sharing ..) | some (.releasing ..) =>
      isTrue (by rw [CacheLoads.Served, h]; trivial)
  | .fail _ => isFalse id
  | .tick _ | .start .. | .resume _ | .acquire _ | .poll _ | .tryLock .. | .readFilled _ | .load _
  | .storeLocal _ | .share .. | .release .. | .commit .. | .deleteLocal _ | .deleteShared .. | .evict _
  | .restart _ | .forget => isTrue trivial

/-! ### Where values come from -/

/-- The call looks into Redis, or waits for the lock there. -/
def CacheLoad.remote : CacheLoad → Bool
  | reading .. | heard .. | polling .. | locking .. | filled .. => true
  | waiting .. | loading .. | storing .. | sharing .. | releasing .. => false

/-- The call is about to end without a value. -/
def CacheLoad.valueless : CacheLoad → Bool
  | heard _ _ .last none | releasing _ _ _ none => true
  | _ => false

variable (S key) in
/-- What holds of a call between its statements, as long as the last look-ups are served. -/
structure CacheLoad.Loaded (loaded : List ℕ) (c : CacheLoad) : Prop where
  held : ∀ value, c.held = some value → value ∈ loaded
  remote : c.remote = true → usesRedisCache S key = true
  valued : c.valueless = false

/-- A call that holds no value. -/
theorem CacheLoad.Loaded.of_none {loaded : List ℕ} {c : CacheLoad} (hheld : c.held = none)
    (hremote : c.remote = true → usesRedisCache S key = true) (hvalued : c.valueless = false) :
    c.Loaded S key loaded :=
  ⟨fun _ h ↦ (by cases hheld.symm.trans h), hremote, hvalued⟩

variable (S key) in
/-- What the tiers have, and what the calls hold, was returned by a loader. -/
structure CacheLoads.Loaded (loaded : List ℕ) (u : CacheLoads) : Prop where
  locals : ∀ p expiresAt value, (key, (some value, expiresAt)) ∈ (u.locals p).entries → value ∈ loaded
  shared : ∀ e, u.redis key = some e → e.value ∈ loaded
  loads : ∀ i c, u.loads i = some c → c.Loaded S key loaded

variable (S key) in
/-- What a statement of a call leads to: the call goes on, or ends with a value of a loader. -/
structure CacheLoads.Delivers (loaded : List ℕ) (t : CacheLoads) (answers : List CacheAnswer) (i : ℕ) :
    Prop where
  sound : t.Loaded S key loaded
  ends : t.loads i = none → ∃ since, ∃ value ∈ loaded, t.answers = answers ++ [⟨since, value⟩]

namespace CacheLoads.Loaded

variable {u : CacheLoads} {loaded : List ℕ} {i p since value : ℕ}

theorem loads_update {loads : ℕ → Option CacheLoad}
    (h : ∀ i c, loads i = some c → c.Loaded S key loaded) {next : Option CacheLoad}
    (hnext : ∀ c, next = some c → c.Loaded S key loaded) (j : ℕ) (c : CacheLoad)
    (hc : Function.update loads i next j = some c) : c.Loaded S key loaded := by
  rcases update_cases (f := loads) (i := i) (x := next) rfl j with ⟨-, heq⟩ | ⟨-, heq⟩
  · exact hnext c (heq ▸ hc)
  · exact h j c (heq ▸ hc)

theorem move (h : u.Loaded S key loaded) {c : CacheLoad} (hc : c.Loaded S key loaded) :
    (u.move i c).Delivers S key loaded u.answers i where
  sound := { h with loads := loads_update h.loads fun _ hd ↦ Option.some.inj hd ▸ hc }
  ends hnone := nomatch (Function.update_self ..).symm.trans hnone

theorem answer (h : u.Loaded S key loaded) (hvalue : value ∈ loaded) :
    (u.answer i since value).Delivers S key loaded u.answers i where
  sound := { h with loads := loads_update h.loads fun _ hd ↦ nomatch hd }
  ends _ := ⟨since, value, hvalue, rfl⟩

/-- The locks do not matter. -/
theorem flights (h : u.Loaded S key loaded) (flights : ℕ → Option ℕ) :
    ({ u with flights := flights } : CacheLoads).Loaded S key loaded :=
  { h with }

theorem locks (h : u.Loaded S key loaded) (locks : ExpiringStore String ℕ) :
    ({ u with locks := locks } : CacheLoads).Loaded S key loaded :=
  { h with }

/-- A process may have other entries, if they come from a loader. -/
theorem locals_update (h : u.Loaded S key loaded) {L : LocalTTLCache ℕ}
    (hL : ∀ expiresAt value, (key, (some value, expiresAt)) ∈ L.entries → value ∈ loaded) :
    ({ u with locals := Function.update u.locals p L } : CacheLoads).Loaded S key loaded :=
  { h with
    locals := fun q expiresAt value he ↦ by
      rcases update_cases (f := u.locals) (i := p) (x := L) rfl q with ⟨rfl, heq⟩ | ⟨-, heq⟩
      · exact hL expiresAt value (heq ▸ he)
      · exact h.locals q expiresAt value (heq ▸ he) }

theorem store (h : u.Loaded S key loaded) (hvalue : value ∈ loaded) (seconds : ℤ) :
    ({ u with
      locals := Function.update u.locals p
        (writeLocal (u.locals p) key (some value) seconds u.clock) } : CacheLoads).Loaded S key loaded := by
  refine h.locals_update fun expiresAt v he ↦ ?_
  rw [writeLocal] at he
  split at he
  · rcases LocalTTLCache.mem_set he with heq | hold
    · cases heq
      exact hvalue
    · exact h.locals p expiresAt v hold
  · exact h.locals p expiresAt v he

theorem hit (h : u.Loaded S key loaded) (hvalue : value ∈ loaded) (lookUp : LookUp)
    (hremote : ∀ deadline, lookUp = .polling deadline → usesRedisCache S key = true) :
    (u.hit i p since value lookUp).Delivers S key loaded u.answers i := by
  cases lookUp with
  | first => exact h.answer hvalue
  | second => exact (h.flights _).answer hvalue
  | polling deadline => exact h.move ⟨nofun, fun _ ↦ hremote deadline rfl, rfl⟩
  | last => exact (h.flights _).answer hvalue

/-- A look-up that finds nothing is followed by another statement, unless it is the last. -/
theorem miss (h : u.Loaded S key loaded) (lookUp : LookUp) (hlast : lookUp ≠ .last)
    (hremote : ∀ deadline, lookUp = .polling deadline → usesRedisCache S key = true) :
    (u.miss S key i p since lookUp).Delivers S key loaded u.answers i := by
  cases lookUp with
  | first => exact h.move (.of_none rfl Bool.noConfusion rfl)
  | second =>
    rw [CacheLoads.miss]
    split
    · next hredis => exact h.move (.of_none rfl (fun _ ↦ hredis) rfl)
    · exact h.move (.of_none rfl Bool.noConfusion rfl)
  | polling deadline => exact h.move (.of_none rfl (fun _ ↦ hremote deadline rfl) rfl)
  | last => exact absurd rfl hlast

/-- A look-up finds what a loader has returned, or asks Redis where there is one. -/
theorem getCached (h : u.Loaded S key loaded) (lookUp : LookUp)
    (hremote : lookUp ≠ .first → lookUp ≠ .second → usesRedisCache S key = true) :
    (u.getCached S key i p since lookUp).Delivers S key loaded u.answers i := by
  have hlocals : ({ u with locals := Function.update u.locals p (readLocal (u.locals p) key u.clock).2 } :
      CacheLoads).Loaded S key loaded := by
    refine h.locals_update fun expiresAt value he ↦ ?_
    rw [readLocal] at he
    split at he
    · exact h.locals p expiresAt value (LocalTTLCache.mem_get he)
    · exact h.locals p expiresAt value he
  have hpolling : ∀ deadline, lookUp = .polling deadline → usesRedisCache S key = true := by
    rintro deadline rfl
    exact hremote (by rintro ⟨⟩) (by rintro ⟨⟩)
  rw [CacheLoads.getCached]
  split
  · next value hread =>
    rw [readLocal] at hread
    split at hread
    · obtain ⟨expiresAt, hmem, -⟩ := LocalTTLCache.mem_of_get hread
      exact hlocals.hit (h.locals p expiresAt value hmem) lookUp hpolling
    · cases hread
  · split
    · next hredis => exact hlocals.move (.of_none rfl (fun _ ↦ hredis) rfl)
    · next hredis =>
      refine hlocals.miss lookUp (fun hlast ↦ ?_) hpolling
      subst hlast
      exact hredis (hremote (by rintro ⟨⟩) (by rintro ⟨⟩))

end CacheLoads.Loaded

/-! ### Each statement delivers -/

namespace CacheLoads

variable {u t : CacheLoads} {loaded : List ℕ} {a : CacheLoadAction} {i : ℕ}

/-- The answer to a `GET` comes from a loader, and there is one where it is the last look-up. -/
theorem delivers_answerGet {reply : RedisReply} (h : u.Loaded S key loaded)
    (hC : u.Served key (.answerGet i reply))
    (hstep : u.step S key ttlSeconds (.answerGet i reply) = some t) :
    t.Delivers S key loaded u.answers i := by
  rw [step] at hstep
  split at hstep
  · next p since lookUp hcall =>
    obtain rfl := Option.some.inj hstep
    rw [Served, hcall] at hC
    refine h.move ⟨fun value hvalue ↦ ?_, fun _ ↦ (h.loads i _ hcall).remote rfl, ?_⟩
    · have hget : (if reply = .answered then u.redis.get key u.clock else none) = some value := hvalue
      split at hget
      · obtain ⟨e, he, -, rfl⟩ := ExpiringStore.live_of_get hget
        exact h.shared e he
      · cases hget
    · cases lookUp with
      | first | second | polling => rfl
      | last =>
        obtain ⟨rfl, hsome⟩ := hC
        obtain ⟨value, hvalue⟩ := Option.isSome_iff_exists.1 hsome
        rw [if_pos rfl, hvalue]
        rfl
  · cases hstep

theorem delivers_resume (h : u.Loaded S key loaded) (hstep : u.step S key ttlSeconds (.resume i) = some t) :
    t.Delivers S key loaded u.answers i := by
  rw [step] at hstep
  split at hstep
  · next p since lookUp value hcall =>
    obtain rfl := Option.some.inj hstep
    have hsound := h.loads i _ hcall
    have hvalue : value ∈ loaded := hsound.held value rfl
    exact (h.store hvalue _).hit hvalue lookUp fun _ _ ↦ hsound.remote rfl
  · next p since lookUp hcall =>
    obtain rfl := Option.some.inj hstep
    have hsound := h.loads i _ hcall
    refine h.miss lookUp (fun hlast ↦ ?_) fun _ _ ↦ hsound.remote rfl
    subst hlast
    cases hsound.valued
  · cases hstep

theorem delivers_tryLock {token : ℕ} {reply : RedisReply} (h : u.Loaded S key loaded)
    (hstep : u.step S key ttlSeconds (.tryLock i token reply) = some t) :
    t.Delivers S key loaded u.answers i := by
  rw [step] at hstep
  split at hstep
  · next p since deadline hcall =>
    cases reply with
    | answered =>
      dsimp only at hstep
      split at hstep
      · obtain rfl := Option.some.inj hstep
        exact h.move (.of_none rfl (fun _ ↦ (h.loads i _ hcall).remote rfl) rfl)
      · obtain rfl := Option.some.inj hstep
        exact (h.locks _).move (.of_none rfl Bool.noConfusion rfl)
    | lost =>
      obtain rfl := Option.some.inj hstep
      exact (h.locks _).move (.of_none rfl Bool.noConfusion rfl)
    | refused =>
      obtain rfl := Option.some.inj hstep
      exact h.move (.of_none rfl Bool.noConfusion rfl)
  · cases hstep

/-- A call that holds a value of a loader. -/
theorem loaded_holding {c : CacheLoad} {value : ℕ} (hvalue : value ∈ loaded) (hheld : c.held = some value)
    (hremote : c.remote = false) (hvalued : c.valueless = false) : c.Loaded S key loaded where
  held _ hv := Option.some.inj (hheld.symm.trans hv) ▸ hvalue
  remote h := nomatch hremote.symm.trans h
  valued := hvalued

theorem delivers_share {reply : RedisReply} (h : u.Loaded S key loaded)
    (hstep : u.step S key ttlSeconds (.share i reply) = some t) : t.Delivers S key loaded u.answers i := by
  rw [step] at hstep
  split at hstep
  · next p since token value hcall =>
    obtain rfl := Option.some.inj hstep
    have hvalue : value ∈ loaded := (h.loads i _ hcall).held value rfl
    have hredis : ({ u with
        redis := if reply ≠ .refused ∧ 0 < ttlSeconds then
            u.redis.put key value (some (u.clock + timedelta ttlSeconds))
          else u.redis } : CacheLoads).Loaded S key loaded := by
      refine { h with shared := fun e he ↦ ?_ }
      dsimp only at he
      split at he
      · rw [ExpiringStore.put_self] at he
        obtain rfl := Option.some.inj he
        exact hvalue
      · exact h.shared e he
    exact hredis.move (loaded_holding hvalue rfl rfl rfl)
  · cases hstep

/-- **A statement of a call goes on, or ends with a value that a loader has returned.** -/
theorem delivers_step (h : u.Loaded S key loaded) (hload : ∀ value ∈ u.loaderReturns a, value ∈ loaded)
    (hC : u.Served key a) (ha : a.caller = some i) (hstep : u.step S key ttlSeconds a = some t) :
    t.Delivers S key loaded u.answers i := by
  cases a with
  | tick | commit | deleteLocal | deleteShared | evict | restart | forget => cases ha
  | fail => exact hC.elim
  | start j p =>
    obtain rfl : j = i := Option.some.inj ha
    rw [step] at hstep
    split at hstep
    · cases hstep
    · obtain rfl := Option.some.inj hstep
      exact h.getCached .first fun hne ↦ absurd rfl hne
  | answerGet j reply =>
    obtain rfl : j = i := Option.some.inj ha
    exact delivers_answerGet h hC hstep
  | resume j =>
    obtain rfl : j = i := Option.some.inj ha
    exact delivers_resume h hstep
  | acquire j =>
    obtain rfl : j = i := Option.some.inj ha
    rw [step] at hstep
    split at hstep
    · split at hstep
      · cases hstep
      · obtain rfl := Option.some.inj hstep
        exact (h.flights _).getCached .second fun _ hne ↦ absurd rfl hne
    · cases hstep
  | poll j =>
    obtain rfl : j = i := Option.some.inj ha
    rw [step] at hstep
    split at hstep
    · next p since deadline hcall =>
      split at hstep
      · obtain rfl := Option.some.inj hstep
        exact h.getCached _ fun _ _ ↦ (h.loads j _ hcall).remote rfl
      · obtain rfl := Option.some.inj hstep
        exact h.move (.of_none rfl Bool.noConfusion rfl)
    · cases hstep
  | tryLock j token reply =>
    obtain rfl : j = i := Option.some.inj ha
    exact delivers_tryLock h hstep
  | readFilled j =>
    obtain rfl : j = i := Option.some.inj ha
    rw [step] at hstep
    split at hstep
    · next p since hcall =>
      obtain rfl := Option.some.inj hstep
      exact h.getCached .last fun _ _ ↦ (h.loads j _ hcall).remote rfl
    · cases hstep
  | load j =>
    obtain rfl : j = i := Option.some.inj ha
    rw [step] at hstep
    split at hstep
    · obtain rfl := Option.some.inj hstep
      exact h.move (loaded_holding (hload u.version List.mem_cons_self) rfl rfl rfl)
    · cases hstep
  | storeLocal j =>
    obtain rfl : j = i := Option.some.inj ha
    rw [step] at hstep
    split at hstep
    · next p since token value hcall =>
      obtain rfl := Option.some.inj hstep
      have hvalue : value ∈ loaded := (h.loads j _ hcall).held value rfl
      refine (h.store hvalue ttlSeconds).move ?_
      split
      · exact loaded_holding hvalue rfl rfl rfl
      · exact loaded_holding hvalue rfl rfl rfl
    · cases hstep
  | share j reply =>
    obtain rfl : j = i := Option.some.inj ha
    exact delivers_share h hstep
  | release j reply =>
    obtain rfl : j = i := Option.some.inj ha
    rw [step] at hstep
    split at hstep
    · next p since token value hcall =>
      have hsound := h.loads j _ hcall
      split at hstep
      · next value =>
        obtain rfl := Option.some.inj hstep
        exact ((h.locks _).flights _).answer (hsound.held value rfl)
      · cases hsound.valued
    · cases hstep

/-- What is not a statement of a call stores nothing. -/
theorem loaded_step (h : u.Loaded S key loaded) (ha : a.caller = none)
    (hstep : u.step S key ttlSeconds a = some t) : t.Loaded S key loaded := by
  have hdeleted (p : ℕ) : ({ u with locals := Function.update u.locals p ((u.locals p).delete [key]) } :
      CacheLoads).Loaded S key loaded :=
    h.locals_update fun _ _ he ↦ absurd rfl ((RecencyDict.mem_erase _).1 he).2
  cases a with
  | start | answerGet | resume | acquire | poll | tryLock | readFilled | load | fail | storeLocal | share
  | release => cases ha
  | tick now =>
    rw [step] at hstep
    split at hstep
    · obtain rfl := Option.some.inj hstep
      exact { h with }
    · cases hstep
  | commit w p =>
    rw [step] at hstep
    split at hstep
    · cases hstep
    · obtain rfl := Option.some.inj hstep
      exact { h with }
  | deleteLocal w =>
    rw [step] at hstep
    split at hstep
    · next p commit hcall =>
      dsimp only at hstep
      split at hstep
      · obtain rfl := Option.some.inj hstep
        exact { hdeleted p with }
      · obtain rfl := Option.some.inj hstep
        exact { hdeleted p with }
    · cases hstep
  | deleteShared w reply =>
    rw [step] at hstep
    split at hstep
    · dsimp only at hstep
      split at hstep
      · obtain rfl := Option.some.inj hstep
        exact { h with }
      · obtain rfl := Option.some.inj hstep
        refine { h with shared := fun e he ↦ ?_ }
        have hnone : u.redis.delete key key = none := Function.update_self ..
        cases hnone.symm.trans he
    · cases hstep
  | evict p =>
    obtain rfl := Option.some.inj hstep
    exact hdeleted p
  | restart p =>
    obtain rfl := Option.some.inj hstep
    have hlocals : ({ u with locals := Function.update u.locals p RecencyDict.empty } : CacheLoads).Loaded S key
        loaded :=
      h.locals_update fun _ _ he ↦ absurd he List.not_mem_nil
    exact { hlocals with loads := fun j c hc ↦ h.loads j c (Option.filter_eq_some_iff.1 hc).1 }
  | forget =>
    obtain rfl := Option.some.inj hstep
    exact { h with shared := fun _ he ↦ by cases he }

theorem Loaded.mono (h : u.Loaded S key loaded) (more : List ℕ) : u.Loaded S key (loaded ++ more) where
  locals p expiresAt value he := List.mem_append_left _ (h.locals p expiresAt value he)
  shared e he := List.mem_append_left _ (h.shared e he)
  loads i c hc :=
    have hcall := h.loads i c hc
    { hcall with held := fun value hvalue ↦ List.mem_append_left _ (hcall.held value hvalue) }

/-- A step that ends a call returns what it answers with. -/
theorem mem_returns {r : Option ℕ}
    (hdelivers : ∀ i, a.caller = some i → t.Delivers S key loaded u.answers i)
    (h : r ∈ u.returns a t) : ∃ value ∈ loaded, r = some value := by
  rw [returns] at h
  rcases ha : a.caller with - | i
  · rw [ha] at h
    exact absurd h List.not_mem_nil
  · simp only [ha] at h
    split at h
    · exact absurd h List.not_mem_nil
    · next hends =>
      rw [Bool.or_eq_true, not_or, Bool.not_eq_true, Option.isSome_eq_false_iff,
        Option.isNone_iff_eq_none] at hends
      obtain ⟨since, value, hvalue, hanswers⟩ := (hdelivers i ha).ends hends.1
      rw [hanswers, List.drop_left, List.mem_singleton] at h
      exact ⟨value, hvalue, h⟩

end CacheLoads

/-! ### Runs -/

/-- What holds between any two statements, as long as the last look-ups are served. -/
structure LoadOutcomes.Sound (S : CacheSettings) (key : String) (o : LoadOutcomes) : Prop where
  loads : o.loads.Loaded S key o.loaded
  returned : ∀ r ∈ o.returned, ∃ value ∈ o.loaded, r = some value

theorem outcomes_init {o : LoadOutcomes} (h : (loadOutcomeMachine S key ttlSeconds).init o) : o.Sound S key := by
  obtain ⟨⟨-, hredis, -, hlocals, -, hloads, -⟩, -, hreturned⟩ := h
  refine ⟨⟨fun p _ _ he ↦ ?_, fun e he ↦ ?_, fun i c hc ↦ ?_⟩, fun r hr ↦ ?_⟩
  · exact absurd (hlocals p ▸ he) List.not_mem_nil
  · exact nomatch (congrFun hredis key).symm.trans he
  · exact nomatch (hloads i).symm.trans hc
  · exact absurd (hreturned ▸ hr) List.not_mem_nil

theorem outcomes_step {o o' : LoadOutcomes} {a : CacheLoadAction} (h : o.Sound S key)
    (hC : o.loads.Served key a)
    (hstep : (loadOutcomeMachine S key ttlSeconds).step o a = some o') : o'.Sound S key := by
  obtain ⟨t, ht, rfl⟩ := Option.map_eq_some_iff.1 hstep
  have hloads := h.loads.mono (o.loads.loaderReturns a)
  have hdelivers (i : ℕ) (ha : a.caller = some i) :
      t.Delivers S key (o.loaded ++ o.loads.loaderReturns a) o.loads.answers i :=
    CacheLoads.delivers_step hloads (fun _ ↦ List.mem_append_right _) hC ha ht
  refine ⟨?_, fun r hr ↦ ?_⟩
  · rcases ha : a.caller with - | i
    · exact CacheLoads.loaded_step hloads ha ht
    · exact (hdelivers i ha).sound
  · rcases List.mem_append.1 hr with hold | hnew
    · obtain ⟨value, hvalue, rfl⟩ := h.returned r hold
      exact ⟨value, List.mem_append_left _ hvalue, rfl⟩
    · exact CacheLoads.mem_returns hdelivers hnew

variable (S key ttlSeconds) in
/-- **As long as the last look-ups find the entry, every call returns a value that a loader has returned**,
and at most one loader runs in a process. -/
theorem loads_return_values {o : LoadOutcomes}
    (h : (loadOutcomeMachine S key ttlSeconds).Reachable (fun o ↦ o.loads.Served key) o) : o.Delivered := by
  have hsound : o.Sound S key :=
    h.invariant (fun _ ho ↦ outcomes_init ho) fun _ _ _ ho hC hstep ↦ outcomes_step ho hC hstep
  exact ⟨hsound.returned, fun i j p since since' token token' hi hj ↦
    one_loader S key ttlSeconds (reachable_loads h) hi hj⟩

/-- **A last look-up that is not served returns `None`**, whatever the caches have by then. -/
theorem none_of_unserved {u t : CacheLoads} {i : ℕ} {reply : RedisReply}
    (h : ¬u.Served key (.answerGet i reply))
    (hstep : u.step S key ttlSeconds (.answerGet i reply) = some t) :
    ∃ t', t.step S key ttlSeconds (.resume i) = some t' ∧ t.returns (.resume i) t' = [none] := by
  rw [CacheLoads.Served] at h
  split at h
  · next p since hcall =>
    rw [CacheLoads.step, hcall] at hstep
    obtain rfl := Option.some.inj hstep
    have hvalue : (if reply = .answered then u.redis.get key u.clock else none) = none := by
      split
      · next hreply =>
        rw [not_and, Bool.not_eq_true, Option.isSome_eq_false_iff, Option.isNone_iff_eq_none] at h
        exact h hreply
      · rfl
    rw [hvalue]
    have hheard : (u.move i (.heard p since .last none)).loads i = some (.heard p since .last none) :=
      Function.update_self ..
    refine ⟨_, by rw [CacheLoads.step, hheard], ?_⟩
    rw [CacheLoads.returns]
    simp only [CacheLoadAction.caller, hheard]
    have hgone : ((u.move i (.heard p since .last none)).miss S key i p since .last).loads i = none :=
      Function.update_self ..
    have hanswers : ((u.move i (.heard p since .last none)).miss S key i p since .last).answers =
      u.answers := rfl
    rw [hgone, hanswers]
    show [(u.answers.drop u.answers.length).head?.map CacheAnswer.value] = [none]
    rw [List.drop_length]
    rfl
  · exact absurd trivial h

/-! ### An entry that is gone -/

/-- A key that only Redis keeps, the one under which a prompt that has been resolved is cached. -/
def resolutionKey : String := cacheKey ["ai", "prompt-resolution", "7", "answer"]

/-- Nothing is cached, nothing in flight, and nothing has been returned. -/
def LoadOutcomes.empty : LoadOutcomes := ⟨CacheLoads.empty, [], []⟩

theorem emptyOutcomes_init : (loadOutcomeMachine S key ttlSeconds).init LoadOutcomes.empty :=
  ⟨empty_init, rfl, rfl⟩

/-- A call of another process finds nothing, and waits for the lock in Redis. -/
def missAndWait : List CacheLoadAction :=
  [.start 1 2, .answerGet 1 .answered, .resume 1, .acquire 1, .answerGet 1 .answered, .resume 1]

/-- The loader returns, and what it has returned is stored. -/
def fillAndRelease : List CacheLoadAction := [.load 0, .storeLocal 0, .share 0 .answered, .release 0 .answered]

/-- The one that waits sees the entry. -/
def seeFilled : List CacheLoadAction := [.poll 1, .answerGet 1 .answered, .resume 1]

/-- And looks it up. -/
def readLast : List CacheLoadAction := [.readFilled 1, .answerGet 1 .answered, .resume 1]

/-- `loads_return_values` where the entry stays: both calls return what the one loader has returned. -/
theorem loads_return_values_filled :
    ∃ o, (loadOutcomeMachine CacheSettings.default resolutionKey 300).Reachable
        (fun o ↦ o.loads.Served resolutionKey) o ∧
      o.returned = [some 0, some 0] ∧ o.loaded = [0] ∧ o.Delivered := by
  have hrun := reachable_run emptyOutcomes_init
    (show ((loadOutcomeMachine CacheSettings.default resolutionKey 300).run (fun o ↦ o.loads.Served resolutionKey)
      LoadOutcomes.empty (missAndLock ++ missAndWait ++ fillAndRelease ++ seeFilled ++ readLast)).isSome = true
      by decide +kernel)
  exact ⟨_, hrun, by decide +kernel, by decide +kernel,
    loads_return_values CacheSettings.default resolutionKey 300 hrun⟩

/-- **An invalidation between the last two look-ups**: the call that has waited returns `None`. -/
theorem load_returns_none :
    ¬∀ o, (loadOutcomeMachine CacheSettings.default resolutionKey 300).Reachable LoadersReturn o →
      o.Delivered := by
  intro h
  have hrun := reachable_run emptyOutcomes_init
    (show ((loadOutcomeMachine CacheSettings.default resolutionKey 300).run LoadersReturn LoadOutcomes.empty
      (missAndLock ++ missAndWait ++ fillAndRelease ++ seeFilled ++ commitAndDelete ++ readLast)).isSome = true
      by decide +kernel)
  obtain ⟨value, -, hvalue⟩ := (h _ hrun).returned none (by decide +kernel)
  exact nomatch hvalue

end GenericApp
