import GenericApp.Core.CacheLoader

/-!
# Whether an invalidation is undone

A writer commits and then deletes the entry. What it deletes can come back: a call that has run its loader
before the commit stores the old value afterwards, whichever locks it holds, since the writer takes none; a
call that has read the old value from Redis copies it into its process after the deletion there; and a `DEL`
that fails leaves the entry of Redis where it is, without a word.

The condition names these three and no more. Under it the invariant is that what a tier has is no older than
the last deletion in that tier; a call then finds in either what it may return, and what it loads itself is
newer than any deletion before it.

* `deletions_are_final`: as long as nothing is stored in a tier that is older than the last deletion there,
  and no `DEL` fails, a call returns a value that has seen each commit whose deletion had returned in its
  process before the call began.
* `deletions_are_undone`: a call that loads before the commit and stores after the deletion is enough.
-/

namespace GenericApp

open Machine Py

variable {S : CacheSettings} {key : String} {ttlSeconds : ℤ}

/-! ### The condition -/

/-- What the call is about to store has seen the last commit deleted where it will be stored. -/
def CacheLoads.StoresFresh (u : CacheLoads) : Option CacheLoad → Prop
  | some (.heard p _ _ (some value)) | some (.storing p _ _ value) => u.removed p ≤ value
  | some (.sharing _ _ _ value) => u.removedShared ≤ value
  | _ => True

instance (u : CacheLoads) : (c : Option CacheLoad) → Decidable (u.StoresFresh c)
  | some (.heard p _ _ (some value)) | some (.storing p _ _ value) =>
    inferInstanceAs (Decidable (u.removed p ≤ value))
  | some (.sharing _ _ _ value) => inferInstanceAs (Decidable (u.removedShared ≤ value))
  | none | some (.heard _ _ _ none) | some (.reading ..) | some (.waiting ..) | some (.polling ..)
  | some (.locking ..) | some (.filled ..) | some (.loading ..) | some (.releasing ..) => isTrue trivial

variable (key) in
/-- **Nothing old is stored.** In a process that keeps the key, no value is stored, loaded or copied, that
has not seen the last commit deleted there; none in Redis that has not seen the last one deleted there; and
every `DEL` takes effect. -/
def CacheLoads.DeletionsKept (u : CacheLoads) : CacheLoadAction → Prop
  | .resume i | .storeLocal i => usesLocalCache key = true → u.StoresFresh (u.loads i)
  | .share i reply => reply ≠ .refused → u.StoresFresh (u.loads i)
  | .deleteShared _ reply => reply ≠ .refused
  | _ => True

instance (u : CacheLoads) : (a : CacheLoadAction) → Decidable (u.DeletionsKept key a)
  | .resume i | .storeLocal i =>
    inferInstanceAs (Decidable (usesLocalCache key = true → u.StoresFresh (u.loads i)))
  | .share i reply => inferInstanceAs (Decidable (reply ≠ .refused → u.StoresFresh (u.loads i)))
  | .deleteShared _ reply => inferInstanceAs (Decidable (reply ≠ .refused))
  | .tick _ | .start .. | .answerGet .. | .acquire _ | .poll _ | .tryLock .. | .readFilled _ | .load _
  | .fail _ | .release .. | .commit .. | .deleteLocal _ | .evict _ | .restart _ | .forget =>
    isTrue trivial

/-! ### The invariant -/

/-- The value that a call has in its hands. -/
def CacheLoad.held : CacheLoad → Option ℕ
  | heard _ _ _ reply => reply
  | storing _ _ _ value | sharing _ _ _ value => some value
  | releasing _ _ _ value => value
  | _ => none

variable (S key) in
/-- What holds of a call between its statements. -/
structure CacheLoad.Sound (deleted : ℕ → ℕ) (c : CacheLoad) : Prop where
  since_le : c.since ≤ deleted c.process
  held : ∀ value, c.held = some value → c.since ≤ value
  reading : ∀ p since lookUp, c = reading p since lookUp → usesRedisCache S key = true

/-- What holds of a writer. -/
def Invalidation.Sound (version : ℕ) (removed : ℕ → ℕ) : Invalidation → Prop
  | committed _ commit => commit ≤ version
  | deleting p commit => commit ≤ removed p

variable (S key) in
/-- What holds between any two statements. -/
structure CacheLoads.Coherent (u : CacheLoads) : Prop where
  /-- An entry of a process has seen the last commit deleted there. -/
  locals : ∀ p expiresAt value, (key, (some value, expiresAt)) ∈ (u.locals p).entries → u.removed p ≤ value
  /-- So has the entry of Redis. -/
  shared : ∀ e, u.redis key = some e → u.removedShared ≤ e.value
  deleted_local : ∀ p, u.deleted p ≤ u.removed p
  deleted_shared : usesRedisCache S key = true → ∀ p, u.deleted p ≤ u.removedShared
  removed_le : ∀ p, u.removed p ≤ u.version
  loads : ∀ i c, u.loads i = some c → c.Sound S key u.deleted
  invalidations : ∀ w v, u.invalidations w = some v → v.Sound u.version u.removed
  answers : ∀ a ∈ u.answers, a.since ≤ a.value

namespace CacheLoads.Coherent

variable {u : CacheLoads} {i p since : ℕ}

/-- Where one call has moved, each is sound. -/
theorem loads_update {loads : ℕ → Option CacheLoad} {deleted : ℕ → ℕ}
    (h : ∀ i c, loads i = some c → c.Sound S key deleted) {next : Option CacheLoad}
    (hnext : ∀ c, next = some c → c.Sound S key deleted) (j : ℕ) (c : CacheLoad)
    (hc : Function.update loads i next j = some c) : c.Sound S key deleted := by
  rcases update_cases (f := loads) (i := i) (x := next) rfl j with ⟨-, heq⟩ | ⟨-, heq⟩
  · exact hnext c (heq ▸ hc)
  · exact h j c (heq ▸ hc)

theorem move (h : u.Coherent S key) {c : CacheLoad} (hc : c.Sound S key u.deleted) :
    (u.move i c).Coherent S key :=
  { h with loads := loads_update h.loads fun _ hd ↦ Option.some.inj hd ▸ hc }

theorem gone (h : u.Coherent S key) : (u.gone i).Coherent S key :=
  { h with loads := loads_update h.loads fun _ hd ↦ nomatch hd }

theorem answer (h : u.Coherent S key) {value : ℕ} (hle : since ≤ value) :
    (u.answer i since value).Coherent S key :=
  { h.gone (i := i) with
    answers := fun a ha ↦ by
      rcases List.mem_append.1 ha with ha | ha
      · exact h.answers a ha
      · obtain rfl := List.mem_singleton.1 ha
        exact hle }

/-- The locks do not matter. -/
theorem flights (h : u.Coherent S key) (flights : ℕ → Option ℕ) :
    ({ u with flights := flights } : CacheLoads).Coherent S key :=
  { h with }

theorem locks (h : u.Coherent S key) (locks : ExpiringStore String ℕ) :
    ({ u with locks := locks } : CacheLoads).Coherent S key :=
  { h with }

/-- A process may have other entries, if they have seen the last commit deleted there. -/
theorem locals_update (h : u.Coherent S key) {L : LocalTTLCache ℕ}
    (hL : ∀ expiresAt value, (key, (some value, expiresAt)) ∈ L.entries → u.removed p ≤ value) :
    ({ u with locals := Function.update u.locals p L } : CacheLoads).Coherent S key :=
  { h with
    locals := fun q expiresAt value he ↦ by
      rcases update_cases (f := u.locals) (i := p) (x := L) rfl q with ⟨rfl, heq⟩ | ⟨-, heq⟩
      · exact hL expiresAt value (heq ▸ he)
      · exact h.locals q expiresAt value (heq ▸ he) }

/-- A value that has seen the last commit deleted in the process may be stored there. -/
theorem store (h : u.Coherent S key) {value : ℕ} (seconds : ℤ)
    (hvalue : usesLocalCache key = true → u.removed p ≤ value) :
    ({ u with
      locals := Function.update u.locals p
        (writeLocal (u.locals p) key (some value) seconds u.clock) } : CacheLoads).Coherent S key := by
  refine h.locals_update fun expiresAt v he ↦ ?_
  rw [writeLocal] at he
  split at he
  · next hlocal =>
    rcases LocalTTLCache.mem_set he with heq | hold
    · cases heq
      exact hvalue hlocal
    · exact h.locals p expiresAt v hold
  · exact h.locals p expiresAt v he

/-! ### The parts of a call -/

/-- A call that holds no value and does not wait for Redis. -/
theorem sound_plain {deleted : ℕ → ℕ} {c : CacheLoad} (hsince : c.since ≤ deleted c.process)
    (hheld : c.held = none) (hreading : ∀ p since lookUp, c ≠ .reading p since lookUp) :
    c.Sound S key deleted :=
  ⟨hsince, fun _ hv ↦ (nomatch hheld.symm.trans hv), fun p since lookUp hc ↦
    absurd hc (hreading p since lookUp)⟩

/-- A call that holds a value it may return. -/
theorem sound_holding {deleted : ℕ → ℕ} {c : CacheLoad} {value : ℕ} (hsince : c.since ≤ deleted c.process)
    (hheld : c.held = some value) (hle : c.since ≤ value) : c.Sound S key deleted := by
  refine ⟨hsince, fun v hv ↦ ?_, fun p since lookUp hc ↦ ?_⟩
  · obtain rfl : value = v := Option.some.inj (hheld.symm.trans hv)
    exact hle
  · rw [hc] at hheld
    exact nomatch hheld

theorem hit (h : u.Coherent S key) (hsince : since ≤ u.deleted p) {value : ℕ} (hle : since ≤ value)
    (lookUp : LookUp) : (u.hit i p since value lookUp).Coherent S key := by
  cases lookUp with
  | first => exact h.answer hle
  | second => exact (h.flights _).answer hle
  | polling deadline => exact h.move (sound_plain hsince rfl nofun)
  | last => exact (h.flights _).answer hle

theorem miss (h : u.Coherent S key) (hsince : since ≤ u.deleted p) (lookUp : LookUp) :
    (u.miss S key i p since lookUp).Coherent S key := by
  cases lookUp with
  | first => exact h.move (sound_plain hsince rfl nofun)
  | second =>
    rw [CacheLoads.miss]
    split
    · exact h.move (sound_plain hsince rfl nofun)
    · exact h.move (sound_plain hsince rfl nofun)
  | polling deadline => exact h.move (sound_plain hsince rfl nofun)
  | last => exact (h.flights _).gone

/-- **A look-up returns what it may return.** The entry of the process has seen the last commit deleted
there, hence each whose deletion had returned. -/
theorem getCached (h : u.Coherent S key) (hsince : since ≤ u.deleted p) (lookUp : LookUp) :
    (u.getCached S key i p since lookUp).Coherent S key := by
  have hlocals : ({ u with locals := Function.update u.locals p (readLocal (u.locals p) key u.clock).2 } :
      CacheLoads).Coherent S key := by
    refine h.locals_update fun expiresAt value he ↦ ?_
    rw [readLocal] at he
    split at he
    · exact h.locals p expiresAt value (LocalTTLCache.mem_get he)
    · exact h.locals p expiresAt value he
  rw [CacheLoads.getCached]
  split
  · next value hread =>
    rw [readLocal] at hread
    split at hread
    · obtain ⟨expiresAt, hmem, -⟩ := LocalTTLCache.mem_of_get hread
      have hle : since ≤ value :=
        calc since ≤ u.deleted p := hsince
          _ ≤ u.removed p := h.deleted_local p
          _ ≤ value := h.locals p expiresAt value hmem
      exact hlocals.hit hsince hle lookUp
    · exact nomatch hread
  · split
    · next hredis => exact hlocals.move ⟨hsince, nofun, fun _ _ _ _ ↦ hredis⟩
    · exact hlocals.miss hsince lookUp

end CacheLoads.Coherent

/-! ### Each statement keeps it -/

namespace CacheLoads

variable {u t : CacheLoads} {i p w : ℕ}

theorem coherent_start (h : u.Coherent S key) (hstep : u.step S key ttlSeconds (.start i p) = some t) :
    t.Coherent S key := by
  rw [step] at hstep
  split at hstep
  · exact nomatch hstep
  · obtain rfl := Option.some.inj hstep
    exact h.getCached (Nat.le_refl _) .first

/-- What Redis answers has seen the last commit deleted there. -/
theorem coherent_answerGet {reply : RedisReply} (h : u.Coherent S key)
    (hstep : u.step S key ttlSeconds (.answerGet i reply) = some t) : t.Coherent S key := by
  rw [step] at hstep
  split at hstep
  · next p since lookUp hcall =>
    obtain rfl := Option.some.inj hstep
    have hsound := h.loads i _ hcall
    refine h.move ⟨hsound.since_le, fun value hvalue ↦ ?_, nofun⟩
    have hget : (if reply = .answered then u.redis.get key u.clock else none) = some value := hvalue
    split at hget
    · obtain ⟨e, he, -, rfl⟩ := ExpiringStore.live_of_get hget
      have hredis := hsound.reading p since lookUp rfl
      calc since ≤ u.deleted p := hsound.since_le
        _ ≤ u.removedShared := h.deleted_shared hredis p
        _ ≤ e.value := h.shared e he
    · exact nomatch hget
  · exact nomatch hstep

theorem coherent_resume (h : u.Coherent S key) (hC : u.DeletionsKept key (.resume i))
    (hstep : u.step S key ttlSeconds (.resume i) = some t) : t.Coherent S key := by
  rw [step] at hstep
  split at hstep
  · next p since lookUp value hcall =>
    obtain rfl := Option.some.inj hstep
    have hsound := h.loads i _ hcall
    have hfresh : usesLocalCache key = true → u.removed p ≤ value := fun hlocal ↦ by
      have := hC hlocal
      rwa [hcall] at this
    exact (h.store _ hfresh).hit hsound.since_le (hsound.held value rfl) lookUp
  · next p since lookUp hcall =>
    obtain rfl := Option.some.inj hstep
    exact h.miss (h.loads i _ hcall).since_le lookUp
  · exact nomatch hstep

theorem coherent_acquire (h : u.Coherent S key)
    (hstep : u.step S key ttlSeconds (.acquire i) = some t) : t.Coherent S key := by
  rw [step] at hstep
  split at hstep
  · next p since hcall =>
    split at hstep
    · exact nomatch hstep
    · obtain rfl := Option.some.inj hstep
      exact (h.flights (Function.update u.flights p (some i))).getCached (h.loads i _ hcall).since_le .second
  · exact nomatch hstep

theorem coherent_poll (h : u.Coherent S key) (hstep : u.step S key ttlSeconds (.poll i) = some t) :
    t.Coherent S key := by
  rw [step] at hstep
  split at hstep
  · next p since deadline hcall =>
    have hsince := (h.loads i _ hcall).since_le
    split at hstep
    · obtain rfl := Option.some.inj hstep
      exact h.getCached hsince (.polling deadline)
    · obtain rfl := Option.some.inj hstep
      exact h.move (Coherent.sound_plain hsince rfl nofun)
  · exact nomatch hstep

theorem coherent_tryLock {token : ℕ} {reply : RedisReply} (h : u.Coherent S key)
    (hstep : u.step S key ttlSeconds (.tryLock i token reply) = some t) : t.Coherent S key := by
  rw [step] at hstep
  split at hstep
  · next p since deadline hcall =>
    have hsince := (h.loads i _ hcall).since_le
    rcases reply with - | - | -
    · dsimp only at hstep
      split at hstep
      · obtain rfl := Option.some.inj hstep
        exact h.move (Coherent.sound_plain hsince rfl fun _ _ _ h ↦ by cases h)
      · obtain rfl := Option.some.inj hstep
        exact (h.locks _).move (Coherent.sound_plain hsince rfl fun _ _ _ h ↦ by cases h)
    · obtain rfl := Option.some.inj hstep
      exact (h.locks _).move (Coherent.sound_plain hsince rfl fun _ _ _ h ↦ by cases h)
    · obtain rfl := Option.some.inj hstep
      exact h.move (Coherent.sound_plain hsince rfl fun _ _ _ h ↦ by cases h)
  · cases hstep

theorem coherent_readFilled (h : u.Coherent S key)
    (hstep : u.step S key ttlSeconds (.readFilled i) = some t) : t.Coherent S key := by
  rw [step] at hstep
  split at hstep
  · next p since hcall =>
    obtain rfl := Option.some.inj hstep
    exact h.getCached (h.loads i _ hcall).since_le .last
  · exact nomatch hstep

/-- What is loaded has seen every commit, hence each that has been deleted. -/
theorem coherent_load (h : u.Coherent S key) (hstep : u.step S key ttlSeconds (.load i) = some t) :
    t.Coherent S key := by
  rw [step] at hstep
  split at hstep
  · next p since token hcall =>
    obtain rfl := Option.some.inj hstep
    have hsince : since ≤ u.deleted p := (h.loads i _ hcall).since_le
    have hle : since ≤ u.version :=
      calc since ≤ u.deleted p := hsince
        _ ≤ u.removed p := h.deleted_local p
        _ ≤ u.version := h.removed_le p
    exact h.move (Coherent.sound_holding hsince rfl hle)
  · exact nomatch hstep

theorem coherent_fail (h : u.Coherent S key) (hstep : u.step S key ttlSeconds (.fail i) = some t) :
    t.Coherent S key := by
  rw [step] at hstep
  split at hstep
  · next p since token hcall =>
    obtain rfl := Option.some.inj hstep
    exact h.move (Coherent.sound_plain (h.loads i _ hcall).since_le rfl nofun)
  · exact nomatch hstep

theorem coherent_storeLocal (h : u.Coherent S key) (hC : u.DeletionsKept key (.storeLocal i))
    (hstep : u.step S key ttlSeconds (.storeLocal i) = some t) : t.Coherent S key := by
  rw [step] at hstep
  split at hstep
  · next p since token value hcall =>
    obtain rfl := Option.some.inj hstep
    have hsound := h.loads i _ hcall
    have hfresh : usesLocalCache key = true → u.removed p ≤ value := fun hlocal ↦ by
      have := hC hlocal
      rwa [hcall] at this
    have hle := hsound.held value rfl
    have hstore := h.store ttlSeconds hfresh
    split
    · exact hstore.move (Coherent.sound_holding hsound.since_le rfl hle)
    · exact hstore.move (Coherent.sound_holding hsound.since_le rfl hle)
  · exact nomatch hstep

theorem coherent_share {reply : RedisReply} (h : u.Coherent S key)
    (hC : u.DeletionsKept key (.share i reply))
    (hstep : u.step S key ttlSeconds (.share i reply) = some t) : t.Coherent S key := by
  rw [step] at hstep
  split at hstep
  · next p since token value hcall =>
    obtain rfl := Option.some.inj hstep
    have hsound := h.loads i _ hcall
    have hredis : ({ u with
        redis := if reply ≠ .refused ∧ 0 < ttlSeconds then
            u.redis.put key value (some (u.clock + timedelta ttlSeconds))
          else u.redis } : CacheLoads).Coherent S key := by
      refine { h with shared := fun e he ↦ ?_ }
      dsimp only at he
      split at he
      · next hstored =>
        have hfresh : u.StoresFresh (u.loads i) := hC hstored.1
        rw [hcall] at hfresh
        rw [ExpiringStore.put_self] at he
        obtain rfl := Option.some.inj he
        exact hfresh
      · exact h.shared e he
    exact hredis.move (Coherent.sound_holding hsound.since_le rfl (hsound.held value rfl))
  · cases hstep

theorem coherent_release {reply : RedisReply} (h : u.Coherent S key)
    (hstep : u.step S key ttlSeconds (.release i reply) = some t) : t.Coherent S key := by
  rw [step] at hstep
  split at hstep
  · next p since token value hcall =>
    have hsound := h.loads i _ hcall
    split at hstep
    · next value =>
      obtain rfl := Option.some.inj hstep
      exact ((h.locks _).flights _).answer (hsound.held value rfl)
    · obtain rfl := Option.some.inj hstep
      exact ((h.locks _).flights _).gone
  · exact nomatch hstep

/-! #### Writers -/

/-- Where one writer has moved, each is sound. -/
theorem invalidations_update {invalidations : ℕ → Option Invalidation} {version : ℕ} {removed : ℕ → ℕ}
    (h : ∀ w v, invalidations w = some v → v.Sound version removed) {next : Option Invalidation}
    (hnext : ∀ v, next = some v → v.Sound version removed) (x : ℕ) (v : Invalidation)
    (hv : Function.update invalidations w next x = some v) : v.Sound version removed := by
  rcases update_cases (f := invalidations) (i := w) (x := next) rfl x with ⟨-, heq⟩ | ⟨-, heq⟩
  · exact hnext v (heq ▸ hv)
  · exact h x v (heq ▸ hv)

/-- A commit that is later is at no process earlier. -/
theorem le_update_max {f : ℕ → ℕ} {commit : ℕ} (q : ℕ) :
    f q ≤ Function.update f p (max (f p) commit) q := by
  rcases update_cases (f := f) (i := p) (x := max (f p) commit) rfl q with ⟨rfl, heq⟩ | ⟨-, heq⟩
  · rw [heq]
    exact Nat.le_max_left _ _
  · exact Nat.le_of_eq heq.symm

/-- And no later than what it is bounded by. -/
theorem update_max_le {f : ℕ → ℕ} {commit : ℕ} (bound : ℕ → ℕ) (hf : ∀ q, f q ≤ bound q)
    (hcommit : commit ≤ bound p) (q : ℕ) : Function.update f p (max (f p) commit) q ≤ bound q := by
  rcases update_cases (f := f) (i := p) (x := max (f p) commit) rfl q with ⟨rfl, heq⟩ | ⟨-, heq⟩
  · rw [heq]
    exact Nat.max_le.2 ⟨hf q, hcommit⟩
  · rw [heq]
    exact hf q

theorem Invalidation.Sound.mono {v : Invalidation} {version version' : ℕ} {removed removed' : ℕ → ℕ}
    (h : v.Sound version removed) (hversion : version ≤ version') (hremoved : ∀ q, removed q ≤ removed' q) :
    v.Sound version' removed' := by
  cases v with
  | committed p commit => exact Nat.le_trans h hversion
  | deleting p commit => exact Nat.le_trans h (hremoved p)

/-- A call that was sound is when more has been deleted since. -/
theorem CacheLoad.Sound.mono {c : CacheLoad} {deleted deleted' : ℕ → ℕ} (h : c.Sound S key deleted)
    (hdeleted : ∀ q, deleted q ≤ deleted' q) : c.Sound S key deleted' :=
  { h with since_le := Nat.le_trans h.since_le (hdeleted _) }

theorem coherent_commit (h : u.Coherent S key) (hstep : u.step S key ttlSeconds (.commit w p) = some t) :
    t.Coherent S key := by
  rw [step] at hstep
  split at hstep
  · exact nomatch hstep
  · obtain rfl := Option.some.inj hstep
    refine { h with removed_le := fun q ↦ ?_, invalidations := invalidations_update (fun x v hv ↦ ?_) ?_ }
    · exact Nat.le_succ_of_le (h.removed_le q)
    · exact Invalidation.Sound.mono (h.invalidations x v hv) (Nat.le_succ _) fun _ ↦ Nat.le_refl _
    · rintro v hv
      obtain rfl := Option.some.inj hv
      exact Nat.le_refl _

/-- The entry of the process is deleted; where there is none in Redis, that is all. -/
theorem coherent_deleteLocal (h : u.Coherent S key)
    (hstep : u.step S key ttlSeconds (.deleteLocal w) = some t) : t.Coherent S key := by
  rw [step] at hstep
  split at hstep
  · next p commit hcall =>
    have hcommit : commit ≤ u.version := h.invalidations w _ hcall
    have hremoved : ∀ q, u.removed q ≤ Function.update u.removed p (max (u.removed p) commit) q :=
      le_update_max
    have hnow : commit ≤ Function.update u.removed p (max (u.removed p) commit) p := by
      rw [Function.update_self]
      exact Nat.le_max_right _ _
    have hlocals : ∀ q expiresAt value,
        (key, (some value, expiresAt)) ∈
            (Function.update u.locals p ((u.locals p).delete [key]) q).entries →
          Function.update u.removed p (max (u.removed p) commit) q ≤ value := by
      intro q expiresAt value he
      rcases eq_or_ne q p with rfl | hne
      · rw [Function.update_self] at he
        exact absurd rfl ((RecencyDict.mem_erase _).1 he).2
      · rw [Function.update_of_ne hne] at he ⊢
        exact h.locals q expiresAt value he
    have hinvalidations : ∀ x v, u.invalidations x = some v →
        v.Sound u.version (Function.update u.removed p (max (u.removed p) commit)) := fun x v hv ↦
      Invalidation.Sound.mono (h.invalidations x v hv) (Nat.le_refl _) hremoved
    have hversion := update_max_le (p := p) (fun _ ↦ u.version) h.removed_le hcommit
    dsimp only at hstep
    split at hstep
    · obtain rfl := Option.some.inj hstep
      exact { h with
        locals := hlocals
        deleted_local := fun q ↦ Nat.le_trans (h.deleted_local q) (hremoved q)
        removed_le := hversion
        invalidations := invalidations_update hinvalidations fun v hv ↦ Option.some.inj hv ▸ hnow }
    · next hredis =>
      obtain rfl := Option.some.inj hstep
      exact { h with
        locals := hlocals
        deleted_local := update_max_le _ (fun q ↦ Nat.le_trans (h.deleted_local q) (hremoved q)) hnow
        deleted_shared := fun hshared ↦ absurd hshared hredis
        removed_le := hversion
        loads := fun j c hc ↦ CacheLoad.Sound.mono (h.loads j c hc) le_update_max
        invalidations := invalidations_update hinvalidations fun _ hv ↦ nomatch hv }
  · exact nomatch hstep

/-- The entry of Redis is deleted, and the deletion returns. -/
theorem coherent_deleteShared {reply : RedisReply} (h : u.Coherent S key)
    (hC : u.DeletionsKept key (.deleteShared w reply))
    (hstep : u.step S key ttlSeconds (.deleteShared w reply) = some t) : t.Coherent S key := by
  rw [step] at hstep
  split at hstep
  · next p commit hcall =>
    have hcommit : commit ≤ u.removed p := h.invalidations w _ hcall
    have hreply : reply ≠ .refused := hC
    dsimp only at hstep
    rw [if_neg hreply] at hstep
    obtain rfl := Option.some.inj hstep
    exact { h with
      shared := fun e he ↦ by
        have hnone : u.redis.delete key key = none := Function.update_self ..
        exact nomatch hnone.symm.trans he
      deleted_local := update_max_le _ h.deleted_local hcommit
      deleted_shared := fun hredis ↦
        update_max_le (fun _ ↦ max u.removedShared commit)
          (fun q ↦ Nat.le_trans (h.deleted_shared hredis q) (Nat.le_max_left _ _)) (Nat.le_max_right _ _)
      loads := fun j c hc ↦ CacheLoad.Sound.mono (h.loads j c hc) le_update_max
      invalidations := invalidations_update h.invalidations fun _ hv ↦ nomatch hv }
  · exact nomatch hstep

theorem coherent_evict (h : u.Coherent S key) (hstep : u.step S key ttlSeconds (.evict p) = some t) :
    t.Coherent S key := by
  obtain rfl := Option.some.inj hstep
  exact h.locals_update fun expiresAt value he ↦ absurd rfl ((RecencyDict.mem_erase _).1 he).2

theorem coherent_restart (h : u.Coherent S key) (hstep : u.step S key ttlSeconds (.restart p) = some t) :
    t.Coherent S key := by
  obtain rfl := Option.some.inj hstep
  have hlocals := h.locals_update (p := p) (L := RecencyDict.empty) fun _ _ he ↦ absurd he List.not_mem_nil
  exact { hlocals with loads := fun j c hc ↦ h.loads j c (Option.filter_eq_some_iff.1 hc).1 }

theorem coherent_forget (h : u.Coherent S key) (hstep : u.step S key ttlSeconds .forget = some t) :
    t.Coherent S key := by
  obtain rfl := Option.some.inj hstep
  exact { h with shared := fun _ he ↦ nomatch he }

theorem coherent_step {a : CacheLoadAction} (h : u.Coherent S key) (hC : u.DeletionsKept key a)
    (hstep : u.step S key ttlSeconds a = some t) : t.Coherent S key := by
  cases a with
  | tick now =>
    rw [step] at hstep
    split at hstep
    · obtain rfl := Option.some.inj hstep
      exact { h with }
    · exact nomatch hstep
  | start i p => exact coherent_start h hstep
  | answerGet i reply => exact coherent_answerGet h hstep
  | resume i => exact coherent_resume h hC hstep
  | acquire i => exact coherent_acquire h hstep
  | poll i => exact coherent_poll h hstep
  | tryLock i token reply => exact coherent_tryLock h hstep
  | readFilled i => exact coherent_readFilled h hstep
  | load i => exact coherent_load h hstep
  | fail i => exact coherent_fail h hstep
  | storeLocal i => exact coherent_storeLocal h hC hstep
  | share i reply => exact coherent_share h hC hstep
  | release i reply => exact coherent_release h hstep
  | commit w p => exact coherent_commit h hstep
  | deleteLocal w => exact coherent_deleteLocal h hstep
  | deleteShared w reply => exact coherent_deleteShared h hC hstep
  | evict p => exact coherent_evict h hstep
  | restart p => exact coherent_restart h hstep
  | forget => exact coherent_forget h hstep

end CacheLoads

theorem coherent_init {u : CacheLoads} (h : (cacheLoadMachine S key ttlSeconds).init u) :
    u.Coherent S key := by
  obtain ⟨-, hredis, -, hlocals, -, hloads, hinvalidations, hremoved, hshared, hdeleted, hanswers⟩ := h
  constructor
  · exact fun p _ _ he ↦ absurd (hlocals p ▸ he) List.not_mem_nil
  · exact fun e he ↦ nomatch (congrFun hredis key).symm.trans he
  · exact fun p ↦ hdeleted p ▸ Nat.zero_le _
  · exact fun _ p ↦ hdeleted p ▸ Nat.zero_le _
  · exact fun p ↦ hremoved p ▸ Nat.zero_le _
  · exact fun i c hc ↦ nomatch (hloads i).symm.trans hc
  · exact fun w v hv ↦ nomatch (hinvalidations w).symm.trans hv
  · exact fun a ha ↦ absurd (hanswers ▸ ha) List.not_mem_nil

/-! ### Runs -/

variable (S key ttlSeconds) in
/-- **As long as nothing old is stored and no `DEL` fails, a call returns a value that has seen every commit
whose deletion had returned in its process before it began.** -/
theorem deletions_are_final {u : CacheLoads}
    (h : (cacheLoadMachine S key ttlSeconds).Reachable (CacheLoads.DeletionsKept key) u) :
    ∀ a ∈ u.answers, a.since ≤ a.value := by
  have hcoherent : u.Coherent S key :=
    h.invariant (fun _ hu ↦ coherent_init hu) fun _ _ _ hu hC hstep ↦ CacheLoads.coherent_step hu hC hstep
  exact hcoherent.answers

/-- Nothing is cached, and nothing in flight. -/
def CacheLoads.empty : CacheLoads where
  clock := 0
  version := 0
  redis := ExpiringStore.empty
  locks := ExpiringStore.empty
  locals _ := RecencyDict.empty
  flights _ := none
  loads _ := none
  invalidations _ := none
  removed _ := 0
  removedShared := 0
  deleted _ := 0
  answers := []

theorem empty_init : (cacheLoadMachine S key ttlSeconds).init CacheLoads.empty :=
  ⟨rfl, rfl, rfl, fun _ ↦ rfl, fun _ ↦ rfl, fun _ ↦ rfl, fun _ ↦ rfl, fun _ ↦ rfl, rfl, fun _ ↦ rfl, rfl⟩

/-- A call finds nothing and takes both locks. -/
def missAndLock : List CacheLoadAction :=
  [.start 0 1, .answerGet 0 .answered, .resume 0, .acquire 0, .answerGet 0 .answered, .resume 0, .poll 0,
    .answerGet 0 .answered, .resume 0, .tryLock 0 7 .answered]

/-- A commit and its deletion, in the same process. -/
def commitAndDelete : List CacheLoadAction := [.commit 0 1, .deleteLocal 0, .deleteShared 0 .answered]

/-- What is loaded is stored; another call looks the key up. -/
def storeAndRead : List CacheLoadAction :=
  [.storeLocal 0, .share 0 .answered, .release 0 .answered, .start 1 1]

/-- `deletions_are_final` where the loader runs after the deletion: both calls return what has seen it. -/
theorem deletions_are_final_loaded :
    ∃ u, (cacheLoadMachine CacheSettings.default platformConfigCacheKey 300).Reachable
        (CacheLoads.DeletionsKept platformConfigCacheKey) u ∧
      u.answers = [⟨0, 1⟩, ⟨1, 1⟩] ∧ ∀ a ∈ u.answers, a.since ≤ a.value := by
  have hrun := reachable_run empty_init
    (show ((cacheLoadMachine CacheSettings.default platformConfigCacheKey 300).run
      (CacheLoads.DeletionsKept platformConfigCacheKey) CacheLoads.empty
      (missAndLock ++ commitAndDelete ++ [.load 0] ++ storeAndRead)).isSome = true by decide +kernel)
  exact ⟨_, hrun, by decide +kernel,
    deletions_are_final CacheSettings.default platformConfigCacheKey 300 hrun⟩

/-- **A call that loads before the commit and stores after the deletion undoes it**, with both locks held. -/
theorem deletions_are_undone :
    ∃ u, (cacheLoadMachine CacheSettings.default platformConfigCacheKey 300).Reachable anyStep u ∧
      ∃ a ∈ u.answers, ¬a.since ≤ a.value := by
  refine ⟨_, reachable_run empty_init
    (show ((cacheLoadMachine CacheSettings.default platformConfigCacheKey 300).run anyStep
      CacheLoads.empty (missAndLock ++ [.load 0] ++ commitAndDelete ++ storeAndRead)).isSome = true
      by decide +kernel), ?_⟩
  decide +kernel

end GenericApp
