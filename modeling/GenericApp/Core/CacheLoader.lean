import GenericApp.Core.Cache
import GenericApp.Foundation.Machine

/-!
# Loading through the cache

`coordinated_cache_load` on one key, statement by statement: look the key up, wait for the lock that the
process has for the key, look it up again, wait for the lock in Redis and look it up meanwhile, run the
loader, and store what it returns, in the process and then in Redis. A look-up asks the process first. What
Redis answers is copied into the process once the answer has arrived, which is a statement of its own.

Beside any number of such calls there are writers, which commit a change of the data and then call
`cache_delete`: the entry of the process goes first, that of Redis when `DEL` takes effect. Any number of
processes take part. A command to Redis is answered, or takes effect and loses its answer, or does not take
effect; in the last two cases the code goes on without it. The loader reads the committed data at one
instant, or raises.

A value is the number of commits that it has seen. `since` is, for a call, the last commit whose deletion
had returned in its process when the call began. `removed` and `removedShared` are the last commits for which
the entry of a process, and that of Redis, have been deleted; `deleted` the last for which `cache_delete` has
returned.
-/

namespace GenericApp

open Machine Py

/-- The look-ups of a call: before the lock of the process, under it, while waiting for the lock in Redis
until a deadline, and after another process has filled the cache. -/
inductive LookUp
  | first
  | second
  | polling (deadline : DateTime)
  | last
deriving DecidableEq

/-- A call of `coordinated_cache_load`, by the statement it is at.

* `reading`, `heard`: `GET` is on its way; it has been answered.
* `waiting`, `polling`, `locking`, `filled`: before the lock of the process; at the head of the loop of
  `_wait_for_distributed_lock`; before `SET NX`; another process has filled the cache.
* `loading`, `storing`, `sharing`, `releasing`: before the loader, with the token of the lock in Redis if it
  has that; before the entry of the process; before `SETEX`; before the locks are released. -/
inductive CacheLoad
  | reading (p since : ℕ) (lookUp : LookUp)
  | heard (p since : ℕ) (lookUp : LookUp) (reply : Option ℕ)
  | waiting (p since : ℕ)
  | polling (p since : ℕ) (deadline : DateTime)
  | locking (p since : ℕ) (deadline : DateTime)
  | filled (p since : ℕ)
  | loading (p since : ℕ) (token : Option ℕ)
  | storing (p since : ℕ) (token : Option ℕ) (value : ℕ)
  | sharing (p since : ℕ) (token : Option ℕ) (value : ℕ)
  | releasing (p since : ℕ) (token : Option ℕ) (value : Option ℕ)
deriving DecidableEq

namespace CacheLoad

/-- The process of the call. -/
def process : CacheLoad → ℕ
  | reading p _ _ | heard p _ _ _ | waiting p _ | polling p _ _ | locking p _ _ | filled p _
  | loading p _ _ | storing p _ _ _ | sharing p _ _ _ | releasing p _ _ _ => p

/-- The last commit whose deletion had returned in the process when the call began. -/
def since : CacheLoad → ℕ
  | reading _ since _ | heard _ since _ _ | waiting _ since | polling _ since _ | locking _ since _
  | filled _ since | loading _ since _ | storing _ since _ _ | sharing _ since _ _
  | releasing _ since _ _ => since

end CacheLoad

/-- A writer that has committed, before and after it has deleted the entry of its process. -/
inductive Invalidation
  | committed (p commit : ℕ)
  | deleting (p commit : ℕ)
deriving DecidableEq

/-- A value that a call has returned, and the commits that it had to have seen. -/
structure CacheAnswer where
  since : ℕ
  value : ℕ
deriving DecidableEq

/-- The data, the tiers, the locks and what is in flight. -/
structure CacheLoads where
  clock : DateTime
  version : ℕ
  redis : ExpiringStore String ℕ
  locks : ExpiringStore String ℕ
  locals : ℕ → LocalTTLCache ℕ
  flights : ℕ → Option ℕ
  loads : ℕ → Option CacheLoad
  invalidations : ℕ → Option Invalidation
  removed : ℕ → ℕ
  removedShared : ℕ
  deleted : ℕ → ℕ
  answers : List CacheAnswer

/-- The statements, by the call they belong to, and what else happens. -/
inductive CacheLoadAction
  | tick (now : DateTime)
  | start (i p : ℕ)
  | answerGet (i : ℕ) (reply : RedisReply)
  | resume (i : ℕ)
  | acquire (i : ℕ)
  | poll (i : ℕ)
  | tryLock (i token : ℕ) (reply : RedisReply)
  | readFilled (i : ℕ)
  | load (i : ℕ)
  | fail (i : ℕ)
  | storeLocal (i : ℕ)
  | share (i : ℕ) (reply : RedisReply)
  | release (i : ℕ) (reply : RedisReply)
  | commit (w p : ℕ)
  | deleteLocal (w : ℕ)
  | deleteShared (w : ℕ) (reply : RedisReply)
  | evict (p : ℕ)
  | restart (p : ℕ)
  | forget

/-- `_DISTRIBUTED_LOCK_TTL_SECONDS` -/
def distributedLockTtlSeconds : ℤ := 10

/-- `_DISTRIBUTED_LOCK_WAIT_SECONDS` -/
def distributedLockWaitSeconds : ℤ := 5

namespace CacheLoads

/-! ### The parts of a call -/

section Parts

variable (S : CacheSettings) (key : String) (u : CacheLoads) (i p since : ℕ)

/-- The call is now at this statement. -/
def move (c : CacheLoad) : CacheLoads := { u with loads := Function.update u.loads i (some c) }

/-- The call has ended without a value. -/
def gone : CacheLoads := { u with loads := Function.update u.loads i none }

/-- The call has ended with a value. -/
def answer (value : ℕ) : CacheLoads :=
  { u with
    loads := Function.update u.loads i none
    answers := u.answers ++ [⟨since, value⟩] }

/-- The lock of the process is free. -/
def unlock : CacheLoads := { u with flights := Function.update u.flights p none }

/-- A look-up has found a value. -/
def hit (value : ℕ) : LookUp → CacheLoads
  | .first => u.answer i since value
  | .second | .last => (u.unlock p).answer i since value
  | .polling _ => u.move i (.filled p since)

/-- A look-up has found nothing. -/
def miss : LookUp → CacheLoads
  | .first => u.move i (.waiting p since)
  | .second =>
    if usesRedisCache S key then u.move i (.polling p since (u.clock + timedelta distributedLockWaitSeconds))
    else u.move i (.loading p since none)
  | .polling deadline => u.move i (.locking p since deadline)
  | .last => (u.unlock p).gone i

/-- `get_cached()` up to `GET`. -/
def getCached (lookUp : LookUp) : CacheLoads :=
  let read := readLocal (u.locals p) key u.clock
  let u' : CacheLoads := { u with locals := Function.update u.locals p read.2 }
  match read.1 with
  | some value => u'.hit i p since value lookUp
  | none =>
    if usesRedisCache S key then u'.move i (.reading p since lookUp) else u'.miss S key i p since lookUp

end Parts

/-! ### Steps -/

/-- The next statement of a call. -/
def step (S : CacheSettings) (key : String) (ttlSeconds : ℤ) (u : CacheLoads) :
    CacheLoadAction → Option CacheLoads
  | .tick now => if u.clock ≤ now then some { u with clock := now } else none
  | .start i p =>
    match u.loads i with
    | some _ => none
    | none => some (u.getCached S key i p (u.deleted p) .first)
  | .answerGet i reply =>
    match u.loads i with
    | some (.reading p since lookUp) =>
      let value := if reply = .answered then u.redis.get key u.clock else none
      some (u.move i (.heard p since lookUp value))
    | _ => none
  | .resume i =>
    match u.loads i with
    | some (.heard p since lookUp (some value)) =>
      let L := writeLocal (u.locals p) key (some value) (localTtlForKey S key) u.clock
      some ({ u with locals := Function.update u.locals p L }.hit i p since value lookUp)
    | some (.heard p since lookUp none) => some (u.miss S key i p since lookUp)
    | _ => none
  | .acquire i =>
    match u.loads i with
    | some (.waiting p since) =>
      match u.flights p with
      | some _ => none
      | none =>
        some ({ u with flights := Function.update u.flights p (some i) }.getCached S key i p since .second)
    | _ => none
  | .poll i =>
    match u.loads i with
    | some (.polling p since deadline) =>
      if u.clock < deadline then some (u.getCached S key i p since (.polling deadline))
      else some (u.move i (.loading p since none))
    | _ => none
  | .tryLock i token reply =>
    match u.loads i with
    | some (.locking p since deadline) =>
      let held := (u.locks.get key u.clock).isSome
      let locks := u.locks.put key token (some (u.clock + timedelta distributedLockTtlSeconds))
      match reply with
      | .answered =>
        if held then some (u.move i (.polling p since deadline))
        else some ({ u with locks := locks }.move i (.loading p since (some token)))
      | .lost =>
        some ({ u with locks := if held then u.locks else locks }.move i (.loading p since none))
      | .refused => some (u.move i (.loading p since none))
    | _ => none
  | .readFilled i =>
    match u.loads i with
    | some (.filled p since) => some (u.getCached S key i p since .last)
    | _ => none
  | .load i =>
    match u.loads i with
    | some (.loading p since token) => some (u.move i (.storing p since token u.version))
    | _ => none
  | .fail i =>
    match u.loads i with
    | some (.loading p since token) => some (u.move i (.releasing p since token none))
    | _ => none
  | .storeLocal i =>
    match u.loads i with
    | some (.storing p since token value) =>
      let L := writeLocal (u.locals p) key (some value) ttlSeconds u.clock
      some ({ u with locals := Function.update u.locals p L }.move i
        (if usesRedisCache S key then .sharing p since token value
          else .releasing p since token (some value)))
    | _ => none
  | .share i reply =>
    match u.loads i with
    | some (.sharing p since token value) =>
      let redis :=
        if reply ≠ .refused ∧ 0 < ttlSeconds then
          u.redis.put key value (some (u.clock + timedelta ttlSeconds))
        else u.redis
      some ({ u with redis := redis }.move i (.releasing p since token (some value)))
    | _ => none
  | .release i reply =>
    match u.loads i with
    | some (.releasing p since token value) =>
      let mine := token.isSome && u.locks.get key u.clock == token
      let u' : CacheLoads :=
        { u with locks := if mine = true ∧ reply ≠ RedisReply.refused then u.locks.delete key else u.locks }.unlock p
      match value with
      | some value => some (u'.answer i since value)
      | none => some (u'.gone i)
    | _ => none
  | .commit w p =>
    match u.invalidations w with
    | some _ => none
    | none =>
      some { u with
        version := u.version + 1
        invalidations := Function.update u.invalidations w (some (.committed p (u.version + 1))) }
  | .deleteLocal w =>
    match u.invalidations w with
    | some (.committed p commit) =>
      let u' : CacheLoads := { u with
        locals := Function.update u.locals p ((u.locals p).delete [key])
        removed := Function.update u.removed p (max (u.removed p) commit) }
      if usesRedisCache S key then
        some { u' with invalidations := Function.update u.invalidations w (some (.deleting p commit)) }
      else
        some { u' with
          invalidations := Function.update u.invalidations w none
          deleted := Function.update u.deleted p (max (u.deleted p) commit) }
    | _ => none
  | .deleteShared w reply =>
    match u.invalidations w with
    | some (.deleting p commit) =>
      let u' : CacheLoads := { u with
        invalidations := Function.update u.invalidations w none
        deleted := Function.update u.deleted p (max (u.deleted p) commit) }
      if reply = .refused then some u'
      else some { u' with
        redis := u.redis.delete key
        removedShared := max u.removedShared commit }
    | _ => none
  | .evict p => some { u with locals := Function.update u.locals p ((u.locals p).delete [key]) }
  | .restart p =>
    some { u with
      locals := Function.update u.locals p RecencyDict.empty
      flights := Function.update u.flights p none
      loads := fun i ↦ (u.loads i).filter fun c ↦ c.process ≠ p }
  | .forget => some { u with redis := ExpiringStore.empty, locks := ExpiringStore.empty }

end CacheLoads

/-- From empty caches, and nothing in flight. -/
def cacheLoadMachine (S : CacheSettings) (key : String) (ttlSeconds : ℤ) :
    Machine CacheLoads CacheLoadAction where
  init u := u.version = 0 ∧ u.redis = ExpiringStore.empty ∧ u.locks = ExpiringStore.empty ∧
    (∀ p, u.locals p = RecencyDict.empty) ∧ (∀ p, u.flights p = none) ∧ (∀ i, u.loads i = none) ∧
    (∀ w, u.invalidations w = none) ∧ (∀ p, u.removed p = 0) ∧ u.removedShared = 0 ∧
    (∀ p, u.deleted p = 0) ∧ u.answers = []
  step := CacheLoads.step S key ttlSeconds

end GenericApp
