import GenericApp.Core.Cache
import GenericApp.Foundation.Machine

/-!
# Generations

A generation is a number that a bump takes forward, so that what was stored under an earlier one is never
looked up again. It lives in two places. Redis has a counter, which `INCR` takes forward and `EXPIRE` keeps
for ten times `CACHE_RETRIEVAL_TTL_SECONDS`; each process has a number of its own to fall back on where
Redis has none or does not answer. `cache_bump_generation` writes its own number, then the counter, then its
own number again.

Both calls run statement by statement here, any number of them at a time in any number of processes, and
`list_config_entries` with them, which looks entries up under the generation that it has read: in the
process first, then in Redis, under a key that the generation is part of, and else loads them. A command to
Redis is answered, or takes effect and loses its answer, or does not take effect. A process can restart at
any time, and Redis can lose what it has.

`returned` keeps the generations that have been returned, `stale` those of them that had been when a bump
began that has returned since: they must not come again. An `under` is not part of a payload. It is the
generation under whose key the payload has been stored.

* `generations_do_not_come_again`: as long as every `GET` is answered once there is a counter, every
  `INCR` takes effect and the counter neither expires nor is lost, no call returns a generation that was
  returned before a bump that it follows, and nothing that was stored under one is served.
* `generations_come_again`: one `GET` that fails is enough to bring back a generation, and to serve the
  entries from before the change.
-/

namespace GenericApp

open Machine Py

/-! ### Calls in flight -/

/-- What is stored by `list_config_entries`. -/
structure ConfigPayload (V : Type) where
  under : ℤ
  response : V
deriving DecidableEq

/-- The calls, by the statement they are at.

* `asked`: `cache_get_generation` has heard of Redis; `listing` says whether `list_config_entries` waits.
* `listing`, `loading`, `storing`: `list_config_entries` has a generation; the process had nothing under
  it; there is a payload to keep and return.
* `bumping`, `counted`, `ending`: `cache_bump_generation` before `INCR`, before `EXPIRE`, before it
  returns. -/
inductive GenerationCall (V : Type)
  | asked (p : ℕ) (reply : Option ℤ) (stale : List ℤ) (listing : Bool)
  | listing (p : ℕ) (generation : ℤ) (stale : List ℤ)
  | loading (p : ℕ) (generation : ℤ) (stale : List ℤ)
  | storing (p : ℕ) (generation : ℤ) (payload : ConfigPayload V) (stale : List ℤ)
  | bumping (p : ℕ) (next : ℤ) (before : List ℤ)
  | counted (p : ℕ) (next : ℤ) (before : List ℤ)
  | ending (p : ℕ) (next : ℤ) (before : List ℤ)
deriving DecidableEq

/-- The process of a call. -/
def GenerationCall.process {V : Type} : GenerationCall V → ℕ
  | asked p _ _ _ | listing p _ _ | loading p _ _ | storing p _ _ _ | bumping p _ _ | counted p _ _
  | ending p _ _ => p

/-- A generation that was returned, and those that must not have been. -/
structure GenerationAnswer where
  generation : ℤ
  stale : List ℤ

/-- A payload that was served, and the generations whose payloads must not have been. -/
structure ServedConfig (V : Type) where
  payload : ConfigPayload V
  stale : List ℤ

/-- Redis, the processes and their calls, and what has been returned. -/
structure Generations (V : Type) where
  clock : DateTime
  counters : ExpiringStore String ℤ
  payloads : ExpiringStore String (ConfigPayload V)
  fallbacks : ℕ → Option ℤ
  locals : ℕ → LocalTTLCache (ℤ × ConfigPayload V)
  calls : ℕ → Option (GenerationCall V)
  returned : List ℤ
  stale : List ℤ
  answers : List GenerationAnswer
  served : List (ServedConfig V)

/-- The statements, by the call they belong to, and what else happens. -/
inductive GenerationAction (V : Type)
  | tick (now : DateTime)
  | get (i p : ℕ) (listing answered : Bool)
  | finishGet (i : ℕ)
  | readLocal (i : ℕ)
  | readShared (i : ℕ)
  | load (i : ℕ) (response : V) (stored : Bool)
  | storeLocal (i : ℕ)
  | bump (i p : ℕ)
  | incr (i : ℕ) (reply : RedisReply)
  | expire (i : ℕ) (reply : RedisReply)
  | finishBump (i : ℕ)
  | invalidate (p : ℕ)
  | restart (p : ℕ)
  | forget

section Calls

variable {V : Type} (S : CacheSettings) (scope : String)

/-- The key of the counter. -/
def generationKey : String := cacheKey ["generation", scope]

/-- The key that `list_config_entries` stores under. -/
def configEntriesKey (generation : ℤ) : String :=
  cacheKey ["settings", "config_entries", toString generation]

/-- `redis_client.expire(key, seconds)`: a lifetime that is not positive removes the key. -/
def expireCounter (R : ExpiringStore String ℤ) (key : String) (seconds : ℤ) (now : DateTime) :
    ExpiringStore String ℤ :=
  if 0 < seconds then R.expire key (now + timedelta seconds) now else R.delete key

namespace Generations

variable (u : Generations V)

/-- `_local_generations.get(scope, 0)` -/
def fallback (p : ℕ) : ℤ := (u.fallbacks p).getD 0

/-- The call is now at this statement. -/
def move (i : ℕ) (c : GenerationCall V) : Generations V :=
  { u with calls := Function.update u.calls i (some c) }

/-- The call has returned. -/
def gone (i : ℕ) : Generations V := { u with calls := Function.update u.calls i none }

/-- The next statement of a call. -/
def step : GenerationAction V → Option (Generations V)
  | .tick now => if u.clock ≤ now then some { u with clock := now } else none
  | .get i p listing answered =>
    match u.calls i with
    | some _ => none
    | none =>
      let reply := if S.cacheEnabled && answered then u.counters.get (generationKey scope) u.clock else none
      some (u.move i (.asked p reply u.stale listing))
  | .finishGet i =>
    match u.calls i with
    | some (.asked p reply stale listing) =>
      let generation := reply.getD (u.fallback p)
      let u' : Generations V := { u with
        returned := u.returned ++ [generation]
        answers := u.answers ++ [⟨generation, stale⟩] }
      some (if listing then u'.move i (.listing p generation stale) else u'.gone i)
    | _ => none
  | .readLocal i =>
    match u.calls i with
    | some (.listing p generation stale) =>
      let (value, L) := (u.locals p).get settingsConfigEntriesCacheKey u.clock
      let u' : Generations V := { u with locals := Function.update u.locals p L }
      match value with
      | some (under, payload) =>
        if under = generation then some { u'.gone i with served := u.served ++ [⟨payload, stale⟩] }
        else some (u'.move i (.loading p generation stale))
      | none => some (u'.move i (.loading p generation stale))
    | _ => none
  | .readShared i =>
    match u.calls i with
    | some (.loading p generation stale) =>
      match u.payloads.get (configEntriesKey generation) u.clock with
      | some payload =>
        if S.cacheEnabled then some (u.move i (.storing p generation payload stale)) else none
      | none => none
    | _ => none
  | .load i response stored =>
    match u.calls i with
    | some (.loading p generation stale) =>
      let payload : ConfigPayload V := ⟨generation, response⟩
      let expiresAt := u.clock + timedelta S.cacheSettingsTtlSeconds
      let payloads :=
        if S.cacheEnabled && stored && 0 < S.cacheSettingsTtlSeconds then
          u.payloads.put (configEntriesKey generation) payload (some expiresAt)
        else u.payloads
      some ({ u with payloads := payloads }.move i (.storing p generation payload stale))
    | _ => none
  | .storeLocal i =>
    match u.calls i with
    | some (.storing p generation payload stale) =>
      let L := (u.locals p).set settingsConfigEntriesCacheKey (some (generation, payload))
        S.cacheSettingsTtlSeconds u.clock
      some { u.gone i with
        locals := Function.update u.locals p L
        served := u.served ++ [⟨payload, stale⟩] }
    | _ => none
  | .bump i p =>
    match u.calls i with
    | some _ => none
    | none =>
      let next := u.fallback p + 1
      let u' := { u with fallbacks := Function.update u.fallbacks p (some next) }
      some (u'.move i (if S.cacheEnabled then .bumping p next u.returned else .ending p next u.returned))
  | .incr i reply =>
    match u.calls i with
    | some (.bumping p next before) =>
      let counters := u.counters.incr (generationKey scope) u.clock
      match reply with
      | .answered =>
        some ({ u with counters := counters }.move i
          (.counted p (counters.count (generationKey scope)) before))
      | .lost => some ({ u with counters := counters }.move i (.ending p next before))
      | .refused => some (u.move i (.ending p next before))
    | _ => none
  | .expire i reply =>
    match u.calls i with
    | some (.counted p next before) =>
      let counters := expireCounter u.counters (generationKey scope) (S.cacheRetrievalTtlSeconds * 10)
        u.clock
      match reply with
      | .answered =>
        some ({ u with
          counters := counters
          fallbacks := Function.update u.fallbacks p (some next) }.move i (.ending p next before))
      | .lost => some ({ u with counters := counters }.move i (.ending p next before))
      | .refused => some (u.move i (.ending p next before))
    | _ => none
  | .finishBump i =>
    match u.calls i with
    | some (.ending _ _ before) => some { u.gone i with stale := u.stale ++ before }
    | _ => none
  | .invalidate p =>
    some { u with
      locals := Function.update u.locals p ((u.locals p).delete [settingsConfigEntriesCacheKey]) }
  | .restart p =>
    some { u with
      fallbacks := Function.update u.fallbacks p none
      locals := Function.update u.locals p RecencyDict.empty
      calls := fun i ↦ (u.calls i).filter fun c ↦ c.process ≠ p }
  | .forget => some { u with counters := ExpiringStore.empty, payloads := ExpiringStore.empty }

end Generations

/-- From empty caches, and with no generation known. -/
def generationMachine : Machine (Generations V) (GenerationAction V) where
  init u := u.counters = ExpiringStore.empty ∧ u.payloads = ExpiringStore.empty ∧
    (∀ p, u.fallbacks p = none) ∧ (∀ p, u.locals p = RecencyDict.empty) ∧ (∀ i, u.calls i = none) ∧
    u.returned = [] ∧ u.stale = [] ∧ u.answers = [] ∧ u.served = []
  step := Generations.step S scope

/-- The counter has not expired. -/
def Generations.CounterLive (u : Generations V) : Prop :=
  ∀ e, u.counters (generationKey scope) = some e → e.Live u.clock

instance (u : Generations V) : Decidable (u.CounterLive scope) :=
  match h : u.counters (generationKey scope) with
  | none => isTrue fun e he ↦ nomatch h.symm.trans he
  | some e => decidable_of_iff (e.Live u.clock)
      ⟨fun hlive _ he ↦ Option.some.inj (h.symm.trans he) ▸ hlive, fun hlive ↦ hlive e h⟩

/-- A call that has heard of no counter falls back on a number that the counter has reached. -/
def Generations.FallbackReached (u : Generations V) : Option (GenerationCall V) → Prop
  | some (.asked p none _ _) => u.fallback p ≤ u.counters.count (generationKey scope)
  | _ => True

instance (u : Generations V) : (c : Option (GenerationCall V)) → Decidable (u.FallbackReached scope c)
  | none | some (.asked _ (some _) _ _) | some (.listing ..) | some (.loading ..) | some (.storing ..)
  | some (.bumping ..) | some (.counted ..) | some (.ending ..) => isTrue trivial
  | some (.asked p none _ _) =>
    inferInstanceAs (Decidable (u.fallback p ≤ u.counters.count (generationKey scope)))

/-- **The counter is asked and kept.** The cache is enabled where something is bumped. Once there is a
counter, every `GET` is answered, and the counter neither expires nor is lost; every `INCR` takes effect; and
a call that has heard of no counter does not return a number of its process that the counter has not
reached, which is that of an unfinished bump. -/
def Generations.CounterKept (u : Generations V) : GenerationAction V → Prop
  | .get _ _ _ answered =>
    u.CounterLive scope ∧
      (u.counters (generationKey scope) ≠ none → S.cacheEnabled = true ∧ answered = true)
  | .finishGet i => u.FallbackReached scope (u.calls i)
  | .bump _ _ => S.cacheEnabled = true
  | .incr _ reply => u.CounterLive scope ∧ reply ≠ .refused
  | .expire _ _ => 0 < S.cacheRetrievalTtlSeconds
  | .forget => u.counters (generationKey scope) = none
  | _ => True

instance (u : Generations V) : (a : GenerationAction V) → Decidable (u.CounterKept S scope a)
  | .get _ _ _ answered => inferInstanceAs (Decidable (u.CounterLive scope ∧
      (u.counters (generationKey scope) ≠ none → S.cacheEnabled = true ∧ answered = true)))
  | .finishGet i => inferInstanceAs (Decidable (u.FallbackReached scope (u.calls i)))
  | .bump _ _ => inferInstanceAs (Decidable (S.cacheEnabled = true))
  | .incr _ reply => inferInstanceAs (Decidable (u.CounterLive scope ∧ reply ≠ .refused))
  | .expire _ _ => inferInstanceAs (Decidable (0 < S.cacheRetrievalTtlSeconds))
  | .forget => inferInstanceAs (Decidable (u.counters (generationKey scope) = none))
  | .tick _ | .readLocal _ | .readShared _ | .load .. | .storeLocal _ | .finishBump _ | .invalidate _
  | .restart _ => isTrue trivial

end Calls

variable {V : Type} {S : CacheSettings} {scope : String}

/-! ### Numbers below the counter -/

section Counting

variable {R R' : ExpiringStore String ℤ} {key : String}

/-- The counter is there if it was, and is no lower. -/
def Forward (key : String) (R R' : ExpiringStore String ℤ) : Prop :=
  R.count key ≤ R'.count key ∧ (R key ≠ none → R' key ≠ none)

/-- What holds of a call between its statements: a generation that it has read is above those that must not
come again, and those that were returned before a bump are below the counter once it has gone up. -/
def GenerationCall.Sound (key : String) (R : ExpiringStore String ℤ) : GenerationCall V → Prop
  | asked _ (some generation) stale _ => generation ≤ R.count key ∧ ∀ x ∈ stale, x < generation
  | asked _ none stale _ => stale = []
  | listing _ generation stale | loading _ generation stale => generation ∉ stale
  | storing _ generation payload stale => generation ∉ stale ∧ payload.under = generation
  | bumping _ _ before => ∀ x ∈ before, x ≤ R.count key
  | counted _ _ before | ending _ _ before => R key ≠ none ∧ ∀ x ∈ before, x < R.count key

theorem GenerationCall.Sound.forward {c : GenerationCall V} (h : c.Sound key R) (hR : Forward key R R') :
    c.Sound key R' := by
  obtain ⟨hcount, hthere⟩ := hR
  match c, h with
  | .asked _ (some _) _ _, ⟨hle, hstale⟩ => exact ⟨by omega, hstale⟩
  | .asked _ none _ _, hstale => exact hstale
  | .listing _ _ _, hnot => exact hnot
  | .loading _ _ _, hnot => exact hnot
  | .storing _ _ _ _, hsound => exact hsound
  | .bumping _ _ _, hle => exact fun x hx ↦ Int.le_trans (hle x hx) hcount
  | .counted _ _ _, ⟨hsome, hlt⟩ => exact ⟨hthere hsome, fun x hx ↦ Int.lt_of_lt_of_le (hlt x hx) hcount⟩
  | .ending _ _ _, ⟨hsome, hlt⟩ => exact ⟨hthere hsome, fun x hx ↦ Int.lt_of_lt_of_le (hlt x hx) hcount⟩

/-- `INCR` on a counter that has not expired. -/
theorem forward_incr {now : DateTime} (h : ∀ e, R key = some e → e.Live now) :
    Forward key R (R.incr key now) := by
  obtain ⟨hcount, hsome⟩ := ExpiringStore.incr_of_live h
  refine ⟨?_, fun _ ↦ hsome⟩
  rw [hcount]
  omega

/-- `EXPIRE` with a lifetime that is positive. -/
theorem forward_expireCounter (R : ExpiringStore String ℤ) (key : String) {seconds : ℤ}
    (hpos : 0 < seconds) (now : DateTime) : Forward key R (expireCounter R key seconds now) := by
  rw [expireCounter, if_pos hpos]
  obtain ⟨hcount, hsome⟩ := R.count_expire key (now + timedelta seconds) now
  exact ⟨by omega, hsome⟩

end Counting

/-! ### The invariant -/

/-- What holds between any two statements. -/
structure Generations.Sound (scope : String) (u : Generations V) : Prop where
  /-- Nothing is stale before there is a counter. -/
  absent : u.counters (generationKey scope) = none → u.stale = []
  returned : ∀ x ∈ u.returned, x ≤ u.counters.count (generationKey scope)
  stale : ∀ x ∈ u.stale, x < u.counters.count (generationKey scope)
  calls : ∀ i c, u.calls i = some c → c.Sound (generationKey scope) u.counters
  answers : ∀ a ∈ u.answers, a.generation ∉ a.stale
  /-- What is in Redis is under the key of its generation. -/
  payloads : ∀ k e, u.payloads k = some e → k = configEntriesKey e.value.under
  /-- What is in a process says its generation. -/
  locals : ∀ p, ∀ e ∈ (u.locals p).entries, ∀ x, e.2.1 = some x → x.2.under = x.1
  served : ∀ s ∈ u.served, s.payload.under ∉ s.stale

namespace Generations.Sound

variable {u : Generations V} {i p : ℕ}

/-- Where one call has moved, each is sound. -/
theorem calls_update {R : ExpiringStore String ℤ} {calls : ℕ → Option (GenerationCall V)}
    {key : String} (h : ∀ i c, calls i = some c → c.Sound key R) {next : Option (GenerationCall V)}
    (hnext : ∀ c, next = some c → c.Sound key R) (j : ℕ) (c : GenerationCall V)
    (hc : Function.update calls i next j = some c) : c.Sound key R := by
  rcases update_cases (f := calls) (i := i) (x := next) rfl j with ⟨-, heq⟩ | ⟨-, heq⟩
  · exact hnext c (heq ▸ hc)
  · exact h j c (heq ▸ hc)

theorem move (h : u.Sound scope) {c : GenerationCall V} (hc : c.Sound (generationKey scope) u.counters) :
    (u.move i c).Sound scope :=
  { h with calls := calls_update h.calls fun _ hd ↦ Option.some.inj hd ▸ hc }

theorem gone (h : u.Sound scope) : (u.gone i).Sound scope :=
  { h with calls := calls_update h.calls fun _ hd ↦ nomatch hd }

/-- The counter may go forward. -/
theorem forward (h : u.Sound scope) {R : ExpiringStore String ℤ}
    (hR : Forward (generationKey scope) u.counters R) :
    ({ u with counters := R } : Generations V).Sound scope :=
  { h with
    absent := fun hnone ↦ h.absent (by_contra fun hsome ↦ hR.2 hsome hnone)
    returned := fun x hx ↦ Int.le_trans (h.returned x hx) hR.1
    stale := fun x hx ↦ Int.lt_of_lt_of_le (h.stale x hx) hR.1
    calls := fun i c hc ↦ (h.calls i c hc).forward hR }

/-- The numbers that the processes fall back on do not matter. -/
theorem fallbacks (h : u.Sound scope) (fallbacks : ℕ → Option ℤ) :
    ({ u with fallbacks := fallbacks } : Generations V).Sound scope :=
  ⟨h.absent, h.returned, h.stale, h.calls, h.answers, h.payloads, h.locals, h.served⟩

/-- Redis may have other payloads, if they are under the keys of their generations. -/
theorem payloads_update (h : u.Sound scope) {payloads : ExpiringStore String (ConfigPayload V)}
    (hpayloads : ∀ k e, payloads k = some e → k = configEntriesKey e.value.under) :
    ({ u with payloads := payloads } : Generations V).Sound scope :=
  { h with payloads := hpayloads }

/-- A process may have other entries, if they say their generation. -/
theorem locals_update (h : u.Sound scope) {L : LocalTTLCache (ℤ × ConfigPayload V)}
    (hL : ∀ e ∈ L.entries, ∀ x, e.2.1 = some x → x.2.under = x.1) :
    ({ u with locals := Function.update u.locals p L } : Generations V).Sound scope :=
  { h with
    locals := fun q e he ↦ by
      rcases update_cases (f := u.locals) (i := p) (x := L) rfl q with ⟨-, heq⟩ | ⟨-, heq⟩
      · exact hL e (heq ▸ he)
      · exact h.locals q e (heq ▸ he) }

/-- What is served must not be stale. -/
theorem serve (h : u.Sound scope) {payload : ConfigPayload V} {stale : List ℤ}
    (hnot : payload.under ∉ stale) :
    ({ u with served := u.served ++ [⟨payload, stale⟩] } : Generations V).Sound scope :=
  { h with
    served := fun s hs ↦ by
      rcases List.mem_append.1 hs with hs | hs
      · exact h.served s hs
      · obtain rfl := List.mem_singleton.1 hs
        exact hnot }

/-- A generation is returned that the counter has reached and that is not stale. -/
theorem answer (h : u.Sound scope) {generation : ℤ} {stale : List ℤ}
    (hle : generation ≤ u.counters.count (generationKey scope)) (hnot : generation ∉ stale) :
    ({ u with
      returned := u.returned ++ [generation]
      answers := u.answers ++ [⟨generation, stale⟩] } : Generations V).Sound scope :=
  { h with
    returned := fun x hx ↦ by
      rcases List.mem_append.1 hx with hx | hx
      · exact h.returned x hx
      · rwa [List.mem_singleton.1 hx]
    answers := fun a ha ↦ by
      rcases List.mem_append.1 ha with ha | ha
      · exact h.answers a ha
      · obtain rfl := List.mem_singleton.1 ha
        exact hnot }

end Generations.Sound

/-! ### Each statement keeps it -/

namespace Generations

variable {u t : Generations V} {i p : ℕ}

/-- Where every `GET` is answered, the reply is the counter. -/
theorem reply_eq {listing answered : Bool} (hC : u.CounterKept S scope (.get i p listing answered)) :
    (if S.cacheEnabled && answered then u.counters.get (generationKey scope) u.clock else none) =
      (u.counters (generationKey scope)).map Expiring.value := by
  obtain ⟨hlive, hanswered⟩ := hC
  rcases he : u.counters (generationKey scope) with - | e
  · rw [ExpiringStore.get, he]
    exact ite_self _
  · obtain ⟨henabled, rfl⟩ := hanswered (by rw [he]; exact Option.some_ne_none e)
    rw [henabled, ExpiringStore.get, he]
    exact if_pos (hlive e he)

theorem sound_get {listing answered : Bool} (h : u.Sound scope)
    (hC : u.CounterKept S scope (.get i p listing answered))
    (hstep : u.step S scope (.get i p listing answered) = some t) : t.Sound scope := by
  rw [step] at hstep
  split at hstep
  · exact nomatch hstep
  · obtain rfl := Option.some.inj hstep
    refine h.move ?_
    rw [reply_eq hC]
    rcases he : u.counters (generationKey scope) with - | e
    · exact h.absent he
    · have hcount : u.counters.count (generationKey scope) = e.value := by
        rw [ExpiringStore.count, he]
        rfl
      exact ⟨by omega, fun x hx ↦ hcount ▸ h.stale x hx⟩

theorem sound_finishGet (h : u.Sound scope) (hC : u.CounterKept S scope (.finishGet i))
    (hstep : u.step S scope (.finishGet i) = some t) : t.Sound scope := by
  rw [step] at hstep
  split at hstep
  · next p reply stale listing hcall =>
    obtain rfl := Option.some.inj hstep
    have hsound := h.calls i _ hcall
    obtain ⟨hle, hnot⟩ : reply.getD (u.fallback p) ≤ u.counters.count (generationKey scope) ∧
        reply.getD (u.fallback p) ∉ stale := by
      rcases reply with - | generation
      · obtain rfl : stale = [] := hsound
        have hreached : u.FallbackReached scope (some (.asked p none [] listing)) := hcall ▸ hC
        exact ⟨hreached, List.not_mem_nil⟩
      · exact ⟨hsound.1, fun hmem ↦ absurd (hsound.2 _ hmem) (Int.lt_irrefl _)⟩
    have hanswer := h.answer hle hnot
    split
    · exact hanswer.move hnot
    · exact hanswer.gone
  · exact nomatch hstep

theorem sound_readLocal (h : u.Sound scope) (hstep : u.step S scope (.readLocal i) = some t) :
    t.Sound scope := by
  rw [step] at hstep
  split at hstep
  · next p generation stale hcall =>
    have hnot : generation ∉ stale := h.calls i _ hcall
    rcases hget : (u.locals p).get settingsConfigEntriesCacheKey u.clock with ⟨value, L⟩
    have hL : ∀ e ∈ L.entries, ∀ x, e.2.1 = some x → x.2.under = x.1 := by
      intro e he
      have hmem : e ∈ ((u.locals p).get settingsConfigEntriesCacheKey u.clock).2.entries := by rwa [hget]
      exact h.locals p e (LocalTTLCache.mem_get hmem)
    have hlocals := h.locals_update (p := p) hL
    rw [hget] at hstep
    dsimp only at hstep
    split at hstep
    · next under payload =>
      split at hstep
      · next heq =>
        obtain rfl := Option.some.inj hstep
        obtain ⟨expiresAt, hmem, -⟩ := LocalTTLCache.mem_of_get (congrArg Prod.fst hget)
        have hunder : payload.under = under := h.locals p _ hmem _ rfl
        exact hlocals.gone.serve (by rwa [hunder, heq])
      · obtain rfl := Option.some.inj hstep
        exact hlocals.move hnot
    · obtain rfl := Option.some.inj hstep
      exact hlocals.move hnot
  · exact nomatch hstep

/-- The key says the generation. -/
theorem configEntriesKey_injective {g g' : ℤ} (h : configEntriesKey g = configEntriesKey g') : g = g' := by
  have hlists : ("ga:settings:config_entries:".toList ++ (toString g).toList) =
      "ga:settings:config_entries:".toList ++ (toString g').toList := by
    simpa [configEntriesKey, cacheKey, cacheNamespace] using congrArg String.toList h
  exact Int.repr_injective (String.toList_inj.1 (List.append_cancel_left hlists))

theorem sound_readShared (h : u.Sound scope) (hstep : u.step S scope (.readShared i) = some t) :
    t.Sound scope := by
  rw [step] at hstep
  split at hstep
  · next p generation stale hcall =>
    split at hstep
    · next payload hget =>
      split at hstep
      · obtain rfl := Option.some.inj hstep
        obtain ⟨e, he, -, rfl⟩ := ExpiringStore.live_of_get hget
        exact h.move ⟨h.calls i _ hcall, (configEntriesKey_injective (h.payloads _ e he)).symm⟩
      · exact nomatch hstep
    · exact nomatch hstep
  · exact nomatch hstep

theorem sound_load {response : V} {stored : Bool} (h : u.Sound scope)
    (hstep : u.step S scope (.load i response stored) = some t) : t.Sound scope := by
  rw [step] at hstep
  split at hstep
  · next p generation stale hcall =>
    obtain rfl := Option.some.inj hstep
    have hnot : generation ∉ stale := h.calls i _ hcall
    refine (h.payloads_update fun k e he ↦ ?_).move ⟨hnot, rfl⟩
    split at he
    · rcases ExpiringStore.put_cases he with ⟨rfl, rfl⟩ | ⟨-, hold⟩
      · rfl
      · exact h.payloads k e hold
    · exact h.payloads k e he
  · cases hstep

theorem sound_storeLocal (h : u.Sound scope) (hstep : u.step S scope (.storeLocal i) = some t) :
    t.Sound scope := by
  rw [step] at hstep
  split at hstep
  · next p generation payload stale hcall =>
    obtain rfl := Option.some.inj hstep
    obtain ⟨hnot, hunder⟩ := h.calls i _ hcall
    refine Sound.serve (h.gone.locals_update fun e he x hx ↦ ?_) (by rwa [hunder])
    rcases LocalTTLCache.mem_set he with rfl | hold
    · obtain rfl := Option.some.inj hx
      exact hunder
    · exact h.locals p e hold x hx
  · exact nomatch hstep

theorem sound_bump (h : u.Sound scope) (hC : u.CounterKept S scope (.bump i p))
    (hstep : u.step S scope (.bump i p) = some t) : t.Sound scope := by
  rw [step] at hstep
  split at hstep
  · exact nomatch hstep
  · obtain rfl := Option.some.inj hstep
    have henabled : S.cacheEnabled = true := hC
    rw [if_pos henabled]
    exact (h.fallbacks _).move h.returned

theorem sound_incr {reply : RedisReply} (h : u.Sound scope) (hC : u.CounterKept S scope (.incr i reply))
    (hstep : u.step S scope (.incr i reply) = some t) : t.Sound scope := by
  obtain ⟨hlive, hreply⟩ := hC
  rw [step] at hstep
  split at hstep
  · next p next' before hcall =>
    obtain ⟨hcount, hsome⟩ := ExpiringStore.incr_of_live hlive
    have hbefore : ∀ x ∈ before,
        x < (u.counters.incr (generationKey scope) u.clock).count (generationKey scope) := by
      intro x hx
      have hle : x ≤ u.counters.count (generationKey scope) := h.calls i _ hcall x hx
      omega
    have hforward := h.forward (forward_incr hlive)
    rcases reply with - | - | -
    · obtain rfl := Option.some.inj hstep
      exact hforward.move ⟨hsome, hbefore⟩
    · obtain rfl := Option.some.inj hstep
      exact hforward.move ⟨hsome, hbefore⟩
    · exact absurd rfl hreply
  · exact nomatch hstep

theorem sound_expire {reply : RedisReply} (h : u.Sound scope)
    (hC : u.CounterKept S scope (.expire i reply))
    (hstep : u.step S scope (.expire i reply) = some t) : t.Sound scope := by
  have hpos : 0 < S.cacheRetrievalTtlSeconds * 10 := Int.mul_pos hC (by decide)
  rw [step] at hstep
  split at hstep
  · next p next' before hcall =>
    have hR := forward_expireCounter u.counters (generationKey scope) hpos u.clock
    have hsound : (GenerationCall.ending (V := V) p next' before).Sound (generationKey scope) u.counters :=
      h.calls i (.counted p next' before) hcall
    rcases reply with - | - | -
    · obtain rfl := Option.some.inj hstep
      exact ((h.forward hR).fallbacks _).move (hsound.forward hR)
    · obtain rfl := Option.some.inj hstep
      exact (h.forward hR).move (hsound.forward hR)
    · obtain rfl := Option.some.inj hstep
      exact h.move hsound
  · exact nomatch hstep

theorem sound_finishBump (h : u.Sound scope) (hstep : u.step S scope (.finishBump i) = some t) :
    t.Sound scope := by
  rw [step] at hstep
  split at hstep
  · next p next' before hcall =>
    obtain rfl := Option.some.inj hstep
    obtain ⟨hsome, hlt⟩ := h.calls i _ hcall
    exact { h.gone with
      absent := fun hnone ↦ absurd hnone hsome
      stale := fun x hx ↦ (List.mem_append.1 hx).elim (h.stale x) (hlt x) }
  · exact nomatch hstep

theorem sound_restart (h : u.Sound scope) (hstep : u.step S scope (.restart p) = some t) :
    t.Sound scope := by
  obtain rfl := Option.some.inj hstep
  exact { h.locals_update (p := p) (L := RecencyDict.empty) fun _ he ↦ absurd he List.not_mem_nil with
    calls := fun j c hc ↦ h.calls j c (Option.filter_eq_some_iff.1 hc).1 }

theorem sound_forget (h : u.Sound scope) (hC : u.CounterKept S scope .forget)
    (hstep : u.step S scope .forget = some t) : t.Sound scope := by
  obtain rfl := Option.some.inj hstep
  have hnone : u.counters (generationKey scope) = none := hC
  have hR : Forward (generationKey scope) u.counters ExpiringStore.empty := by
    refine ⟨?_, fun hsome ↦ absurd hnone hsome⟩
    rw [ExpiringStore.count, hnone]
    exact Int.le_refl _
  exact { h.forward hR with payloads := fun _ _ he ↦ by cases he }

theorem sound_step {a : GenerationAction V} (h : u.Sound scope) (hC : u.CounterKept S scope a)
    (hstep : u.step S scope a = some t) : t.Sound scope := by
  cases a with
  | tick now =>
    rw [step] at hstep
    split at hstep
    · obtain rfl := Option.some.inj hstep
      exact { h with }
    · exact nomatch hstep
  | get i p listing answered => exact sound_get h hC hstep
  | finishGet i => exact sound_finishGet h hC hstep
  | readLocal i => exact sound_readLocal h hstep
  | readShared i => exact sound_readShared h hstep
  | load i response stored => exact sound_load h hstep
  | storeLocal i => exact sound_storeLocal h hstep
  | bump i p => exact sound_bump h hC hstep
  | incr i reply => exact sound_incr h hC hstep
  | expire i reply => exact sound_expire h hC hstep
  | finishBump i => exact sound_finishBump h hstep
  | invalidate p =>
    obtain rfl := Option.some.inj hstep
    exact h.locals_update fun e he ↦ h.locals p e ((RecencyDict.mem_erase _).1 he).1
  | restart p => exact sound_restart h hstep
  | forget => exact sound_forget h hC hstep

end Generations

theorem sound_init {u : Generations V} (h : (generationMachine S scope).init u) : u.Sound scope := by
  obtain ⟨hcounters, hpayloads, -, hlocals, hcalls, hreturned, hstale, hanswers, hserved⟩ := h
  constructor
  · exact fun _ ↦ hstale
  · exact fun x hx ↦ absurd (hreturned ▸ hx) List.not_mem_nil
  · exact fun x hx ↦ absurd (hstale ▸ hx) List.not_mem_nil
  · exact fun i c hc ↦ nomatch (hcalls i).symm.trans hc
  · exact fun a ha ↦ absurd (hanswers ▸ ha) List.not_mem_nil
  · exact fun k e he ↦ nomatch (congrFun hpayloads k).symm.trans he
  · exact fun p e he ↦ absurd (hlocals p ▸ he) List.not_mem_nil
  · exact fun s hs ↦ absurd (hserved ▸ hs) List.not_mem_nil

/-! ### Runs -/

variable (S scope) in
/-- **As long as the counter is asked and kept, no generation comes again after a bump, and nothing that was
stored under one from before it is served.** -/
theorem generations_do_not_come_again {u : Generations V}
    (h : (generationMachine S scope).Reachable (Generations.CounterKept S scope) u) :
    (∀ a ∈ u.answers, a.generation ∉ a.stale) ∧ ∀ s ∈ u.served, s.payload.under ∉ s.stale := by
  have hsound : u.Sound scope :=
    h.invariant (fun _ hu ↦ sound_init hu) fun _ _ _ hu hC hstep ↦ Generations.sound_step hu hC hstep
  exact ⟨hsound.answers, hsound.served⟩

/-- No generation is known, and nothing is cached. -/
def Generations.start : Generations V where
  clock := 0
  counters := ExpiringStore.empty
  payloads := ExpiringStore.empty
  fallbacks _ := none
  locals _ := RecencyDict.empty
  calls _ := none
  returned := []
  stale := []
  answers := []
  served := []

theorem generations_start_init : (generationMachine S scope).init (Generations.start (V := V)) :=
  ⟨rfl, rfl, fun _ ↦ rfl, fun _ ↦ rfl, fun _ ↦ rfl, rfl, rfl, rfl, rfl⟩

/-- One process lists the entries, another bumps the generation, and the first lists them again. -/
def listBumpList (answered : Bool) : List (GenerationAction Bool) :=
  [.get 0 1 true true, .finishGet 0, .readLocal 0, .load 0 false true, .storeLocal 0,
    .bump 0 2, .incr 0 .answered, .expire 0 .answered, .finishBump 0,
    .get 0 1 true answered, .finishGet 0, .readLocal 0]

/-- `generations_do_not_come_again` where it does not fail: the second list call loads the entries anew. -/
theorem generations_do_not_come_again_answered :
    ∃ u, (generationMachine (V := Bool) CacheSettings.default "settings-config").Reachable
        (Generations.CounterKept CacheSettings.default "settings-config") u ∧
      u.answers.map GenerationAnswer.generation = [0, 1] ∧ u.calls 0 = some (.loading 1 1 [0]) ∧
      (∀ a ∈ u.answers, a.generation ∉ a.stale) ∧ ∀ s ∈ u.served, s.payload.under ∉ s.stale := by
  have hrun := reachable_run generations_start_init
    (show ((generationMachine CacheSettings.default "settings-config").run
      (Generations.CounterKept CacheSettings.default "settings-config") Generations.start
      (listBumpList true)).isSome = true by decide +kernel)
  exact ⟨_, hrun, by decide +kernel, by decide +kernel,
    generations_do_not_come_again CacheSettings.default "settings-config" hrun⟩

/-- **A `GET` that fails after a bump brings back the generation from before it, and its entries.** -/
theorem generations_come_again :
    ∃ u, (generationMachine (V := Bool) CacheSettings.default "settings-config").Reachable anyStep u ∧
      (∃ a ∈ u.answers, a.generation ∈ a.stale) ∧ ∃ s ∈ u.served, s.payload.under ∈ s.stale := by
  refine ⟨_, reachable_run generations_start_init
    (show ((generationMachine CacheSettings.default "settings-config").run anyStep Generations.start
      (listBumpList false)).isSome = true by decide +kernel), ?_, ?_⟩
  · decide +kernel
  · decide +kernel

end GenericApp
