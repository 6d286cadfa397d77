import GenericApp.Foundation.Machine
import Mathlib.Tactic.Common

/-!
# One refresh for many requests

`refreshForRetry` keeps one promise in the module, for all requests that meet a 401 answer. Here are any number of
requests, which are answered, wait, go on and are aborted in any order, and a session that is left and entered
meanwhile. A step is what runs until the next `await`, so that everything else may come between a promise and those who
wait for it.

`refreshes_coordinated`: there is one refresh and one expiry in a generation of the session; no third request, and a
second one after a refresh that has succeeded; and nobody waits for ever, but for an upload that is aborted.
-/

namespace GenericApp.Frontend

open Machine

/-! ### The client -/

/-- `apiFetch`, `apiFetchStream` and `apiUpload` -/
inductive Caller
  | fetch | stream | upload
deriving DecidableEq

/-- What the promise of a request is settled with. -/
inductive Settlement
  | answered | failed | cancelled | sessionExpired
deriving DecidableEq

inductive RequestPhase
  | sent
  | waiting
  /-- It is told what the promise resolves to, and no longer hears of an abort. -/
  | resumed (refreshed : Bool)
  /-- `xhr.abort()` before `xhr.send()`: there is no event. -/
  | silent
  | settled (settlement : Settlement)
deriving DecidableEq

/-- A request of a caller. Its first attempt has `retry`, as long as it has not waited for a refresh. -/
structure ApiRequest where
  caller : Caller
  aborted : Bool
  phase : RequestPhase
  /-- The generations that it has been sent in. -/
  sentIn : List ℕ := []
  refresh : Option ℕ := none
deriving DecidableEq

/-- A call of `refreshAccessToken`, and what the promise resolves to. -/
structure Refresh where
  generation : ℕ
  result : Option Bool := none
deriving DecidableEq

/-- What happens to the session. -/
inductive SessionEvent
  | activated
  | loggedOut
  /-- `AUTH_SESSION_EXPIRED_EVENT`, of this refresh. -/
  | expired (refresh : ℕ)
deriving DecidableEq

structure ClientState where
  refreshPromise : Option ℕ := none
  refreshPromiseGeneration : Option ℕ := none
  authSessionGeneration : ℕ := 0
  authSessionActive : Bool := true
  refreshes : List Refresh := []
  requests : List ApiRequest := []
  log : List SessionEvent := []

inductive ClientAction
  | request (caller : Caller) (aborted : Bool)
  /-- A status, or none where the server is not reached. -/
  | answer (request : ℕ) (status : Option ℕ)
  /-- `refreshAccessToken` returns. -/
  | refreshed (refresh : ℕ) (ok : Bool)
  /-- `request.finally` -/
  | clear (refresh : ℕ)
  /-- The promise of `waitForRefresh` resolves. -/
  | tell (request : ℕ)
  | proceed (request : ℕ)
  | abort (request : ℕ)
  | beginAuthLogout
  | markAuthSessionActive

namespace ClientState

variable (s : ClientState)

/-- The session is another one. -/
def meet (event : SessionEvent) (active : Bool) : ClientState :=
  { s with
    authSessionActive := active, authSessionGeneration := s.authSessionGeneration + 1, log := s.log ++ [event] }

/-- `expireAuthSession` -/
def expireAuthSession (refresh generation : ℕ) : ClientState :=
  if !s.authSessionActive || generation ≠ s.authSessionGeneration then s else s.meet (.expired refresh) false

/-- `fetch` and `xhr.send`, of a signal that may have been aborted. -/
def send (r : ApiRequest) : ApiRequest :=
  if r.aborted then { r with phase := if r.caller = .upload then .silent else .settled .cancelled }
  else { r with phase := .sent, sentIn := r.sentIn ++ [s.authSessionGeneration] }

/-- The promise is another one. -/
def startRefresh : ClientState :=
  { s with
    refreshes := s.refreshes ++ [⟨s.authSessionGeneration, none⟩]
    refreshPromise := some s.refreshes.length
    refreshPromiseGeneration := some s.authSessionGeneration }

/-- The promise that `refreshForRetry` waits for. -/
def currentRefresh : ClientState × ℕ :=
  match s.refreshPromise with
  | some k =>
    if s.refreshPromiseGeneration = some s.authSessionGeneration then (s, k) else (s.startRefresh, s.refreshes.length)
  | none => (s.startRefresh, s.refreshes.length)

/-- A request has moved. -/
def put (c : ℕ) (r : ApiRequest) : ClientState := { s with requests := s.requests.set c r }

/-- `refreshForRetry`, of a signal that has not been aborted. -/
def refreshForRetry (c : ℕ) (r : ApiRequest) : ClientState :=
  if !s.authSessionActive then s.put c { r with phase := .settled .sessionExpired }
  else s.currentRefresh.1.put c { r with phase := .waiting, refresh := some s.currentRefresh.2 }

/-- An attempt ends. -/
def answer (c : ℕ) (r : ApiRequest) : Option ℕ → ClientState
  | none => s.put c { r with phase := .settled (if r.aborted then .cancelled else .failed) }
  | some status =>
    if status = 401 ∧ r.refresh = none ∧ r.aborted = false then s.refreshForRetry c r
    else s.put c { r with phase := .settled .answered }

/-- What `refreshAccessToken().then` runs. -/
def resolve (k : ℕ) (x : Refresh) (ok : Bool) : ClientState :=
  let s' := if ok then s else s.expireAuthSession k x.generation
  { s' with
    refreshes := s'.refreshes.set k
      { x with result := some (ok && s'.authSessionActive && x.generation = s'.authSessionGeneration) } }

/-- The signal is aborted: an upload that is sent hears of it, and so does one who waits. -/
def abort (c : ℕ) (r : ApiRequest) : ClientState :=
  let heard := r.phase = .waiting ∨ (r.phase = .sent ∧ r.caller = .upload)
  s.put c { r with aborted := true, phase := if heard then .settled .cancelled else r.phase }

def step : ClientAction → Option ClientState
  | .request caller aborted => some { s with requests := s.requests ++ [s.send ⟨caller, aborted, .sent, [], none⟩] }
  | .answer c status => do
    let r ← s.requests[c]?
    if r.phase = .sent then some (s.answer c r status) else none
  | .refreshed k ok => do
    let x ← s.refreshes[k]?
    if x.result = none then some (s.resolve k x ok) else none
  | .clear k => do
    let x ← s.refreshes[k]?
    if x.result = none then none
    else if s.refreshPromise = some k then some { s with refreshPromise := none, refreshPromiseGeneration := none }
    else some s
  | .tell c => do
    let r ← s.requests[c]?
    let x ← r.refresh.bind fun k ↦ s.refreshes[k]?
    match r.phase, x.result with
    | .waiting, some refreshed => some (s.put c { r with phase := .resumed refreshed })
    | _, _ => none
  | .proceed c => do
    let r ← s.requests[c]?
    match r.phase with
    | .resumed true => some (s.put c (s.send r))
    | .resumed false => some (s.put c { r with phase := .settled .sessionExpired })
    | _ => none
  | .abort c => (s.requests[c]?).map (s.abort c)
  | .beginAuthLogout => some (s.meet .loggedOut false)
  | .markAuthSessionActive => some (s.meet .activated true)

end ClientState

/-- The client of a page that has been loaded. -/
def apiClient : Machine ClientState ClientAction := ⟨fun s ↦ s = {}, ClientState.step⟩

/-! ### Laws -/

/-- The session is active after so many events: at first, or since the last of them. -/
def ActiveAt (log : List SessionEvent) (generation : ℕ) : Prop :=
  ∀ last, generation = last + 1 → log[last]? = some .activated

/-- **One refresh**: of those that are not answered, no two are of one generation, and that of the present one is the
promise. Each was started in an active session, and the session has expired only where it was active and by a refresh of
its own that has failed. -/
structure SessionLaws (s : ClientState) : Prop where
  generation : s.authSessionGeneration = s.log.length
  active : s.authSessionActive = true → ActiveAt s.log s.authSessionGeneration
  single : ∀ (j k : ℕ) (x y : Refresh), s.refreshes[j]? = some x → s.refreshes[k]? = some y → x.result = none →
    y.result = none → x.generation = y.generation → j = k
  started : ∀ (k : ℕ) (x : Refresh), s.refreshes[k]? = some x → ActiveAt s.log x.generation
  expired : ∀ i k, s.log[i]? = some (.expired k) → ActiveAt s.log i ∧ s.refreshes[k]? = some ⟨i, some false⟩
  promise : ∀ k, s.refreshPromise = some k →
    ∃ x, s.refreshes[k]? = some x ∧ s.refreshPromiseGeneration = some x.generation
  current : ∀ (k : ℕ) (x : Refresh), s.refreshes[k]? = some x → x.generation ≤ s.authSessionGeneration ∧
    (x.result = none → x.generation = s.authSessionGeneration → s.refreshPromise = some k)

/-- It waits for a refresh, or has just been told of it. -/
def ApiRequest.AtRefresh (r : ApiRequest) : Prop := r.phase = .waiting ∨ ∃ refreshed, r.phase = .resumed refreshed

/-- **Two attempts**: the second one is made after the refresh that the first has led to, and only if that one has
succeeded while the session was that of the refresh. -/
structure RequestLaws (s : ClientState) (r : ApiRequest) : Prop where
  silent : r.phase = .silent → r.caller = .upload ∧ r.aborted = true
  cancelled : r.phase = .settled .cancelled → r.aborted = true
  before : ∀ generation ∈ r.sentIn, generation ≤ s.authSessionGeneration
  first : r.refresh = none →
    ¬r.AtRefresh ∧ (r.sentIn = [] ∧ r.phase ≠ .sent ∨ ∃ generation, r.sentIn = [generation])
  second : ∀ k, r.refresh = some k → ∃ x first, s.refreshes[k]? = some x ∧ first ≤ x.generation ∧
    (r.sentIn = [first] ∧ (∀ refreshed, r.phase = .resumed refreshed → x.result = some refreshed) ∨
      ∃ second, r.sentIn = [first, second] ∧ x.generation ≤ second ∧ x.result = some true ∧ ¬r.AtRefresh)

section Steps

variable {s t : ClientState} {a : ClientAction} {c k generation : ℕ} {r r' : ApiRequest} {p : RequestPhase}
  {x : Refresh} {settlement : Settlement} {refreshed : Bool} {log : List SessionEvent}

theorem ActiveAt.append (h : ActiveAt log generation) (event : SessionEvent) :
    ActiveAt (log ++ [event]) generation := by
  intro last hlast
  have hget := h last hlast
  rw [List.getElem?_append_left (List.getElem?_eq_some_iff.1 hget).1, hget]

theorem SessionLaws.meet (h : SessionLaws s) {event : SessionEvent} {active : Bool}
    (hactive : active = true → event = .activated) (hexpired : ∀ k, event = .expired k →
      s.authSessionActive = true ∧ s.refreshes[k]? = some ⟨s.authSessionGeneration, some false⟩) :
    SessionLaws (s.meet event active) where
  generation := by simp [ClientState.meet, h.generation]
  active hact last hlast := by
    obtain rfl : s.authSessionGeneration = last := Nat.succ.inj hlast
    simp [ClientState.meet, h.generation, hactive hact]
  single := h.single
  started k x hx := (h.started k x hx).append event
  expired i k hi := by
    rcases slot_of_append hi with ⟨rfl, heq⟩ | ⟨-, hi⟩
    · obtain ⟨hact, hx⟩ := hexpired k heq.symm
      rw [h.generation] at hx
      exact ⟨(h.generation ▸ h.active hact).append event, hx⟩
    · exact (h.expired i k hi).imp_left fun hact ↦ hact.append event
  promise := h.promise
  current k x hx :=
    ⟨Nat.le_succ_of_le (h.current k x hx).1, fun _ heq ↦ absurd (heq ▸ (h.current k x hx).1) (Nat.not_succ_le_self _)⟩

/-- Where there is no promise of the generation, all its refreshes have been answered. -/
theorem SessionLaws.answered (h : SessionLaws s)
    (hnone : ∀ k, s.refreshPromise = some k → s.refreshPromiseGeneration ≠ some s.authSessionGeneration)
    (hx : s.refreshes[k]? = some x) (hopen : x.result = none) : x.generation ≠ s.authSessionGeneration := by
  intro heq
  have hpromise := (h.current k x hx).2 hopen heq
  obtain ⟨y, hy, hgeneration⟩ := h.promise k hpromise
  obtain rfl : x = y := Option.some.inj (hx.symm.trans hy)
  exact hnone k hpromise (heq ▸ hgeneration)

theorem SessionLaws.startRefresh (h : SessionLaws s) (hactive : s.authSessionActive = true)
    (hnone : ∀ k, s.refreshPromise = some k → s.refreshPromiseGeneration ≠ some s.authSessionGeneration) :
    SessionLaws s.startRefresh where
  generation := h.generation
  active := h.active
  single j k x y hx hy hopen hopen' heq := by
    rcases slot_of_append hx with ⟨rfl, rfl⟩ | ⟨-, hx⟩ <;> rcases slot_of_append hy with ⟨rfl, rfl⟩ | ⟨-, hy⟩
    · rfl
    · exact absurd heq.symm (h.answered hnone hy hopen')
    · exact absurd heq (h.answered hnone hx hopen)
    · exact h.single j k x y hx hy hopen hopen' heq
  started k x hx := by
    rcases slot_of_append hx with ⟨-, rfl⟩ | ⟨-, hx⟩
    · exact h.active hactive
    · exact h.started k x hx
  expired i k hi := (h.expired i k hi).imp_right fun hx ↦
    (List.getElem?_append_left (List.getElem?_eq_some_iff.1 hx).1).trans hx
  promise k hk := by
    obtain rfl := Option.some.inj hk
    exact ⟨_, List.getElem?_concat_length, rfl⟩
  current k x hx := by
    rcases slot_of_append hx with ⟨rfl, rfl⟩ | ⟨-, hx⟩
    · exact ⟨Nat.le_refl _, fun _ _ ↦ rfl⟩
    · exact ⟨(h.current k x hx).1, fun hopen heq ↦ absurd heq (h.answered hnone hx hopen)⟩

theorem SessionLaws.setResult (h : SessionLaws s) (hx : s.refreshes[k]? = some x) (hopen : x.result = none)
    (refreshed : Bool) : SessionLaws { s with refreshes := s.refreshes.set k { x with result := some refreshed } } where
  generation := h.generation
  active := h.active
  single i j y z hy hz hopeny hopenz := by
    rcases slot_of_set hy with ⟨-, rfl⟩ | ⟨-, hy⟩
    · exact nomatch hopeny
    rcases slot_of_set hz with ⟨-, rfl⟩ | ⟨-, hz⟩
    · exact nomatch hopenz
    exact h.single i j y z hy hz hopeny hopenz
  started j y hy := by
    rcases slot_of_set hy with ⟨-, rfl⟩ | ⟨-, hy⟩
    · exact h.started k x hx
    · exact h.started j y hy
  expired i j hi := by
    obtain ⟨hact, hj⟩ := h.expired i j hi
    refine ⟨hact, (List.getElem?_set_ne fun heq ↦ ?_).trans hj⟩
    obtain rfl : x = ⟨i, some false⟩ := Option.some.inj (hx.symm.trans (heq ▸ hj))
    exact nomatch hopen
  promise j hj := by
    obtain ⟨y, hy, hgeneration⟩ := h.promise j hj
    rcases eq_or_ne k j with rfl | hne
    · obtain rfl : x = y := Option.some.inj (hx.symm.trans hy)
      exact ⟨_, List.getElem?_set_self (List.getElem?_eq_some_iff.1 hx).1, hgeneration⟩
    · exact ⟨y, (List.getElem?_set_ne hne).trans hy, hgeneration⟩
  current j y hy := by
    rcases slot_of_set hy with ⟨rfl, rfl⟩ | ⟨-, hy⟩
    · exact ⟨(h.current j x hx).1, fun hopen ↦ nomatch hopen⟩
    · exact h.current j y hy

theorem SessionLaws.clear (h : SessionLaws s) (hx : s.refreshes[k]? = some x) (hanswered : x.result ≠ none)
    (hpromise : s.refreshPromise = some k) :
    SessionLaws { s with refreshPromise := none, refreshPromiseGeneration := none } where
  generation := h.generation
  active := h.active
  single := h.single
  started := h.started
  expired := h.expired
  promise k hk := nomatch hk
  current j y hy := by
    refine ⟨(h.current j y hy).1, fun hopen heq ↦ ?_⟩
    obtain rfl : k = j := Option.some.inj (hpromise.symm.trans ((h.current j y hy).2 hopen heq))
    obtain rfl : x = y := Option.some.inj (hx.symm.trans hy)
    exact absurd hopen hanswered

theorem SessionLaws.resolve (h : SessionLaws s) (hx : s.refreshes[k]? = some x) (hopen : x.result = none) (ok : Bool) :
    SessionLaws (s.resolve k x ok) := by
  rw [ClientState.resolve]
  cases ok with
  | true => exact h.setResult hx hopen _
  | false =>
    rw [if_neg Bool.false_ne_true, ClientState.expireAuthSession]
    split
    · exact h.setResult hx hopen _
    · next hlive =>
      simp only [Bool.or_eq_true, Bool.not_eq_true', decide_eq_true_eq, not_or, Bool.not_eq_false, not_not] at hlive
      refine (h.setResult hx hopen false).meet (fun h ↦ nomatch h) fun j hj ↦ ⟨hlive.1, ?_⟩
      obtain rfl := SessionEvent.expired.inj hj
      rw [List.getElem?_set_self (List.getElem?_eq_some_iff.1 hx).1, hlive.2]

/-- The session and the refreshes have gone on. -/
def Extends (s t : ClientState) : Prop :=
  s.authSessionGeneration ≤ t.authSessionGeneration ∧ ∀ (k : ℕ) (x : Refresh), s.refreshes[k]? = some x →
    ∃ y, t.refreshes[k]? = some y ∧ y.generation = x.generation ∧ ∀ v, x.result = some v → y.result = some v

theorem RequestLaws.mono (h : RequestLaws s r) (hst : Extends s t) : RequestLaws t r where
  silent := h.silent
  cancelled := h.cancelled
  before generation hgeneration := Nat.le_trans (h.before generation hgeneration) hst.1
  first := h.first
  second k hk := by
    obtain ⟨x, first, hx, hfirst, hsent⟩ := h.second k hk
    obtain ⟨y, hy, hgeneration, hresult⟩ := hst.2 k x hx
    refine ⟨y, first, hy, hgeneration ▸ hfirst, hsent.imp (fun h ↦ ⟨h.1, fun v hv ↦ hresult v (h.2 v hv)⟩) ?_⟩
    rintro ⟨second, hsecond, hle, hok, hnot⟩
    exact ⟨second, hsecond, hgeneration ▸ hle, hresult true hok, hnot⟩

theorem Extends.refl (s : ClientState) : Extends s s := ⟨Nat.le_refl _, fun _ x hx ↦ ⟨x, hx, rfl, fun _ ↦ id⟩⟩

theorem extends_startRefresh : Extends s s.startRefresh :=
  ⟨Nat.le_refl _, fun _ x hx ↦
    ⟨x, (List.getElem?_append_left (List.getElem?_eq_some_iff.1 hx).1).trans hx, rfl, fun _ ↦ id⟩⟩

theorem expireAuthSession_same (s : ClientState) (k generation : ℕ) :
    (s.expireAuthSession k generation).requests = s.requests ∧
      (s.expireAuthSession k generation).refreshes = s.refreshes := by
  rw [ClientState.expireAuthSession]
  split <;> exact ⟨rfl, rfl⟩

theorem extends_resolve (hx : s.refreshes[k]? = some x) (hopen : x.result = none) (ok : Bool) :
    Extends s (s.resolve k x ok) := by
  have hset (u : ClientState) (hu : u.refreshes = s.refreshes) (hle : s.authSessionGeneration ≤ u.authSessionGeneration)
      (v : Bool) : Extends s { u with refreshes := u.refreshes.set k { x with result := some v } } := by
    refine ⟨hle, fun j y hy ↦ ?_⟩
    show ∃ z, (u.refreshes.set k { x with result := some v })[j]? = some z ∧ _
    rw [hu]
    rcases eq_or_ne k j with rfl | hne
    · obtain rfl : x = y := Option.some.inj (hx.symm.trans hy)
      refine ⟨_, List.getElem?_set_self (List.getElem?_eq_some_iff.1 hx).1, rfl, fun w hw ↦ ?_⟩
      exact nomatch hopen.symm.trans hw
    · exact ⟨y, (List.getElem?_set_ne hne).trans hy, rfl, fun _ ↦ id⟩
  rw [ClientState.resolve]
  refine hset _ ?_ ?_ _
  · cases ok
    · exact (expireAuthSession_same ..).2
    · rfl
  · cases ok
    · rw [if_neg Bool.false_ne_true, ClientState.expireAuthSession]
      split
      · exact Nat.le_refl _
      · exact Nat.le_succ _
    · exact Nat.le_refl _

/-- The laws of the session, and of its requests. -/
def Coordinated (s : ClientState) : Prop :=
  SessionLaws s ∧ ∀ (c : ℕ) (r : ApiRequest), s.requests[c]? = some r → RequestLaws s r

/-- The session goes on, and one request at most is another one. -/
theorem Coordinated.extend (h : Coordinated s) (ht : SessionLaws t) (hst : Extends s t)
    (hrequests : ∀ (c : ℕ) (r : ApiRequest), t.requests[c]? = some r → s.requests[c]? = some r ∨ RequestLaws t r) :
    Coordinated t :=
  ⟨ht, fun c r hr ↦ (hrequests c r hr).elim (fun hold ↦ (h.2 c r hold).mono hst) id⟩

theorem Coordinated.put (h : Coordinated s) (ht : SessionLaws t) (hst : Extends s t) (hsame : t.requests = s.requests)
    (hr : RequestLaws t r) : Coordinated (t.put c r) := by
  refine h.extend ⟨ht.generation, ht.active, ht.single, ht.started, ht.expired, ht.promise, ht.current⟩ hst
    fun d r' hr' ↦ ?_
  rcases slot_of_set hr' with ⟨-, rfl⟩ | ⟨-, hr'⟩
  · exact .inr (hr.mono (Extends.refl t))
  · exact .inl (hsame ▸ hr')

/-- Nothing more is done for the request. -/
theorem RequestLaws.leave (h : RequestLaws s r) (hp : p = .silent ∨ ∃ settlement, p = .settled settlement)
    (hsilent : p = .silent → r.caller = .upload ∧ r.aborted = true)
    (hcancelled : p = .settled .cancelled → r.aborted = true) : RequestLaws s { r with phase := p } := by
  have hat : ¬ApiRequest.AtRefresh { r with phase := p } := by
    rcases hp with rfl | ⟨_, rfl⟩ <;> simp [ApiRequest.AtRefresh]
  have hsent : p ≠ .sent := by
    rcases hp with rfl | ⟨_, rfl⟩ <;> simp
  refine ⟨hsilent, hcancelled, h.before, fun hnone ↦ ⟨hat, (h.first hnone).2.imp_left fun h ↦ ⟨h.1, hsent⟩⟩,
    fun k hk ↦ ?_⟩
  obtain ⟨x, first, hx, hfirst, hattempts⟩ := h.second k hk
  refine ⟨x, first, hx, hfirst, hattempts.imp (fun h ↦ ⟨h.1, fun v hv ↦ absurd (.inr ⟨v, hv⟩) hat⟩) ?_⟩
  exact fun ⟨second, hsecond, hle, hok, _⟩ ↦ ⟨second, hsecond, hle, hok, hat⟩

theorem RequestLaws.settle (h : RequestLaws s r) (hcancelled : settlement = .cancelled → r.aborted = true) :
    RequestLaws s { r with phase := .settled settlement } :=
  h.leave (.inr ⟨_, rfl⟩) (fun hp ↦ nomatch hp) fun hp ↦ hcancelled (RequestPhase.settled.inj hp)

theorem coordinated_refreshForRetry (h : Coordinated s) (hr : RequestLaws s r) (hphase : r.phase = .sent)
    (hnone : r.refresh = none) : Coordinated (s.refreshForRetry c r) := by
  rw [ClientState.refreshForRetry]
  split
  · exact h.put h.1 (.refl s) rfl (hr.settle (by simp))
  next hactive =>
  rw [Bool.not_eq_true', Bool.not_eq_false] at hactive
  obtain ⟨first, hfirst⟩ := (hr.first hnone).2.resolve_left fun h ↦ h.2 hphase
  have hle : first ≤ s.authSessionGeneration := hr.before first (by simp [hfirst])
  have hjoin {u : ClientState} {j : ℕ} {y : Refresh} (hu : Extends s u) (hy : u.refreshes[j]? = some y)
      (hgeneration : y.generation = s.authSessionGeneration) :
      RequestLaws u { r with phase := .waiting, refresh := some j } := by
    refine ⟨by simp, by simp, fun g hg ↦ Nat.le_trans (hr.before g hg) hu.1, by simp, fun j' hj ↦ ?_⟩
    obtain rfl : j = j' := Option.some.inj hj
    exact ⟨y, first, hy, hgeneration ▸ hle, .inl ⟨hfirst, by simp⟩⟩
  have hstart (hstale : ∀ k, s.refreshPromise = some k → s.refreshPromiseGeneration ≠ some s.authSessionGeneration) :
      Coordinated (s.startRefresh.put c { r with phase := .waiting, refresh := some s.refreshes.length }) :=
    h.put (h.1.startRefresh hactive hstale) extends_startRefresh rfl
      (hjoin extends_startRefresh List.getElem?_concat_length rfl)
  rw [ClientState.currentRefresh]
  split
  · next j hj =>
    split
    · next hfresh =>
      obtain ⟨y, hy, hgeneration⟩ := h.1.promise j hj
      exact h.put h.1 (.refl s) rfl (hjoin (.refl s) hy (Option.some.inj (hgeneration.symm.trans hfresh)))
    · next hstale => exact hstart fun _ _ ↦ hstale
  · next hj => exact hstart fun k hk ↦ nomatch hj.symm.trans hk

/-- A first attempt, or one after a refresh. -/
theorem RequestLaws.send (h : RequestLaws s r) (hs : SessionLaws s) (hfresh : r.refresh = none → r.sentIn = [])
    (hagain : ∀ k, r.refresh = some k → r.phase = .resumed true) : RequestLaws s (s.send r) := by
  rw [ClientState.send]
  split
  · next haborted =>
    refine h.leave ?_ (fun hp ↦ ⟨?_, haborted⟩) fun _ ↦ haborted
    · split
      · exact .inl rfl
      · exact .inr ⟨_, rfl⟩
    · by_contra hcaller
      simp [hcaller] at hp
  · refine ⟨by simp, by simp, fun g hg ↦ ?_,
      fun hnone ↦ ⟨by simp [ApiRequest.AtRefresh], .inr ⟨s.authSessionGeneration, ?_⟩⟩, fun k hk ↦ ?_⟩
    · exact (List.mem_append.1 hg).elim (h.before g) fun hg ↦ Nat.le_of_eq (List.mem_singleton.1 hg)
    · rw [hfresh hnone, List.nil_append]
    · obtain ⟨x, first, hx, hfirst, ⟨hsent, hresult⟩ | ⟨_, -, -, -, hnot⟩⟩ := h.second k hk
      · exact ⟨x, first, hx, hfirst, .inr ⟨_, by simp [hsent], (hs.current k x hx).1, hresult true (hagain k hk),
          by simp [ApiRequest.AtRefresh]⟩⟩
      · exact absurd (.inr ⟨true, hagain k hk⟩) hnot

theorem RequestLaws.abort (h : RequestLaws s r) (hp : p = .settled .cancelled ∨ p = r.phase) :
    RequestLaws s { r with aborted := true, phase := p } := by
  have haborted : RequestLaws s { r with aborted := true } :=
    ⟨fun hp ↦ ⟨(h.silent hp).1, rfl⟩, fun _ ↦ rfl, h.before, h.first, h.second⟩
  rcases hp with rfl | rfl
  · exact haborted.settle fun _ ↦ rfl
  · exact haborted

theorem coordinated_step (h : Coordinated s) (hstep : s.step a = some t) : Coordinated t := by
  cases a with
  | request caller aborted =>
    obtain rfl := Option.some.inj hstep
    refine h.extend ⟨h.1.generation, h.1.active, h.1.single, h.1.started, h.1.expired, h.1.promise, h.1.current⟩
      (.refl s) fun c r hr ↦ (slot_of_append hr).symm.imp (fun h ↦ h.2) ?_
    rintro ⟨-, rfl⟩
    have hidle : RequestLaws s ⟨caller, aborted, .settled .failed, [], none⟩ :=
      ⟨by simp, by simp, by simp, fun _ ↦ ⟨by simp [ApiRequest.AtRefresh], .inl ⟨rfl, by simp⟩⟩, by simp⟩
    exact (hidle.send h.1 (fun _ ↦ rfl) fun k hk ↦ nomatch hk).mono (Extends.refl s)
  | answer c status =>
    obtain ⟨r, hr, hstep⟩ := Option.bind_eq_some_iff.1 hstep
    obtain ⟨hphase, hstep⟩ := Option.ite_none_right_eq_some.1 hstep
    obtain rfl := Option.some.inj hstep
    cases status with
    | none => exact h.put h.1 (.refl s) rfl ((h.2 c r hr).settle fun heq ↦ by by_contra hnot; simp [hnot] at heq)
    | some status =>
      rw [ClientState.answer]
      split
      · next hretry => exact coordinated_refreshForRetry h (h.2 c r hr) hphase hretry.2.1
      · exact h.put h.1 (.refl s) rfl ((h.2 c r hr).settle (by simp))
  | refreshed k ok =>
    obtain ⟨x, hx, hstep⟩ := Option.bind_eq_some_iff.1 hstep
    obtain ⟨hopen, hstep⟩ := Option.ite_none_right_eq_some.1 hstep
    obtain rfl := Option.some.inj hstep
    refine h.extend (h.1.resolve hx hopen ok) (extends_resolve hx hopen ok) fun c r hr ↦ .inl ?_
    cases ok with
    | true => exact hr
    | false => exact (congrArg (·[c]?) (expireAuthSession_same s k x.generation).1).symm.trans hr
  | clear k =>
    obtain ⟨x, hx, hstep⟩ := Option.bind_eq_some_iff.1 hstep
    split at hstep
    · exact nomatch hstep
    next hanswered =>
    split at hstep
    · next hpromise =>
      obtain rfl := Option.some.inj hstep
      exact h.extend (h.1.clear hx hanswered hpromise) (.refl s) fun _ _ ↦ .inl
    · exact Option.some.inj hstep ▸ h
  | tell c =>
    obtain ⟨r, hr, hstep⟩ := Option.bind_eq_some_iff.1 hstep
    obtain ⟨x, hx, hstep⟩ := Option.bind_eq_some_iff.1 hstep
    obtain ⟨k, hk, hx⟩ := Option.bind_eq_some_iff.1 hx
    split at hstep
    · next refreshed hphase hresult =>
      obtain rfl := Option.some.inj hstep
      have hlaws := h.2 c r hr
      refine h.put h.1 (.refl s) rfl
        ⟨by simp, by simp, hlaws.before, fun hnone ↦ (nomatch hk.symm.trans hnone), fun j hj ↦ ?_⟩
      obtain ⟨y, first, hy, hfirst, hsent⟩ := hlaws.second j hj
      obtain rfl : k = j := Option.some.inj (hk.symm.trans hj)
      obtain rfl : x = y := Option.some.inj (hx.symm.trans hy)
      refine ⟨x, first, hx, hfirst, hsent.imp (fun h ↦ ⟨h.1, fun v hv ↦ ?_⟩) fun ⟨_, _, _, _, hnot⟩ ↦ ?_⟩
      · exact RequestPhase.resumed.inj hv ▸ hresult
      · exact absurd (.inl hphase) hnot
    · exact nomatch hstep
  | proceed c =>
    obtain ⟨r, hr, hstep⟩ := Option.bind_eq_some_iff.1 hstep
    split at hstep
    · next hphase =>
      obtain rfl := Option.some.inj hstep
      have hlaws := h.2 c r hr
      exact h.put h.1 (.refl s) rfl (hlaws.send h.1 (fun hnone ↦ absurd (.inr ⟨_, hphase⟩) (hlaws.first hnone).1)
        fun _ _ ↦ hphase)
    · obtain rfl := Option.some.inj hstep
      exact h.put h.1 (.refl s) rfl ((h.2 c r hr).settle (by simp))
    · exact nomatch hstep
  | abort c =>
    obtain ⟨r, hr, rfl⟩ := Option.map_eq_some_iff.1 hstep
    exact h.put h.1 (.refl s) rfl ((h.2 c r hr).abort (by split <;> simp))
  | beginAuthLogout =>
    obtain rfl := Option.some.inj hstep
    exact h.extend (h.1.meet (fun h ↦ nomatch h) fun _ h ↦ nomatch h)
      ⟨Nat.le_succ _, fun _ x hx ↦ ⟨x, hx, rfl, fun _ ↦ id⟩⟩ fun _ _ ↦ .inl
  | markAuthSessionActive =>
    obtain rfl := Option.some.inj hstep
    exact h.extend (h.1.meet (fun _ ↦ rfl) fun _ h ↦ nomatch h)
      ⟨Nat.le_succ _, fun _ x hx ↦ ⟨x, hx, rfl, fun _ ↦ id⟩⟩ fun _ _ ↦ .inl

theorem coordinated_of_reachable (h : apiClient.Reachable anyStep s) : Coordinated s := by
  refine h.invariant (I := Coordinated) ?_ fun _ _ _ h _ hstep ↦ coordinated_step h hstep
  rintro s rfl
  exact ⟨⟨rfl, fun _ _ h ↦ (nomatch h), nofun, nofun, nofun, nofun, nofun⟩, nofun⟩

/-! ### How requests end -/

/-- The server answers, and the client goes on. -/
def ClientAction.Served : ClientAction → Prop
  | .answer .. | .refreshed .. | .tell _ | .proceed _ => True
  | _ => False

/-- The request is settled if it is only served. -/
def CanSettle (s : ClientState) (c : ℕ) : Prop :=
  ∃ t r settlement, apiClient.Later (fun _ a ↦ a.Served) s t ∧ t.requests[c]? = some r ∧ r.phase = .settled settlement

theorem CanSettle.step (hstep : s.step a = some t) (ha : a.Served) (h : CanSettle t c) : CanSettle s c := by
  obtain ⟨u, r, settlement, hlater, hsettled⟩ := h
  exact ⟨u, r, settlement, (Later.single (M := apiClient) (C := fun _ a ↦ a.Served) ha hstep).trans hlater, hsettled⟩

theorem put_self (hr : s.requests[c]? = some r) : (s.put c r').requests[c]? = some r' :=
  List.getElem?_set_self (List.getElem?_eq_some_iff.1 hr).1

theorem canSettle_put (hr : s.requests[c]? = some r) (hphase : r'.phase = .settled settlement) :
    CanSettle (s.put c r') c := ⟨_, r', settlement, .refl _, put_self hr, hphase⟩

theorem canSettle_sent (hr : s.requests[c]? = some r) (hphase : r.phase = .sent) : CanSettle s c :=
  CanSettle.step (a := .answer c none) (by simp [ClientState.step, hr, hphase]; rfl) trivial (canSettle_put hr rfl)

theorem canSettle_resumed (hr : s.requests[c]? = some r) (hphase : r.phase = .resumed refreshed)
    (hupload : r.caller = .upload → r.aborted = false) : CanSettle s c := by
  cases refreshed with
  | false =>
    exact CanSettle.step (a := .proceed c) (by simp [ClientState.step, hr, hphase]; rfl) trivial (canSettle_put hr rfl)
  | true =>
    refine CanSettle.step (a := .proceed c) (by simp [ClientState.step, hr, hphase]; rfl) trivial ?_
    by_cases haborted : r.aborted = true
    · have hcaller : r.caller ≠ .upload := fun h ↦ Bool.noConfusion (haborted.symm.trans (hupload h))
      exact canSettle_put hr (show _ = RequestPhase.settled .cancelled by simp [ClientState.send, haborted, hcaller])
    · exact canSettle_sent (put_self hr) (by simp [ClientState.send, haborted])

theorem canSettle_told (hr : s.requests[c]? = some r) (hphase : r.phase = .waiting) (hk : r.refresh = some k)
    (hx : s.refreshes[k]? = some x) (hresult : x.result = some refreshed)
    (hupload : r.caller = .upload → r.aborted = false) : CanSettle s c :=
  CanSettle.step (a := .tell c) (t := s.put c { r with phase := .resumed refreshed })
    (by simp [ClientState.step, hr, hphase, hk, hx, hresult]) trivial (canSettle_resumed (put_self hr) rfl hupload)

theorem canSettle (h : RequestLaws s r) (hr : s.requests[c]? = some r)
    (hupload : r.caller = .upload → r.aborted = false) : CanSettle s c := by
  rcases hphase : r.phase with - | - | refreshed | - | settlement
  · exact canSettle_sent hr hphase
  · obtain ⟨k, hk⟩ := Option.ne_none_iff_exists'.1 fun hnone ↦ (h.first hnone).1 (.inl hphase)
    obtain ⟨x, -, hx, -⟩ := h.second k hk
    rcases hresult : x.result with - | refreshed
    · obtain ⟨hrequests, hrefreshes⟩ := expireAuthSession_same s k x.generation
      have hfailed : (s.resolve k x false).refreshes[k]? = some { x with result := some false } := by
        show ((s.expireAuthSession k x.generation).refreshes.set k { x with result := some false })[k]? = _
        rw [hrefreshes, List.getElem?_set_self (List.getElem?_eq_some_iff.1 hx).1]
      have hr' : (s.resolve k x false).requests[c]? = some r := (congrArg (·[c]?) hrequests).trans hr
      exact CanSettle.step (a := .refreshed k false) (by simp [ClientState.step, hx, hresult]) trivial
        (canSettle_told hr' hphase hk hfailed rfl hupload)
    · exact canSettle_told hr hphase hk hx hresult hupload
  · exact canSettle_resumed hr hphase hupload
  · exact absurd (h.silent hphase).2 (by simp [hupload (h.silent hphase).1])
  · exact ⟨s, r, settlement, .refl s, hr, hphase⟩

/-- **The refreshes are coordinated** in every run: the laws hold, and no request is left waiting. It can be settled by
what is answered and what goes on then, but for an upload that has been aborted. -/
theorem refreshes_coordinated (h : apiClient.Reachable anyStep s) :
    SessionLaws s ∧ ∀ (c : ℕ) (r : ApiRequest), s.requests[c]? = some r →
      RequestLaws s r ∧ ((r.caller = .upload → r.aborted = false) → CanSettle s c) := by
  obtain ⟨hsession, hrequests⟩ := coordinated_of_reachable h
  exact ⟨hsession, fun c r hr ↦ ⟨hrequests c r hr, canSettle (hrequests c r hr) hr⟩⟩

end Steps

/-- Two requests share a refresh, and the upload is aborted when it has been told. -/
def sharedRefresh : List ClientAction :=
  [.request .fetch false, .request .upload false, .answer 0 (some 401), .answer 1 (some 401), .refreshed 0 true,
    .tell 0, .tell 1, .clear 0, .abort 1, .proceed 0, .proceed 1]

theorem refreshes_coordinated_shared :
    ∃ s : ClientState, s.refreshes = [⟨0, some true⟩] ∧ s.requests.map ApiRequest.phase = [.sent, .silent] ∧
      SessionLaws s ∧ ∀ (c : ℕ) (r : ApiRequest), s.requests[c]? = some r → RequestLaws s r := by
  have hrun : (apiClient.run anyStep {} sharedRefresh).map (fun s ↦ (s.refreshes, s.requests.map ApiRequest.phase)) =
      some ([⟨0, some true⟩], [.sent, .silent]) := by
    decide
  obtain ⟨s, hs, heq⟩ := Option.map_eq_some_iff.1 hrun
  obtain ⟨hsession, hrequests⟩ := refreshes_coordinated ⟨_, rfl, later_of_run hs⟩
  exact ⟨s, congrArg Prod.fst heq, congrArg Prod.snd heq, hsession, fun c r hr ↦ (hrequests c r hr).1⟩

end GenericApp.Frontend
