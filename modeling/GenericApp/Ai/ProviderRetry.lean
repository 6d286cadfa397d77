import Mathlib.Tactic.Linarith
import GenericApp.Foundation.Retrying

/-!
# Calls to a provider that are tried again

`post_with_retry` under a deadline. Each attempt reads the clock, waits for a slot, posts, and either ends the call or
sleeps and goes on. So the call ends after as many attempts as it may make (`postWithRetry_run`), and no sleep reaches
the deadline.

Two things are not as they should be. The time that is left is measured before the slot is there, so that a post may
start when the deadline has passed, or be given more time than is left. And an attempt that ends without a response
forgets the responses of the attempts before it. `boundedRetries_iff` says when neither happens.
-/

namespace GenericApp.ProviderRetry

open Py

/-! ### The call -/

structure ProviderRetryMetadata where
  attempts : ℕ
  retries : ℕ
  lastStatusCode : Option ℕ := none
  deadlineExceeded : Bool := false

/-- The limits of `httpx.Timeout` for one request. -/
structure HttpxTimeout where
  connect : ℚ
  read : ℚ
  write : ℚ
  pool : ℚ

/-- `provider_timeout` -/
def providerTimeout (remainingSeconds : ℚ) : HttpxTimeout :=
  let total := max (1 / 1000) remainingSeconds
  ⟨min 10 total, total, total, min 5 total⟩

/-- What comes of a post: a response with its status and its `Retry-After`, `httpx.TimeoutException`, or another
`httpx.TransportError`. -/
inductive ProviderOutcome
  | response (statusCode : ℕ) (retryAfter : Option String)
  | timeout
  | transportError

/-- What an attempt meets: the reading of the clock at its start, the moment at which the slot is there and the post
starts, what comes of it, and the reading of the clock after it. -/
structure ProviderExchange where
  reading : ℚ
  slot : ℚ
  outcome : ProviderOutcome
  ended : ℚ

structure ProviderPost where
  start : ℚ
  timeout : HttpxTimeout

/-- What a call has done: its posts, its sleeps with the reading of the clock before each, and the statuses that it has
received. -/
structure ProviderCalls where
  posts : List ProviderPost := []
  sleeps : List (ℚ × ℚ) := []
  received : List ℕ := []

/-- How a call ends: the response, `ProviderDeadlineExceeded` or `ProviderTransportError`. -/
inductive ProviderResult
  | returned (statusCode : ℕ) (metadata : ProviderRetryMetadata)
  | deadlineExceeded (message : String) (metadata : ProviderRetryMetadata)
  | transportFailed (message : String) (metadata : ProviderRetryMetadata)

def ProviderResult.metadata : ProviderResult → ProviderRetryMetadata
  | .returned _ metadata | .deadlineExceeded _ metadata | .transportFailed _ metadata => metadata

/-- `_RETRYABLE_STATUS_CODES` -/
def isRetryableStatus (statusCode : ℕ) : Bool := [429, 502, 503, 504].contains statusCode

/-- The most retries that the settings allow. -/
def maxRetriesOf (aiProviderMaxRetries : ℤ) : ℕ := (min 3 (max 0 aiProviderMaxRetries)).toNat

section Call

variable (idempotent : Bool) (maxRetries : ℕ) (deadline : ℚ) (retryDelay : ℕ → Option String → ℚ)
  (met : ℕ → ProviderExchange)

/-- Sleeps before the next attempt, or raises where that would reach the deadline. -/
def sleepOrRaise (ended delay : ℚ) (metadata : ProviderRetryMetadata) (calls : ProviderCalls) :
    ProviderCalls × Option ProviderResult :=
  if delay ≥ max 0 (deadline - ended) then (calls, some (.deadlineExceeded "AI provider deadline exceeded" metadata))
  else ({ calls with sleeps := calls.sleeps ++ [(ended, delay)] }, none)

/-- The body of the loop. -/
def tryOnce (attempt : ℕ) (calls : ProviderCalls) : ProviderCalls × Option ProviderResult :=
  let exchange := met attempt
  let remaining := deadline - exchange.reading
  if remaining ≤ 0 then
    let metadata := { attempts := attempt, retries := attempt - 1, deadlineExceeded := true }
    (calls, some (.deadlineExceeded "AI provider deadline exceeded" metadata))
  else
    let metadata : ProviderRetryMetadata := { attempts := attempt + 1, retries := attempt }
    let calls := { calls with posts := calls.posts ++ [⟨exchange.slot, providerTimeout remaining⟩] }
    match exchange.outcome with
    | .timeout =>
      if !idempotent ∨ attempt = maxRetries then
        (calls, some (.deadlineExceeded "AI provider request timed out" metadata))
      else sleepOrRaise deadline exchange.ended (retryDelay attempt none) metadata calls
    | .transportError =>
      if !idempotent ∨ attempt = maxRetries then
        (calls, some (.transportFailed "AI provider transport failed" metadata))
      else sleepOrRaise deadline exchange.ended (retryDelay attempt none) metadata calls
    | .response statusCode retryAfter =>
      let responseMetadata := { metadata with lastStatusCode := some statusCode }
      let calls := { calls with received := calls.received ++ [statusCode] }
      if !idempotent ∨ !isRetryableStatus statusCode ∨ attempt = maxRetries then
        (calls, some (.returned statusCode responseMetadata))
      else sleepOrRaise deadline exchange.ended (retryDelay attempt retryAfter) responseMetadata calls

end Call

/-- The deadline of a call that reads the clock at its start. -/
def deadlineOf (started aiRequestTimeoutSeconds : ℚ) : ℚ := started + max (1 / 1000) aiRequestTimeoutSeconds

/-- `post_with_retry` -/
def postWithRetry (idempotent : Bool) (aiProviderMaxRetries : ℤ) (aiRequestTimeoutSeconds started : ℚ)
    (retryDelay : ℕ → Option String → ℚ) (met : ℕ → ProviderExchange) : ProviderCalls × Option ProviderResult :=
  let maxRetries := maxRetriesOf aiProviderMaxRetries
  retry (tryOnce idempotent maxRetries (deadlineOf started aiRequestTimeoutSeconds) retryDelay met) (maxRetries + 1) 0 {}

/-! ### What an attempt does -/

/-- The status of a response. -/
def ProviderOutcome.status : ProviderOutcome → Option ℕ
  | .response statusCode _ => some statusCode
  | .timeout | .transportError => none

/-- Worth another attempt. -/
def ProviderOutcome.isRetryable : ProviderOutcome → Bool
  | .response statusCode _ => isRetryableStatus statusCode
  | .timeout | .transportError => true

def ProviderOutcome.retryAfter : ProviderOutcome → Option String
  | .response _ retryAfter => retryAfter
  | .timeout | .transportError => none

section Attempts

variable (idempotent : Bool) (maxRetries : ℕ) (deadline : ℚ) (retryDelay : ℕ → Option String → ℚ)
  (met : ℕ → ProviderExchange)

/-- The delay before the next attempt. -/
def delayAfter (n : ℕ) : ℚ := retryDelay n (met n).outcome.retryAfter

/-- An attempt that is followed by another one. -/
structure GoesOn (n : ℕ) : Prop where
  inTime : (met n).reading < deadline
  idempotent : idempotent = true
  notLast : n ≠ maxRetries
  retryable : (met n).outcome.isRetryable = true
  sleeps : delayAfter retryDelay met n < max 0 (deadline - (met n).ended)

/-- An attempt that the call comes to. -/
def Reached (n : ℕ) : Prop := ∀ m < n, GoesOn idempotent maxRetries deadline retryDelay met m

/-- The post of an attempt. -/
def postOf (n : ℕ) : ProviderPost := ⟨(met n).slot, providerTimeout (deadline - (met n).reading)⟩

/-- What a call has done before an attempt. -/
def callsBefore (n : ℕ) : ProviderCalls where
  posts := (List.range n).map (postOf deadline met)
  sleeps := (List.range n).map fun m ↦ ((met m).ended, delayAfter retryDelay met m)
  received := (List.range n).filterMap fun m ↦ (met m).outcome.status

/-- What a call has done whose last attempt is this one. -/
def callsAfter (n : ℕ) : ProviderCalls :=
  if (met n).reading < deadline then
    { callsBefore deadline retryDelay met (n + 1) with sleeps := (callsBefore deadline retryDelay met n).sleeps }
  else callsBefore deadline retryDelay met n

/-- What is recorded of an attempt that has posted. -/
def metadataOf (n : ℕ) : ProviderRetryMetadata where
  attempts := n + 1
  retries := n
  lastStatusCode := (met n).outcome.status

/-- How an attempt ends a call if it is not worth another one, or the last. -/
def resultOf (n : ℕ) : ProviderResult :=
  match (met n).outcome with
  | .response statusCode _ => .returned statusCode (metadataOf met n)
  | .timeout => .deadlineExceeded "AI provider request timed out" (metadataOf met n)
  | .transportError => .transportFailed "AI provider transport failed" (metadataOf met n)

/-- A call with the post of an attempt. -/
def posted (n : ℕ) (calls : ProviderCalls) : ProviderCalls :=
  { calls with
    posts := calls.posts ++ [postOf deadline met n]
    received := calls.received ++ (met n).outcome.status.toList }

variable {idempotent maxRetries deadline retryDelay met} {n : ℕ}

/-- An attempt that starts in time posts, and then sleeps or ends the call. -/
theorem tryOnce_of_inTime (h : (met n).reading < deadline) (calls : ProviderCalls) :
    tryOnce idempotent maxRetries deadline retryDelay met n calls =
      if idempotent = true ∧ n ≠ maxRetries ∧ (met n).outcome.isRetryable = true then
        sleepOrRaise deadline (met n).ended (delayAfter retryDelay met n) (metadataOf met n)
          (posted deadline met n calls)
      else (posted deadline met n calls, some (resultOf met n)) := by
  have hremaining : ¬deadline - (met n).reading ≤ 0 := not_le.2 (sub_pos.2 h)
  rw [tryOnce, if_neg hremaining]
  rcases houtcome : (met n).outcome with ⟨statusCode, retryAfter⟩ | - | - <;>
    simp only [houtcome, posted, metadataOf, resultOf, delayAfter, ProviderOutcome.status, ProviderOutcome.isRetryable,
      Option.toList_none, List.append_nil]
  · by_cases hagain : idempotent = true ∧ n ≠ maxRetries ∧ isRetryableStatus statusCode = true
    · rw [if_pos hagain, if_neg (by simp [hagain])]
      rfl
    · rw [if_neg hagain, if_pos (by grind)]
      rfl
  · by_cases hagain : idempotent = true ∧ n ≠ maxRetries ∧ True
    · rw [if_pos hagain, if_neg (by simp [hagain])]
      rfl
    · rw [if_neg hagain, if_pos (by grind)]
      rfl
  · by_cases hagain : idempotent = true ∧ n ≠ maxRetries ∧ True
    · rw [if_pos hagain, if_neg (by simp [hagain])]
      rfl
    · rw [if_neg hagain, if_pos (by grind)]
      rfl

/-- An attempt that starts too late ends the call. -/
theorem tryOnce_of_late (h : ¬(met n).reading < deadline) (calls : ProviderCalls) :
    tryOnce idempotent maxRetries deadline retryDelay met n calls = (calls,
      some (.deadlineExceeded "AI provider deadline exceeded" ⟨n, n - 1, none, true⟩)) :=
  if_pos (sub_nonpos.2 (not_lt.1 h))

theorem callsBefore_succ : callsBefore deadline retryDelay met (n + 1) =
    { posted deadline met n (callsBefore deadline retryDelay met n) with
      sleeps := (callsBefore deadline retryDelay met n).sleeps ++ [((met n).ended, delayAfter retryDelay met n)] } := by
  simp only [callsBefore, posted, List.range_succ, List.map_append, List.filterMap_append, List.map_cons, List.map_nil]
  congr 2

theorem callsAfter_of_inTime (h : (met n).reading < deadline) :
    callsAfter deadline retryDelay met n = posted deadline met n (callsBefore deadline retryDelay met n) := by
  rw [callsAfter, if_pos h, callsBefore_succ]
  rfl

theorem callsAfter_of_late (h : ¬(met n).reading < deadline) :
    callsAfter deadline retryDelay met n = callsBefore deadline retryDelay met n := if_neg h

/-- **An attempt that goes on** leaves what it did and the call open. -/
theorem tryOnce_of_goesOn (h : GoesOn idempotent maxRetries deadline retryDelay met n) :
    tryOnce idempotent maxRetries deadline retryDelay met n (callsBefore deadline retryDelay met n) =
      (callsBefore deadline retryDelay met (n + 1), none) := by
  rw [tryOnce_of_inTime h.inTime, if_pos ⟨h.idempotent, h.notLast, h.retryable⟩, callsBefore_succ]
  exact if_neg (not_le.2 h.sleeps)

/-- What is recorded at the end of a call: its posts, and the status of the last attempt if it has one. -/
structure RecordedAt (deadline : ℚ) (retryDelay : ℕ → Option String → ℚ) (met : ℕ → ProviderExchange) (n : ℕ)
    (result : ProviderResult) : Prop where
  attempts : result.metadata.attempts = (callsAfter deadline retryDelay met n).posts.length
  lastStatusCode : result.metadata.lastStatusCode =
    if (met n).reading < deadline then (met n).outcome.status else none

/-- **An attempt that does not go on** ends the call. -/
theorem tryOnce_of_not (h : ¬GoesOn idempotent maxRetries deadline retryDelay met n) :
    ∃ result, tryOnce idempotent maxRetries deadline retryDelay met n (callsBefore deadline retryDelay met n) =
      (callsAfter deadline retryDelay met n, some result) ∧ RecordedAt deadline retryDelay met n result := by
  have hposts : (callsBefore deadline retryDelay met n).posts.length = n := by
    rw [callsBefore, List.length_map, List.length_range]
  by_cases hinTime : (met n).reading < deadline
  · have hrecorded (result : ProviderResult) (hmetadata : result.metadata = metadataOf met n) :
        RecordedAt deadline retryDelay met n result := by
      refine ⟨?_, ?_⟩
      · rw [hmetadata, callsAfter_of_inTime hinTime, posted, List.length_append, hposts]
        rfl
      · rw [hmetadata, if_pos hinTime]
        rfl
    rw [tryOnce_of_inTime hinTime, callsAfter_of_inTime hinTime]
    split
    · next hagain =>
      have hsleep : max 0 (deadline - (met n).ended) ≤ delayAfter retryDelay met n :=
        not_lt.1 fun hlt ↦ h ⟨hinTime, hagain.1, hagain.2.1, hagain.2.2, hlt⟩
      exact ⟨_, if_pos hsleep, hrecorded _ rfl⟩
    · refine ⟨_, rfl, hrecorded _ ?_⟩
      rw [resultOf]
      split <;> rfl
  · refine ⟨_, (tryOnce_of_late hinTime _).trans (congrArg (·, _) (callsAfter_of_late hinTime).symm), ?_, ?_⟩
    · rw [callsAfter_of_late hinTime, hposts]
      rfl
    · rw [if_neg hinTime]
      rfl

/-! ### What a call has done -/

/-- An attempt is the last one if the call comes to it and it does not go on. -/
theorem Reached.unique {m : ℕ} (hm : Reached idempotent maxRetries deadline retryDelay met m)
    (hmNot : ¬GoesOn idempotent maxRetries deadline retryDelay met m)
    (hn : Reached idempotent maxRetries deadline retryDelay met n)
    (hnNot : ¬GoesOn idempotent maxRetries deadline retryDelay met n) : m = n := by
  rcases Nat.lt_trichotomy m n with hlt | heq | hlt
  · exact absurd (hn m hlt) hmNot
  · exact heq
  · exact absurd (hm n hlt) hnNot

theorem length_posts_le : (callsAfter deadline retryDelay met n).posts.length ≤ n + 1 := by
  rw [callsAfter]
  split
  · rw [callsBefore, List.length_map, List.length_range]
  · rw [callsBefore, List.length_map, List.length_range]
    exact Nat.le_succ n

theorem sleeps_callsAfter :
    (callsAfter deadline retryDelay met n).sleeps = (callsBefore deadline retryDelay met n).sleeps := by
  rw [callsAfter]
  split <;> rfl

/-- The posts of a call are those of the attempts that it comes to in time. -/
theorem mem_posts_iff (hn : Reached idempotent maxRetries deadline retryDelay met n)
    (hnNot : ¬GoesOn idempotent maxRetries deadline retryDelay met n) {post : ProviderPost} :
    post ∈ (callsAfter deadline retryDelay met n).posts ↔
      ∃ m, Reached idempotent maxRetries deadline retryDelay met m ∧ (met m).reading < deadline ∧
        postOf deadline met m = post := by
  have hbefore : post ∈ (callsBefore deadline retryDelay met n).posts ↔ ∃ m < n, postOf deadline met m = post := by
    simp [callsBefore]
  constructor
  · intro hpost
    by_cases hinTime : (met n).reading < deadline
    · rw [callsAfter_of_inTime hinTime, posted, List.mem_append, List.mem_singleton, hbefore] at hpost
      rcases hpost with ⟨m, hm, heq⟩ | rfl
      · exact ⟨m, fun k hk ↦ hn k (hk.trans hm), (hn m hm).inTime, heq⟩
      · exact ⟨n, hn, hinTime, rfl⟩
    · rw [callsAfter_of_late hinTime, hbefore] at hpost
      obtain ⟨m, hm, heq⟩ := hpost
      exact ⟨m, fun k hk ↦ hn k (hk.trans hm), (hn m hm).inTime, heq⟩
  · rintro ⟨m, hm, hinTime, rfl⟩
    -- an attempt that is reached is not behind the last one
    rcases Nat.lt_trichotomy m n with hlt | rfl | hlt
    · have hmem := hbefore.2 ⟨m, hlt, rfl⟩
      by_cases hlast : (met n).reading < deadline
      · rw [callsAfter_of_inTime hlast]
        exact List.mem_append_left _ hmem
      · rwa [callsAfter_of_late hlast]
    · rw [callsAfter_of_inTime hinTime]
      exact List.mem_append_right _ (List.mem_singleton_self _)
    · exact absurd (hm n hlt) hnNot

theorem received_callsBefore_eq_nil_iff :
    (callsBefore deadline retryDelay met n).received = [] ↔ ∀ m < n, (met m).outcome.status = none := by
  rw [callsBefore, List.filterMap_eq_nil_iff]
  exact forall_congr' fun m ↦ by rw [List.mem_range]

/-- The status of the last attempt is the last one that was received, unless the last attempt has none and another has
one. -/
theorem getLast_received_iff :
    (if (met n).reading < deadline then (met n).outcome.status else none) =
        (callsAfter deadline retryDelay met n).received.getLast? ↔
      (((met n).reading < deadline → (met n).outcome.status = none) → ∀ m < n, (met m).outcome.status = none) := by
  rw [← @received_callsBefore_eq_nil_iff deadline retryDelay met n]
  have hnone : none = (callsBefore deadline retryDelay met n).received.getLast? ↔
      (callsBefore deadline retryDelay met n).received = [] := by
    rw [eq_comm, List.getLast?_eq_none_iff]
  by_cases hinTime : (met n).reading < deadline
  · rw [if_pos hinTime, callsAfter_of_inTime hinTime, posted]
    cases hstatus : (met n).outcome.status with
    | none => simpa [hinTime] using hnone
    | some statusCode => simp [hinTime]
  · rw [if_neg hinTime, callsAfter_of_late hinTime]
    simpa [hinTime] using hnone

end Attempts

/-! ### What bounds a call -/

/-- Every limit of a request is within a bound. -/
structure HttpxTimeout.Within (limits : HttpxTimeout) (bound : ℚ) : Prop where
  connect : limits.connect ≤ bound
  read : limits.read ≤ bound
  write : limits.write ≤ bound
  pool : limits.pool ≤ bound

/-- The limits for some time are within what is left if that is the same time, or if it is the least there is. -/
theorem providerTimeout_within_iff {remaining left : ℚ} (h : left ≤ remaining) :
    (providerTimeout remaining).Within (max (1 / 1000) left) ↔ left = remaining ∨ remaining ≤ 1 / 1000 := by
  have htotal : (providerTimeout remaining).Within (max (1 / 1000) left) ↔ remaining ≤ max (1 / 1000) left := by
    refine ⟨fun hwithin ↦ (le_max_right _ _).trans hwithin.read, fun hle ↦ ?_⟩
    have hmax : max (1 / 1000) remaining ≤ max (1 / 1000) left := max_le (le_max_left _ _) hle
    exact ⟨(min_le_right _ _).trans hmax, hmax, hmax, (min_le_right _ _).trans hmax⟩
  rw [htotal, le_max_iff, or_comm]
  exact or_congr ⟨fun hle ↦ le_antisymm h hle, fun heq ↦ heq.ge⟩ Iff.rfl

/-- The readings of the clock never go back. -/
structure ClockRuns (started : ℚ) (met : ℕ → ProviderExchange) : Prop where
  first : started ≤ (met 0).reading
  slot : ∀ n, (met n).reading ≤ (met n).slot
  ended : ∀ n, (met n).slot ≤ (met n).ended
  next : ∀ n, (met n).ended ≤ (met (n + 1)).reading

/-- What bounds a call: it ends; it posts once if it is not idempotent, and as often as the settings say otherwise; it
does not sleep up to the deadline; it posts before the deadline, and gives a post no more than the time that is left;
and it records how often it has posted and the last status that it has received. -/
structure BoundedRetries (idempotent : Bool) (aiProviderMaxRetries : ℤ) (deadline : ℚ)
    (call : ProviderCalls × Option ProviderResult) : Prop where
  ends : ∃ result, call.2 = some result
  single : idempotent = false → call.1.posts.length ≤ 1
  bounded : (call.1.posts.length : ℤ) ≤ min 3 (max 0 aiProviderMaxRetries) + 1
  sleeps : ∀ sleep ∈ call.1.sleeps, sleep.1 + sleep.2 < deadline
  inTime : ∀ post ∈ call.1.posts, post.start < deadline
  timeouts : ∀ post ∈ call.1.posts, post.timeout.Within (max (1 / 1000) (deadline - post.start))
  attempts : ∀ result, call.2 = some result → result.metadata.attempts = call.1.posts.length
  lastStatusCode : ∀ result, call.2 = some result → result.metadata.lastStatusCode = call.1.received.getLast?

/-- When a call is not disturbed: each attempt that it comes to in time gets its slot before the deadline, and without
waiting unless there is no more than a millisecond left; and if the last attempt has no response, no other has one. -/
structure Undisturbed (idempotent : Bool) (maxRetries : ℕ) (deadline : ℚ) (retryDelay : ℕ → Option String → ℚ)
    (met : ℕ → ProviderExchange) : Prop where
  slots : ∀ n, Reached idempotent maxRetries deadline retryDelay met n → (met n).reading < deadline →
    (met n).slot < deadline ∧ ((met n).slot = (met n).reading ∨ deadline - (met n).reading ≤ 1 / 1000)
  responses : ∀ n, Reached idempotent maxRetries deadline retryDelay met n →
    ¬GoesOn idempotent maxRetries deadline retryDelay met n →
    ((met n).reading < deadline → (met n).outcome.status = none) → ∀ m < n, (met m).outcome.status = none

section Bounds

variable {idempotent : Bool} {aiProviderMaxRetries : ℤ} {aiRequestTimeoutSeconds started : ℚ}
  {retryDelay : ℕ → Option String → ℚ} {met : ℕ → ProviderExchange}

/-- **A call ends with the first attempt that does not go on.** -/
theorem postWithRetry_run (idempotent : Bool) (aiProviderMaxRetries : ℤ) (aiRequestTimeoutSeconds started : ℚ)
    (retryDelay : ℕ → Option String → ℚ) (met : ℕ → ProviderExchange) :
    ∃ n ≤ maxRetriesOf aiProviderMaxRetries,
      Reached idempotent (maxRetriesOf aiProviderMaxRetries) (deadlineOf started aiRequestTimeoutSeconds) retryDelay met n ∧
      ¬GoesOn idempotent (maxRetriesOf aiProviderMaxRetries) (deadlineOf started aiRequestTimeoutSeconds) retryDelay met n ∧
      ∃ result,
        postWithRetry idempotent aiProviderMaxRetries aiRequestTimeoutSeconds started retryDelay met =
          (callsAfter (deadlineOf started aiRequestTimeoutSeconds) retryDelay met n, some result) ∧
        RecordedAt (deadlineOf started aiRequestTimeoutSeconds) retryDelay met n result :=
  @retry_ends _ _ _ _ (callsBefore (deadlineOf started aiRequestTimeoutSeconds) retryDelay met) _ _ _
    (fun _ ↦ tryOnce_of_goesOn) (fun _ ↦ tryOnce_of_not) fun h ↦ h.notLast rfl

/-- **When a call is bounded as it should be**: if and only if it is not disturbed. -/
theorem boundedRetries_iff (hdelay : ∀ n retryAfter, 0 ≤ retryDelay n retryAfter) (hclock : ClockRuns started met) :
    BoundedRetries idempotent aiProviderMaxRetries (deadlineOf started aiRequestTimeoutSeconds)
        (postWithRetry idempotent aiProviderMaxRetries aiRequestTimeoutSeconds started retryDelay met) ↔
      Undisturbed idempotent (maxRetriesOf aiProviderMaxRetries) (deadlineOf started aiRequestTimeoutSeconds)
        retryDelay met := by
  obtain ⟨n, hle, hreached, hnot, result, heq, hrecorded⟩ := postWithRetry_run idempotent aiProviderMaxRetries
    aiRequestTimeoutSeconds started retryDelay met
  generalize deadlineOf started aiRequestTimeoutSeconds = deadline at *
  rw [heq]
  have hwithin (m : ℕ) : (postOf deadline met m).timeout.Within (max (1 / 1000) (deadline - (met m).slot)) ↔
      (met m).slot = (met m).reading ∨ deadline - (met m).reading ≤ 1 / 1000 := by
    refine (providerTimeout_within_iff (sub_le_sub_left (hclock.slot m) deadline)).trans (or_congr ?_ Iff.rfl)
    rw [sub_right_inj]
  constructor
  · intro h
    refine ⟨fun m hm hinTime ↦ ?_, fun m hm hmNot ↦ ?_⟩
    · have hpost := (mem_posts_iff hreached hnot).2 ⟨m, hm, hinTime, rfl⟩
      exact ⟨h.inTime _ hpost, (hwithin m).1 (h.timeouts _ hpost)⟩
    · obtain rfl := hm.unique hmNot hreached hnot
      exact getLast_received_iff.1 (hrecorded.lastStatusCode.symm.trans (h.lastStatusCode result rfl))
  · intro h
    have hslots {post : ProviderPost} (hpost : post ∈ (callsAfter deadline retryDelay met n).posts) :
        post.start < deadline ∧ post.timeout.Within (max (1 / 1000) (deadline - post.start)) := by
      obtain ⟨m, hm, hinTime, rfl⟩ := (mem_posts_iff hreached hnot).1 hpost
      obtain ⟨hslot, hwait⟩ := h.slots m hm hinTime
      exact ⟨hslot, (hwithin m).2 hwait⟩
    refine ⟨⟨result, rfl⟩, fun hidempotent ↦ ?_, ?_, fun sleep hsleep ↦ ?_, fun post hpost ↦ (hslots hpost).1,
      fun post hpost ↦ (hslots hpost).2, fun other hother ↦ ?_, fun other hother ↦ ?_⟩
    · -- a call that is not idempotent does not go on
      have hzero : n = 0 := hreached.unique hnot (fun m hm ↦ absurd hm (Nat.not_lt_zero m))
        fun hgoes ↦ Bool.false_ne_true (hidempotent.symm.trans hgoes.idempotent)
      exact length_posts_le.trans (hzero ▸ le_refl _)
    · have hposts := @length_posts_le deadline retryDelay met n
      have hmax : (maxRetriesOf aiProviderMaxRetries : ℤ) = min 3 (max 0 aiProviderMaxRetries) := by
        rw [maxRetriesOf, Int.toNat_of_nonneg (le_min (by decide) (le_max_left _ _))]
      rw [← hmax]
      exact_mod_cast hposts.trans (Nat.succ_le_succ hle)
    · rw [sleeps_callsAfter, callsBefore, List.mem_map] at hsleep
      obtain ⟨m, hm, rfl⟩ := hsleep
      have hgoes := hreached m (List.mem_range.1 hm)
      rcases lt_max_iff.1 hgoes.sleeps with hneg | hlt
      · exact absurd (hdelay m _) (not_le.2 hneg)
      · exact lt_sub_iff_add_lt'.1 hlt
    · obtain rfl := Option.some.inj hother
      exact hrecorded.attempts
    · obtain rfl := Option.some.inj hother
      exact hrecorded.lastStatusCode.trans (getLast_received_iff.2 (h.responses n hreached hnot))

end Bounds

/-- A provider that is not available at first, one second after the other. -/
def recovering (n : ℕ) : ProviderExchange :=
  ⟨n, n, if n = 0 then .response 503 none else .response 200 none, n + 1 / 2⟩

/-- The call that gets through at the second attempt is bounded. -/
theorem boundedRetries_iff_recovering : BoundedRetries true 3 (deadlineOf 0 60)
    (postWithRetry true 3 60 0 (fun _ _ ↦ 1 / 4) recovering) := by
  have hclock : ClockRuns 0 recovering := by
    refine ⟨le_refl _, fun n ↦ le_refl _, fun n ↦ ?_, fun n ↦ ?_⟩
    · exact le_add_of_nonneg_right (by norm_num)
    · show (n : ℚ) + 1 / 2 ≤ ((n + 1 : ℕ) : ℚ)
      push_cast
      linarith
  refine (boundedRetries_iff (fun _ _ ↦ by norm_num) hclock).2 ⟨fun n _ hinTime ↦ ⟨hinTime, .inl rfl⟩, ?_⟩
  intro n hreached _ hnone m hm
  rcases Nat.lt_or_ge 1 n with hlt | hle
  · -- the second attempt is the last one
    exact absurd (hreached 1 hlt).retryable (by decide)
  · have hzero : n = 1 := Nat.le_antisymm hle (Nat.succ_le_of_lt (Nat.zero_lt_of_lt hm))
    subst hzero
    exact nomatch hnone (by decide +kernel)

/-- A provider whose slots take forty seconds. -/
def congested (n : ℕ) : ProviderExchange := ⟨50 * n, 50 * n + 40, .response 200 none, 50 * n + 41⟩

/-- **A post starts behind the deadline** where its slot is not there before. -/
theorem congested_unbounded : ¬∀ (idempotent : Bool) (aiProviderMaxRetries : ℤ) (aiRequestTimeoutSeconds started : ℚ)
    (retryDelay : ℕ → Option String → ℚ) (met : ℕ → ProviderExchange), (∀ n retryAfter, 0 ≤ retryDelay n retryAfter) →
    ClockRuns started met →
    BoundedRetries idempotent aiProviderMaxRetries (deadlineOf started aiRequestTimeoutSeconds)
      (postWithRetry idempotent aiProviderMaxRetries aiRequestTimeoutSeconds started retryDelay met) := by
  intro h
  have hclock : ClockRuns 0 congested := by
    refine ⟨by decide +kernel, fun n ↦ ?_, fun n ↦ ?_, fun n ↦ ?_⟩
    · exact le_add_of_nonneg_right (by norm_num)
    · exact add_le_add_right (by norm_num) _
    · show (50 : ℚ) * n + 41 ≤ 50 * ((n + 1 : ℕ) : ℚ)
      push_cast
      linarith
  have hbounded := h true 3 30 0 (fun _ _ ↦ 0) congested (fun _ _ ↦ le_refl _) hclock
  have hposts : (postWithRetry true 3 30 0 (fun _ _ ↦ 0) congested).1.posts.map ProviderPost.start = [40] := by
    decide +kernel
  obtain ⟨post, hpost, hstart⟩ := List.mem_map.1 (hposts ▸ List.mem_singleton_self (40 : ℚ))
  have hlt := hbounded.inTime post hpost
  rw [hstart] at hlt
  exact absurd hlt (by decide +kernel)

end GenericApp.ProviderRetry
