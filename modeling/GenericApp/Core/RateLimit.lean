import GenericApp.Foundation.ExpiringStore
import GenericApp.Foundation.Python

/-!
# Rate limits

A counter in Redis for each key. It goes up with every attempt and expires some time after the first one;
an attempt is refused while the counter is above its limit. One counter goes up with failures only, and is
looked at before. Redis answers.
-/

namespace GenericApp

open Py

/-! ### What is raised, and how it is answered -/

theorem isError_400 : 400 ≤ 400 := by decide

theorem isError_403 : 400 ≤ 403 := by decide

theorem isError_404 : 400 ≤ 404 := by decide

theorem isError_500 : 400 ≤ 500 := by decide

/-- `HTTPException`, with the status of an error. -/
structure HttpException where
  statusCode : ℕ
  detail : String
  headers : List (String × String) := []
  isError : 400 ≤ statusCode := by
    first | exact isError_400 | exact isError_403 | exact isError_404 | exact isError_500 | decide
deriving DecidableEq

/-- What a handler raises. -/
inductive Raised
  | http (exc : HttpException)
  | valueError
  | other
deriving DecidableEq

/-- A response: the status, the detail of its body, if there is a body, and the headers. -/
structure HttpResponse where
  statusCode : ℕ
  detail : Option String := none
  headers : List (String × String) := []
deriving DecidableEq

/-- `register_exception_handlers` -/
def Raised.response : Raised → HttpResponse
  | http exc => ⟨exc.statusCode, some exc.detail, exc.headers⟩
  | valueError => ⟨400, some "The request contains invalid data.", []⟩
  | other => ⟨500, some "Internal server error", []⟩

theorem Raised.isError (raised : Raised) : 400 ≤ raised.response.statusCode := by
  cases raised with
  | http exc => exact exc.isError
  | valueError => exact Nat.le_refl 400
  | other => exact Nat.le_add_right 400 100

/-! ### Counters -/

/-- The counters. -/
abbrev RateCounters := ExpiringStore String ℤ

section Counters

variable (R : RateCounters) (key : String) (now : DateTime)

/-- `TTL`, in seconds. -/
def ttlOf : ℤ :=
  match R key with
  | some e =>
    if e.Live now then
      match e.expiresAt with
      | some expiresAt => (expiresAt - now + 500000) / 1000000
      | none => -1
    else -2
  | none => -2

/-- `EXPIRE`. A time that is not to come removes the key. -/
def expireIn (seconds : ℤ) : RateCounters :=
  if seconds ≤ 0 then R.delete key else R.expire key (now + timedelta seconds) now

/-- `_increment_with_ttl` -/
def incrementWithTtl (windowSeconds : ℤ) : (ℤ × ℤ) × RateCounters :=
  let counted := ExpiringStore.incr R key now
  let count := (counted.get key now).getD 0
  let counted := if count = 1 then expireIn counted key now windowSeconds else counted
  ((count, max 1 (ttlOf counted key now)), counted)

/-- `_build_rate_limit_exception` -/
def buildRateLimitException (ttl : ℤ) : HttpException where
  statusCode := 429
  detail := "Too many attempts. Try again in " ++ toString (max 1 ttl) ++ " seconds."
  headers := [("Retry-After", toString (max 1 ttl))]

/-- `check_rate_limit` -/
def checkRateLimit (maxAttempts windowSeconds : ℤ) : Except Raised Unit × RateCounters :=
  let ((count, ttl), counted) := incrementWithTtl R key now windowSeconds
  (if maxAttempts < count then .error (.http (buildRateLimitException ttl)) else .ok (), counted)

/-- `enforce_rate_limit` -/
def enforceRateLimit (maxAttempts : ℤ) : Except Raised Unit :=
  match R.get key now with
  | some count =>
    if maxAttempts < count then .error (.http (buildRateLimitException (ttlOf R key now))) else .ok ()
  | none => .ok ()

/-- `increment_rate_limit` -/
def incrementRateLimit (windowSeconds : ℤ) : RateCounters := (incrementWithTtl R key now windowSeconds).2

/-- `clear_rate_limit` -/
def clearRateLimit : RateCounters := R.delete key

end Counters

end GenericApp
