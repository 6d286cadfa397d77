import GenericApp.Workers.ApplicationJob
import Mathlib.Data.List.Sort
import Mathlib.Data.String.Basic

/-!
# What one call does to one job row

The decisions of `job_service`, each as a function of the row the session loaded, the call's
arguments and the clock reading it took: `claimExisting` for the part of `_claim_job` that has found
a row, `claimNew` for the part that has not, `finishJob` and `releaseJobForRetry`. They return the
row **as the session leaves it**. When and over what that row is written is the business of the
machines that use these functions.

`_claim_job` answers in six ways when it finds a row, and `claimExisting_cases` lists them with all
that is known in each. Whatever is proved about claims further up is proved from it.

The clock is read once, as `now`. Durations are in microseconds.
-/

namespace GenericApp

open Py

/-! ### Arguments and results -/

/-- The arguments of `_claim_job`, which are also those of `ensure_queued_job`. Of the payload only
its keys are used. -/
structure ClaimArgs where
  jobType : String
  payload : List String
  correlationId : String
  operationId : Option String
  maxAttempts : ℕ
  retryable : Bool
  deadlineAt : Option DateTime
  deriving DecidableEq, Repr

/-- `ClaimResult.outcome`. -/
inductive ClaimOutcome
  | run | deduplicated | deadLetter | inFlight | expired
  deriving DecidableEq, Repr

/-- What `_claim_job` answers. -/
structure ClaimResult where
  jobId : Uuid
  shouldRun : Bool
  outcome : ClaimOutcome
  attempt : ℕ
  queueLatency : Option ℤ
  deriving DecidableEq, Repr

/-- An exception, as `_classify_error` sees it: the name of its type, and `str(exc)`. -/
structure PyException where
  name : String
  message : String
  deriving DecidableEq, Repr

/-- How the runner of `run_tracked_sync` ended. An exception that is not an `Exception`, and the
death of the process, end the worker instead. -/
inductive RunnerOutcome
  /-- It returned. -/
  | returned
  /-- It raised `ExternalEffectInFlightError`. -/
  | effectInFlight (exc : PyException)
  /-- It raised another `Exception`. -/
  | raised (exc : PyException)
  deriving DecidableEq, Repr

/-! ### Helpers of the module -/

/-- `_safe_payload`. -/
def safePayload (payload : List String) : SafePayload where
  fieldNames := payload.insertionSort (· ≤ ·)
  source := "celery"

/-- `_classify_error`. -/
def classifyError (exc : PyException) : String :=
  let message := replaceChar '\n' ' ' (strip exc.message)
  let message := if 180 < message.length then slice 177 message ++ "..." else message
  if message = "" then exc.name else exc.name ++ ": " ++ message

/-- `_is_stale_running`. `updated_at` is not nullable, so the fallbacks after it are never reached. -/
def isStaleRunning (S : Settings) (job : ApplicationJob) (now : DateTime) : Bool :=
  job.startedAt.getD job.updatedAt ≤ now - timedelta S.workerJobRunningLeaseSeconds

/-- `_deadline_expired`. -/
def deadlineExpired (job : ApplicationJob) (now : DateTime) : Bool :=
  job.deadlineAt.any (· ≤ now)

/-- `not job.retryable or (job.attempts or 0) >= (job.max_attempts or 1)`: a failure is the last
one. -/
def exhausted (job : ApplicationJob) : Bool :=
  !job.retryable || decide (orNat job.maxAttempts 1 ≤ job.attempts)

/-! ### `ensure_queued_job` -/

/-- The row that `ensure_queued_job` inserts. -/
def queuedNew (id : Uuid) (args : ClaimArgs) (now flushedAt : DateTime) : ApplicationJob where
  id := id
  jobType := args.jobType
  status := .queued
  correlationId := args.correlationId
  operationId := args.operationId
  payload := safePayload args.payload
  attempts := 0
  maxAttempts := args.maxAttempts
  retryable := args.retryable
  availableAt := now
  deadlineAt := args.deadlineAt
  startedAt := none
  finishedAt := none
  lastError := none
  createdAt := flushedAt
  updatedAt := flushedAt

/-! ### `_claim_job` -/

/-- The row that `_claim_job` inserts when it finds none. -/
def claimNew (id : Uuid) (args : ClaimArgs) (now flushedAt : DateTime) : ApplicationJob :=
  { queuedNew id args now flushedAt with
    status := .running
    attempts := 1
    startedAt := some now }

/-- What `_claim_job` answers after that insert. -/
def claimNewResult (id : Uuid) : ClaimResult where
  jobId := id
  shouldRun := true
  outcome := .run
  attempt := 1
  queueLatency := some 0

/-- A `ClaimResult` that does not run. -/
def ClaimResult.skip (job : ApplicationJob) (outcome : ClaimOutcome) : ClaimResult where
  jobId := job.id
  shouldRun := false
  outcome := outcome
  attempt := job.attempts
  queueLatency := none

/-- The row of a claim that runs. -/
def claimRow (args : ClaimArgs) (now : DateTime) (job : ApplicationJob) : ApplicationJob :=
  { job with
    maxAttempts := orNat args.maxAttempts job.maxAttempts
    retryable := args.retryable
    deadlineAt := args.deadlineAt.or job.deadlineAt
    status := .running
    attempts := job.attempts + 1
    startedAt := some now
    finishedAt := none
    lastError := none }

/-- The answer of a claim that runs. -/
def claimRunResult (now : DateTime) (job : ApplicationJob) : ClaimResult where
  jobId := job.id
  shouldRun := true
  outcome := .run
  attempt := job.attempts + 1
  queueLatency := some (max 0 (now - job.availableAt))

/-- The row of a claim whose deadline has passed. -/
def expireRow (now : DateTime) (job : ApplicationJob) : ApplicationJob :=
  { job with
    status := .deadLetter
    lastError := some "deadline_exceeded"
    finishedAt := some now }

/-- The row of a claim that has no attempt left. -/
def exceedRow (args : ClaimArgs) (now : DateTime) (job : ApplicationJob) : ApplicationJob :=
  { job with
    maxAttempts := orNat args.maxAttempts job.maxAttempts
    retryable := args.retryable
    deadlineAt := args.deadlineAt.or job.deadlineAt
    status := .deadLetter
    attempts := job.attempts + 1
    lastError := some (orStr job.lastError "max_attempts_exceeded")
    finishedAt := some now }

/-- `_claim_job` once it holds the row lock: the row as it leaves it, and its answer. -/
def claimExisting (S : Settings) (args : ClaimArgs) (now : DateTime) (job : ApplicationJob) :
    ApplicationJob × ClaimResult :=
  if job.status = .succeeded then
    (job, .skip job .deduplicated)
  else if job.status = .deadLetter then
    (job, .skip job .deadLetter)
  else if job.status = .running ∧ isStaleRunning S job now = false then
    (job, .skip job .inFlight)
  else if deadlineExpired job now then
    (expireRow now job, .skip job .expired)
  else
    let maxAttempts := orNat args.maxAttempts job.maxAttempts
    if orNat maxAttempts args.maxAttempts < job.attempts + 1 then
      (exceedRow args now job, .skip (exceedRow args now job) .deadLetter)
    else
      (claimRow args now job, claimRunResult now job)

/-! ### `_finish_job` and `_release_job_for_retry` -/

/-- `_finish_job`, between its read and its write. -/
def finishJob (status : JobStatus) (error : Option String) (now : DateTime) (job : ApplicationJob) :
    ApplicationJob :=
  if job.status.isFinal then job else
  { job with
    status := if status = .failed ∧ exhausted job then .deadLetter else status
    lastError := (given error).map (slice 500)
    finishedAt := some now }

/-- `_release_job_for_retry`, between its read and its write. -/
def releaseJobForRetry (delaySeconds : ℤ) (error : String) (now : DateTime) (job : ApplicationJob) :
    ApplicationJob :=
  if job.status ≠ .running then job else
  { job with
    status := .queued
    availableAt := now + timedelta (max 0 delaySeconds)
    startedAt := none
    finishedAt := none
    lastError := some (slice 500 error) }

/-- What `run_tracked_sync` does to the row when its runner is over. -/
def settleJob (S : Settings) : RunnerOutcome → DateTime → ApplicationJob → ApplicationJob
  | .returned => finishJob .succeeded none
  | .effectInFlight exc => releaseJobForRetry S.externalEffectLeaseSeconds (classifyError exc)
  | .raised exc => finishJob .failed (some (classifyError exc))

/-- The early return of `_finish_job` and of `_release_job_for_retry`: the row it reads is not one that
it settles. -/
def returnsEarly (outcome : RunnerOutcome) (job : ApplicationJob) : Bool :=
  match outcome with
  | .returned | .raised _ => job.status.isFinal
  | .effectInFlight _ => job.status ≠ .running

/-! ### What a claim can do -/

section Claim

variable (S : Settings) (args : ClaimArgs) (now : DateTime) (job : ApplicationJob)

/-- **The six answers of a claim on a row that exists**, each with the row it leaves. -/
theorem claimExisting_cases :
    (job.status = .succeeded ∧ claimExisting S args now job = (job, .skip job .deduplicated)) ∨
    (job.status = .deadLetter ∧ claimExisting S args now job = (job, .skip job .deadLetter)) ∨
    (job.status = .running ∧ isStaleRunning S job now = false ∧
      claimExisting S args now job = (job, .skip job .inFlight)) ∨
    (job.status.isFinal = false ∧ (job.status = .running → isStaleRunning S job now = true) ∧
      deadlineExpired job now = true ∧
      claimExisting S args now job = (expireRow now job, .skip job .expired)) ∨
    (job.status.isFinal = false ∧ (job.status = .running → isStaleRunning S job now = true) ∧
      orNat (orNat args.maxAttempts job.maxAttempts) args.maxAttempts < job.attempts + 1 ∧
      claimExisting S args now job =
        (exceedRow args now job, .skip (exceedRow args now job) .deadLetter)) ∨
    (job.status.isFinal = false ∧ (job.status = .running → isStaleRunning S job now = true) ∧
      job.attempts + 1 ≤ orNat (orNat args.maxAttempts job.maxAttempts) args.maxAttempts ∧
      claimExisting S args now job = (claimRow args now job, claimRunResult now job)) := by
  rw [claimExisting]
  by_cases hsucc : job.status = .succeeded
  · exact .inl ⟨hsucc, if_pos hsucc⟩
  rw [if_neg hsucc]
  by_cases hdead : job.status = .deadLetter
  · exact .inr (.inl ⟨hdead, if_pos hdead⟩)
  rw [if_neg hdead]
  by_cases hfresh : job.status = .running ∧ isStaleRunning S job now = false
  · exact .inr (.inr (.inl ⟨hfresh.1, hfresh.2, if_pos hfresh⟩))
  rw [if_neg hfresh]
  have hfinal : job.status.isFinal = false := by simp [JobStatus.isFinal, hsucc, hdead]
  have hstale : job.status = .running → isStaleRunning S job now = true := fun h ↦ by
    rw [← Bool.not_eq_false]
    exact fun h' ↦ hfresh ⟨h, h'⟩
  by_cases hdl : deadlineExpired job now = true
  · exact .inr (.inr (.inr (.inl ⟨hfinal, hstale, hdl, if_pos hdl⟩)))
  rw [if_neg hdl]
  rcases Nat.lt_or_ge (orNat (orNat args.maxAttempts job.maxAttempts) args.maxAttempts)
    (job.attempts + 1) with hmax | hmax
  · exact .inr (.inr (.inr (.inr (.inl ⟨hfinal, hstale, hmax, if_pos hmax⟩))))
  · exact .inr (.inr (.inr (.inr (.inr ⟨hfinal, hstale, hmax, if_neg (by omega)⟩))))

variable {S args now job}

/-- A claim that runs: the row was not final, not freshly running and had an attempt left, and it is
now running under the next attempt. -/
theorem claimExisting_of_shouldRun (h : (claimExisting S args now job).2.shouldRun = true) :
    job.status.isFinal = false ∧ (job.status = .running → isStaleRunning S job now = true) ∧
      job.attempts + 1 ≤ orNat (orNat args.maxAttempts job.maxAttempts) args.maxAttempts ∧
      claimExisting S args now job = (claimRow args now job, claimRunResult now job) := by
  rcases claimExisting_cases S args now job with
    ⟨-, e⟩ | ⟨-, e⟩ | ⟨-, -, e⟩ | ⟨-, -, -, e⟩ | ⟨-, -, -, e⟩ | hrun
  · simp [e, ClaimResult.skip] at h
  · simp [e, ClaimResult.skip] at h
  · simp [e, ClaimResult.skip] at h
  · simp [e, ClaimResult.skip] at h
  · simp [e, ClaimResult.skip] at h
  · exact hrun

/-- A claim that does not run leaves the row alone or buries it. -/
theorem claimExisting_of_not_shouldRun (h : (claimExisting S args now job).2.shouldRun = false) :
    (claimExisting S args now job).1 = job ∨
      (job.status.isFinal = false ∧ (job.status = .running → isStaleRunning S job now = true) ∧
        (claimExisting S args now job).1.status = .deadLetter) := by
  rcases claimExisting_cases S args now job with
    ⟨-, e⟩ | ⟨-, e⟩ | ⟨-, -, e⟩ | ⟨hf, hs, -, e⟩ | ⟨hf, hs, -, e⟩ | ⟨-, -, -, e⟩
  · exact .inl (by rw [e])
  · exact .inl (by rw [e])
  · exact .inl (by rw [e])
  · exact .inr ⟨hf, hs, by rw [e]; rfl⟩
  · exact .inr ⟨hf, hs, by rw [e]; rfl⟩
  · simp [e, claimRunResult] at h

/-- **A claim never takes an attempt back.** -/
theorem attempts_le_claimExisting : job.attempts ≤ (claimExisting S args now job).1.attempts := by
  rcases claimExisting_cases S args now job with
    ⟨-, e⟩ | ⟨-, e⟩ | ⟨-, -, e⟩ | ⟨-, -, -, e⟩ | ⟨-, -, -, e⟩ | ⟨-, -, -, e⟩
  · rw [e]
  · rw [e]
  · rw [e]
  · rw [e]
    exact le_rfl
  · rw [e]
    exact Nat.le_succ _
  · rw [e]
    exact Nat.le_succ _

/-- A final row is left alone by a claim. -/
theorem claimExisting_of_isFinal (h : job.status.isFinal = true) :
    (claimExisting S args now job).1 = job ∧
      (claimExisting S args now job).2.shouldRun = false := by
  rcases claimExisting_cases S args now job with
    ⟨-, e⟩ | ⟨-, e⟩ | ⟨-, -, e⟩ | ⟨hf, -⟩ | ⟨hf, -⟩ | ⟨hf, -⟩
  · exact ⟨by rw [e], by rw [e]; rfl⟩
  · exact ⟨by rw [e], by rw [e]; rfl⟩
  · exact ⟨by rw [e], by rw [e]; rfl⟩
  · simp [h] at hf
  · simp [h] at hf
  · simp [h] at hf

end Claim

/-! ### What finishing and releasing can do -/

section Settle

variable {S : Settings} {status : JobStatus} {error : Option String} {now : DateTime}
  {job : ApplicationJob}

theorem finishJob_of_isFinal (h : job.status.isFinal = true) :
    finishJob status error now job = job :=
  if_pos h

theorem releaseJobForRetry_of_not_running {delay : ℤ} {error : String} (h : job.status ≠ .running) :
    releaseJobForRetry delay error now job = job :=
  if_pos h

theorem finishJob_of_not_isFinal (h : job.status.isFinal = false) :
    finishJob status error now job = { job with
      status := if status = .failed ∧ exhausted job then .deadLetter else status
      lastError := (given error).map (slice 500)
      finishedAt := some now } := by
  rw [finishJob, if_neg (by simp [h])]

theorem releaseJobForRetry_of_running {delay : ℤ} {error : String} (h : job.status = .running) :
    releaseJobForRetry delay error now job = { job with
      status := .queued
      availableAt := now + timedelta (max 0 delay)
      startedAt := none
      finishedAt := none
      lastError := some (slice 500 error) } := by
  rw [releaseJobForRetry, if_neg (by simp [h])]

/-- A finish leaves every column alone but three. -/
theorem finishJob_frame : finishJob status error now job =
    { job with
      status := (finishJob status error now job).status
      lastError := (finishJob status error now job).lastError
      finishedAt := (finishJob status error now job).finishedAt } := by
  rw [finishJob]
  split <;> rfl

theorem settleJob_of_returnsEarly {outcome : RunnerOutcome} (h : returnsEarly outcome job = true) :
    settleJob S outcome now job = job := by
  cases outcome with
  | returned => exact finishJob_of_isFinal h
  | effectInFlight exc => exact releaseJobForRetry_of_not_running (by simpa [returnsEarly] using h)
  | raised exc => exact finishJob_of_isFinal h

/-- A row that is final is settled by nobody. -/
theorem returnsEarly_of_isFinal (outcome : RunnerOutcome) (h : job.status.isFinal = true) :
    returnsEarly outcome job = true := by
  cases outcome with
  | returned => exact h
  | effectInFlight exc =>
    have hne : job.status ≠ .running := fun hr ↦ by simp [hr, JobStatus.isFinal] at h
    simpa [returnsEarly] using hne
  | raised exc => exact h

/-- **Settling never touches what identifies the row or counts its attempts.** -/
theorem settleJob_frame (outcome : RunnerOutcome) :
    jobSchema.ident (settleJob S outcome now job) = jobSchema.ident job ∧
      (settleJob S outcome now job).attempts = job.attempts := by
  cases outcome with
  | returned =>
    rw [settleJob, finishJob_frame]
    exact ⟨rfl, rfl⟩
  | effectInFlight exc =>
    rw [settleJob, releaseJobForRetry]
    split <;> exact ⟨rfl, rfl⟩
  | raised exc =>
    rw [settleJob, finishJob_frame]
    exact ⟨rfl, rfl⟩

theorem settleJob_deadlineAt (outcome : RunnerOutcome) :
    (settleJob S outcome now job).deadlineAt = job.deadlineAt := by
  cases outcome with
  | returned =>
    rw [settleJob, finishJob_frame]
  | effectInFlight exc =>
    rw [settleJob, releaseJobForRetry]
    split <;> rfl
  | raised exc =>
    rw [settleJob, finishJob_frame]

end Settle

end GenericApp
