import GenericApp.Foundation.Python

/-!
# Runtime settings

The settings read by the modelled code. `Settings` refuses to load a value outside its bounds, so
the bounds are fields: a `Settings` that the program could not be running with cannot be built.
`RAG_INGESTION_MAX_ATTEMPTS` has no bound in the source and is a natural number here; at zero or
below it nothing is ever handed on.
-/

namespace GenericApp

/-- The fields of `backend.core.config.Settings` that the modelled code reads. -/
structure Settings where
  /-- `OUTBOX_DISPATCH_LEASE_SECONDS` -/
  outboxDispatchLeaseSeconds : ℕ
  /-- `EXTERNAL_EFFECT_LEASE_SECONDS` -/
  externalEffectLeaseSeconds : ℕ
  /-- `WORKER_JOB_RUNNING_LEASE_SECONDS` -/
  workerJobRunningLeaseSeconds : ℕ
  /-- `WORKER_JOB_DEFAULT_MAX_ATTEMPTS` -/
  workerJobDefaultMaxAttempts : ℕ
  /-- `RAG_INGESTION_MAX_ATTEMPTS` -/
  ragIngestionMaxAttempts : ℕ
  /-- `RAG_INGESTION_JOB_TIMEOUT_SECONDS` -/
  ragIngestionJobTimeoutSeconds : ℤ
  /-- `RAG_MAX_DOCUMENT_CHUNKS` -/
  ragMaxDocumentChunks : ℤ
  /-- `bounded_positive["OUTBOX_DISPATCH_LEASE_SECONDS"]` -/
  outboxDispatchLease_bounds : 30 ≤ outboxDispatchLeaseSeconds ∧ outboxDispatchLeaseSeconds ≤ 3600
  /-- `bounded_positive["EXTERNAL_EFFECT_LEASE_SECONDS"]` -/
  externalEffectLease_bounds : 30 ≤ externalEffectLeaseSeconds ∧ externalEffectLeaseSeconds ≤ 3600
  /-- `bounded_positive["WORKER_JOB_RUNNING_LEASE_SECONDS"]` -/
  workerJobRunningLease_bounds :
    30 ≤ workerJobRunningLeaseSeconds ∧ workerJobRunningLeaseSeconds ≤ 7200
  /-- `bounded_positive["WORKER_JOB_DEFAULT_MAX_ATTEMPTS"]` -/
  workerJobDefaultMaxAttempts_bounds :
    1 ≤ workerJobDefaultMaxAttempts ∧ workerJobDefaultMaxAttempts ≤ 50

/-- The values the program starts with when nothing is overridden. -/
def Settings.default : Settings where
  outboxDispatchLeaseSeconds := 600
  externalEffectLeaseSeconds := 600
  workerJobRunningLeaseSeconds := 900
  workerJobDefaultMaxAttempts := 3
  ragIngestionMaxAttempts := 3
  ragIngestionJobTimeoutSeconds := 1800
  ragMaxDocumentChunks := 5000
  outboxDispatchLease_bounds := by decide
  externalEffectLease_bounds := by decide
  workerJobRunningLease_bounds := by decide
  workerJobDefaultMaxAttempts_bounds := by decide

end GenericApp
