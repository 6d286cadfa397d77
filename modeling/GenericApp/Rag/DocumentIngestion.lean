import GenericApp.Rag.IngestionJob
import GenericApp.Workers.JobService

/-!
# How indexing begins and ends

The job row as `DocumentIngestionService.index_document` treats it: what it does with the row that it
has locked, before it starts on the document, and how it leaves the row afterwards.
-/

namespace GenericApp

open Py

/-- What `index_document` decides about the job that it has locked. -/
inductive IndexingStart
  /-- The job is done, and there is nothing to do. -/
  | completed
  /-- The job is being worked on, and the delivery is deferred. -/
  | busy
  /-- The job is over. -/
  | refused (job : RagIngestionJob) (detail : String)
  /-- The job is running. -/
  | started (job : RagIngestionJob)
  deriving DecidableEq, Repr

/-- `index_document`, up to the commit of the running job. -/
def startIndexing (S : Settings) (now : DateTime) (job : RagIngestionJob) : IndexingStart :=
  if job.status = .completed then .completed
  else if job.status = .running ∧
      job.heartbeatAt.any fun t ↦ now - t < timedelta S.outboxDispatchLeaseSeconds then .busy
  else if job.deadlineAt.any (· ≤ now) then
    .refused (updateIngestionJob .failed (some "Ingestion job deadline exceeded") false true now job)
      "Ingestion job deadline exceeded"
  else if S.ragIngestionMaxAttempts ≤ job.attempts then
    .refused (updateIngestionJob .failed (some "Ingestion job retry limit exceeded") false true now job)
      "Ingestion job retry limit exceeded"
  else .started (updateIngestionJob .running none true false now job)

section Start

variable {S : Settings} {now : DateTime} {job job' : RagIngestionJob} {detail : String}

/-- A job that begins was not completed. -/
theorem startIndexing_started (h : startIndexing S now job = .started job') :
    job.status ≠ .completed ∧ job' = updateIngestionJob .running none true false now job := by
  rw [startIndexing] at h
  split at h
  · exact nomatch h
  · next hcompleted =>
    split at h
    · exact nomatch h
    · split at h
      · exact nomatch h
      · split at h
        · exact nomatch h
        · exact ⟨hcompleted, (IndexingStart.started.inj h).symm⟩

/-- A job that is refused was not completed, and has failed. -/
theorem startIndexing_refused (h : startIndexing S now job = .refused job' detail) :
    job.status ≠ .completed ∧ job' = updateIngestionJob .failed (some detail) false true now job := by
  rw [startIndexing] at h
  split at h
  · exact nomatch h
  · next hcompleted =>
    split at h
    · exact nomatch h
    · split at h
      · obtain ⟨rfl, rfl⟩ := IndexingStart.refused.inj h
        exact ⟨hcompleted, rfl⟩
      · split at h
        · obtain ⟨rfl, rfl⟩ := IndexingStart.refused.inj h
          exact ⟨hcompleted, rfl⟩
        · exact nomatch h

end Start

/-- How the runner ends if indexing does not begin. -/
def IndexingStart.outcome : IndexingStart → Option RunnerOutcome
  | completed => some .returned
  | busy => some (.raised ⟨"IngestionJobBusyError", "Ingestion job is still active"⟩)
  | refused _ detail => some (.raised ⟨"HTTPException", "409: " ++ detail⟩)
  | started _ => none

/-- The job as `index_document` has committed it. -/
def IndexingStart.job (start : IndexingStart) (job : RagIngestionJob) : RagIngestionJob :=
  match start with
  | completed | busy => job
  | refused job' _ | started job' => job'

/-- `_touch_job`; past the deadline it raises. -/
def touchJob (now : DateTime) (job : RagIngestionJob) : Option RagIngestionJob :=
  if job.deadlineAt.any (· ≤ now) then none else some { job with heartbeatAt := some now }

theorem touchJob_eq_some {now : DateTime} {job job' : RagIngestionJob}
    (h : touchJob now job = some job') : job' = { job with heartbeatAt := some now } := by
  rw [touchJob] at h
  split at h
  · exact nomatch h
  · exact (Option.some.inj h).symm

/-- The job when the chunks are committed. -/
def completeIndexing (now : DateTime) (job : RagIngestionJob) : RagIngestionJob :=
  updateIngestionJob .completed none false true now job

/-- The job when indexing has failed. -/
def failIndexing (message : String) (now : DateTime) (job : RagIngestionJob) : RagIngestionJob :=
  updateIngestionJob .failed (some message) false true now job

end GenericApp
