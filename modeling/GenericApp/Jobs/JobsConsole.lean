import GenericApp.Workers.ApplicationJob

/-!
# The jobs console

What an operator does to a worker job. The console reads the row, refuses unless it is queued, and
writes it back with the next commit, without a lock in between; a session keeps the row as it was first
read, so both tests of `cancel_job` are about the same reading. A job of ingestion is cancelled in
another relation, together with its event in the outbox.
-/

namespace GenericApp

open Py

/-- `JobsConsoleService.cancel_job` on a worker job, between its read and its write; `none` is the
answer that only queued jobs can be cancelled. -/
def cancelApplication (now : DateTime) (job : ApplicationJob) : Option ApplicationJob :=
  if job.status ≠ .queued then none
  else some { job with
    status := .cancelled
    finishedAt := some now
    lastError := some "cancelled_by_operator" }

theorem cancelApplication_eq_some {now : DateTime} {job job' : ApplicationJob}
    (h : cancelApplication now job = some job') : job.status = .queued ∧ job' = { job with
      status := .cancelled
      finishedAt := some now
      lastError := some "cancelled_by_operator" } := by
  rw [cancelApplication] at h
  split at h
  · cases h
  · next hqueued => exact ⟨by simpa using hqueued, (Option.some.inj h).symm⟩

end GenericApp
