import GenericApp.Workers.ApplicationJob

/-!
# The ingestion job record

`rag_ingestion_jobs`: one row per attempt to index a document. It is written by the ingestion service,
by the outbox, which fails the job of an event it gives up on, and by the jobs console, which cancels
it.
-/

namespace GenericApp

open Py

/-- `IngestionJobStatus`. -/
inductive IngestionJobStatus
  | pending | running | completed | failed | cancelled
  deriving DecidableEq, Repr

/-- A row of `rag_ingestion_jobs`. -/
structure RagIngestionJob where
  id : Uuid
  documentId : Uuid
  userId : String
  status : IngestionJobStatus
  errorMessage : Option String
  attempts : ℕ
  deadlineAt : Option DateTime
  heartbeatAt : Option DateTime
  startedAt : Option DateTime
  finishedAt : Option DateTime
  createdAt : DateTime
  deriving DecidableEq, Repr

/-- `RagRepository.create_ingestion_job`. -/
def createIngestionJob (S : Settings) (id documentId : Uuid) (userId : String) (now : DateTime) :
    RagIngestionJob where
  id := id
  documentId := documentId
  userId := userId
  status := .pending
  errorMessage := none
  attempts := 0
  deadlineAt := some (now + timedelta S.ragIngestionJobTimeoutSeconds)
  heartbeatAt := none
  startedAt := none
  finishedAt := none
  createdAt := now

/-- `RagRepository.update_ingestion_job`. -/
def updateIngestionJob (status : IngestionJobStatus) (errorMessage : Option String)
    (started finished : Bool) (now : DateTime) (job : RagIngestionJob) : RagIngestionJob :=
  { job with
    status := status
    errorMessage := errorMessage.or job.errorMessage
    startedAt := if started then some now else job.startedAt
    attempts := if started then job.attempts + 1 else job.attempts
    heartbeatAt := some now
    finishedAt := if finished then some now else job.finishedAt }

end GenericApp
