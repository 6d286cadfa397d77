import GenericApp.Workers.JobService

/-!
# The tracked tasks

What a submission of each task passes to `run_tracked_sync`, as a function of its arguments: the
operation id under which the submission is known, the call that its runner makes, and the limits. A
`Submission` is a message as a producer sends it; `operationId`, `runner` and `claimArgs` are the
bodies of the six tasks.

An operation id is what the producer supplies, or a text that the task composes from some of its
arguments. `KeySource` says which, and from what. Composed texts of different tasks are never the
same, for their prefixes differ; `text_eq_iff` says when two operation ids are equal.
-/

namespace GenericApp

open Py

/-! ### Limits -/

/-- The tracked tasks that are retried. -/
inductive TrackedTask
  | sendEmail | indexRagDocument | cleanupRagDocument | extractTurnMemories
  deriving DecidableEq, Repr

namespace TrackedTask

/-- `max_retries`. -/
def maxRetries : TrackedTask → ℕ
  | sendEmail => 5
  | indexRagDocument => 3
  | cleanupRagDocument => 5
  | extractTurnMemories => 3

/-- `_task_max_attempts`. -/
def maxAttempts (task : TrackedTask) : ℕ := task.maxRetries + 1

/-- The `job_type` of the task. -/
def jobType : TrackedTask → String
  | sendEmail => "email"
  | indexRagDocument => "rag-indexing"
  | cleanupRagDocument => "rag-cleanup"
  | extractTurnMemories => "memory-extraction"

/-- The fields of the payload of the task. -/
def payload : TrackedTask → List String
  | sendEmail => ["to", "subject", "operation_id"]
  | indexRagDocument => ["document_id", "user_id", "job_id"]
  | cleanupRagDocument => ["document_id", "user_id"]
  | extractTurnMemories => ["user_id", "source_message_id"]

/-- The arguments with which the task calls `run_tracked_sync`. -/
def claimArgs (task : TrackedTask) (operation : String) : ClaimArgs where
  jobType := task.jobType
  payload := task.payload
  correlationId := operation
  operationId := some operation
  maxAttempts := task.maxAttempts
  retryable := true
  deadlineAt := none

end TrackedTask

/-- An operation of a task that is retried. The identifiers that stand for one are never empty. -/
structure Operation where
  task : TrackedTask
  id : String
  id_given : id ≠ ""

/-- The arguments of its claims. -/
def Operation.claimArgs (o : Operation) : ClaimArgs := o.task.claimArgs o.id

/-- The arguments with which `enqueue_outbox_job` calls `ensure_queued_job`. -/
def enqueueArgs (jobId : String) : ClaimArgs where
  jobType := "rag-indexing"
  payload := ["document_id", "user_id", "job_id"]
  correlationId := jobId
  operationId := some jobId
  maxAttempts := 4
  retryable := true
  deadlineAt := none

/-! ### Submissions -/

/-- A message to one of the tasks; `recipient` is the argument `to`, `promptVariables` the argument
`variables`, whose values are of any type. -/
inductive Submission (ν : Type)
  | sendEmail (recipient subject htmlBody : String) (textBody operationId : Option String)
  | indexRagDocument (documentId userId : String) (jobId : Option String)
  | cleanupRagDocument (documentId userId : String) (storagePath : Option String)
  | runAiGeneration (userId : String) (promptTemplateKey promptVersionId : Option String)
    (promptVariables : ν) (retrievalQuery : Option String) (documentIds : List String) (topK : ℤ)
    (reviewRequired : Bool)
  | runAiEvaluation (evaluationRunId userId datasetId promptVersionId : String)
  | extractTurnMemories (userId agentId runId : String) (projectId : Option String)
    (userMessage assistantMessage sourceMessageId : String)
  deriving DecidableEq

/-- The call that a runner makes. -/
inductive RunnerCall (ν : Type)
  | sendEmailSync (recipient subject htmlBody : String) (textBody : Option String) (operationId : String)
  | indexDocumentSync (documentId userId : String) (jobId : Option String)
  | cleanupDocumentSync (documentId userId : String) (storagePath : Option String)
  | runAiGenerationSync (userId : String) (promptTemplateKey promptVersionId : Option String)
    (promptVariables : ν) (retrievalQuery : Option String) (documentIds : List String) (topK : ℤ)
    (reviewRequired : Bool)
  | runEvaluationSync (evaluationRunId userId datasetId promptVersionId : String)
  | extractTurnMemoriesSync (userId agentId runId : String) (projectId : Option String)
    (userMessage assistantMessage sourceMessageId : String)
  deriving DecidableEq

/-- An optional string in an f-string. -/
def fstr (s : Option String) : String := s.getD "None"

/-- The second part of the operation id of a generation: `prompt_version_id or prompt_template_key`. -/
def promptReference (promptTemplateKey promptVersionId : Option String) : String :=
  fstr ((given promptVersionId).or promptTemplateKey)

namespace Submission

variable {ν : Type}

/-- The operation id of a submission. -/
def operationId : Submission ν → String
  | sendEmail recipient subject _ _ operationId =>
    orStr operationId ("email:" ++ (recipient ++ ":" ++ subject))
  | indexRagDocument documentId _ jobId => orStr jobId ("rag-document:" ++ documentId)
  | cleanupRagDocument documentId _ _ => "rag-cleanup:" ++ documentId
  | runAiGeneration userId promptTemplateKey promptVersionId _ _ _ _ _ =>
    "ai-generation:" ++ (userId ++ ":" ++ promptReference promptTemplateKey promptVersionId)
  | runAiEvaluation evaluationRunId _ _ _ => evaluationRunId
  | extractTurnMemories _ _ _ _ _ _ sourceMessageId => sourceMessageId

/-- The call that its runner makes. -/
def runner : Submission ν → RunnerCall ν
  | sendEmail recipient subject htmlBody textBody operationId =>
    .sendEmailSync recipient subject htmlBody textBody
      (sendEmail (ν := ν) recipient subject htmlBody textBody operationId).operationId
  | indexRagDocument documentId userId jobId => .indexDocumentSync documentId userId jobId
  | cleanupRagDocument documentId userId storagePath =>
    .cleanupDocumentSync documentId userId storagePath
  | runAiGeneration userId templateKey versionId vars query documentIds topK reviewRequired =>
    .runAiGenerationSync userId templateKey versionId vars query documentIds topK reviewRequired
  | runAiEvaluation runId userId datasetId promptVersionId =>
    .runEvaluationSync runId userId datasetId promptVersionId
  | extractTurnMemories userId agentId runId projectId userMessage assistantMessage messageId =>
    .extractTurnMemoriesSync userId agentId runId projectId userMessage assistantMessage messageId

/-- The arguments with which the task calls `run_tracked_sync`. -/
def claimArgs (a : Submission ν) : ClaimArgs :=
  match a with
  | sendEmail .. => TrackedTask.sendEmail.claimArgs a.operationId
  | indexRagDocument .. => TrackedTask.indexRagDocument.claimArgs a.operationId
  | cleanupRagDocument .. => TrackedTask.cleanupRagDocument.claimArgs a.operationId
  | runAiGeneration .. =>
    ⟨"ai-generation", ["user_id", "prompt_version_id"], a.operationId, some a.operationId, 1, false,
      none⟩
  | runAiEvaluation .. =>
    ⟨"ai-evaluation", ["evaluation_run_id", "user_id"], a.operationId, some a.operationId, 1, false,
      none⟩
  | extractTurnMemories .. => TrackedTask.extractTurnMemories.claimArgs a.operationId

@[simp] theorem claimArgs_operationId (a : Submission ν) :
    a.claimArgs.operationId = some a.operationId := by
  cases a <;> rfl

@[simp] theorem claimArgs_deadlineAt (a : Submission ν) : a.claimArgs.deadlineAt = none := by
  cases a <;> rfl

theorem one_le_maxAttempts (a : Submission ν) : 1 ≤ a.claimArgs.maxAttempts := by
  cases a <;> exact Nat.succ_pos _

end Submission

/-! ### Where operation ids come from -/

/-- Where the operation id of a submission comes from. -/
inductive KeySource
  /-- The producer. -/
  | supplied (key : String)
  /-- The recipient and the subject of an e-mail. -/
  | email (recipientAndSubject : String)
  | ragDocument (documentId : String)
  | ragCleanup (documentId : String)
  /-- The user and the prompt of a generation. -/
  | aiGeneration (userAndPrompt : String)
  deriving DecidableEq

namespace KeySource

/-- The operation id from this source. -/
def text : KeySource → String
  | supplied key => key
  | email s => "email:" ++ s
  | ragDocument s => "rag-document:" ++ s
  | ragCleanup s => "rag-cleanup:" ++ s
  | aiGeneration s => "ai-generation:" ++ s

/-- Two sources give the same operation id. -/
def Meets : KeySource → KeySource → Prop
  | supplied k, b => k = b.text
  | a, supplied k => a.text = k
  | email s, email s' => s = s'
  | ragDocument s, ragDocument s' => s = s'
  | ragCleanup s, ragCleanup s' => s = s'
  | aiGeneration s, aiGeneration s' => s = s'
  | _, _ => False

/-- **Two sources give the same operation id just when they meet.** The texts that two different tasks
compose are never the same. -/
theorem text_eq_iff (a b : KeySource) : a.text = b.text ↔ a.Meets b := by
  cases a with
  | supplied k => cases b <;> exact Iff.rfl
  | email s =>
    cases b with
    | supplied k => exact Iff.rfl
    | email t => exact String.append_right_inj _
    | ragDocument t => exact iff_of_false (append_ne_append s t 1 (by decide) (by decide) (by decide)) id
    | ragCleanup t => exact iff_of_false (append_ne_append s t 1 (by decide) (by decide) (by decide)) id
    | aiGeneration t => exact iff_of_false (append_ne_append s t 1 (by decide) (by decide) (by decide)) id
  | ragDocument s =>
    cases b with
    | supplied k => exact Iff.rfl
    | ragDocument t => exact String.append_right_inj _
    | email t => exact iff_of_false (append_ne_append s t 1 (by decide) (by decide) (by decide)) id
    | ragCleanup t => exact iff_of_false (append_ne_append s t 5 (by decide) (by decide) (by decide)) id
    | aiGeneration t => exact iff_of_false (append_ne_append s t 1 (by decide) (by decide) (by decide)) id
  | ragCleanup s =>
    cases b with
    | supplied k => exact Iff.rfl
    | ragCleanup t => exact String.append_right_inj _
    | email t => exact iff_of_false (append_ne_append s t 1 (by decide) (by decide) (by decide)) id
    | ragDocument t => exact iff_of_false (append_ne_append s t 5 (by decide) (by decide) (by decide)) id
    | aiGeneration t => exact iff_of_false (append_ne_append s t 1 (by decide) (by decide) (by decide)) id
  | aiGeneration s =>
    cases b with
    | supplied k => exact Iff.rfl
    | aiGeneration t => exact String.append_right_inj _
    | email t => exact iff_of_false (append_ne_append s t 1 (by decide) (by decide) (by decide)) id
    | ragDocument t => exact iff_of_false (append_ne_append s t 1 (by decide) (by decide) (by decide)) id
    | ragCleanup t => exact iff_of_false (append_ne_append s t 1 (by decide) (by decide) (by decide)) id

end KeySource

/-- The source of the operation id of a submission. -/
def Submission.source {ν : Type} : Submission ν → KeySource
  | sendEmail recipient subject _ _ operationId =>
    (given operationId).elim (.email (recipient ++ ":" ++ subject)) .supplied
  | indexRagDocument documentId _ jobId => (given jobId).elim (.ragDocument documentId) .supplied
  | cleanupRagDocument documentId _ _ => .ragCleanup documentId
  | runAiGeneration userId promptTemplateKey promptVersionId _ _ _ _ _ =>
    .aiGeneration (userId ++ ":" ++ promptReference promptTemplateKey promptVersionId)
  | runAiEvaluation evaluationRunId _ _ _ => .supplied evaluationRunId
  | extractTurnMemories _ _ _ _ _ _ sourceMessageId => .supplied sourceMessageId

theorem Submission.operationId_eq_text {ν : Type} (a : Submission ν) :
    a.operationId = a.source.text := by
  cases a with
  | sendEmail recipient subject htmlBody textBody key =>
    rw [Submission.operationId, source, orStr]
    rcases given key <;> rfl
  | indexRagDocument documentId userId jobId =>
    rw [Submission.operationId, source, orStr]
    rcases given jobId <;> rfl
  | cleanupRagDocument | runAiGeneration | runAiEvaluation | extractTurnMemories => rfl

end GenericApp
