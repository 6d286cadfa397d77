import GenericApp.Core.Settings
import GenericApp.Foundation.Table

/-!
# The durable job record

`application_jobs`: one row per logical worker operation. Rows are looked up in two ways, by primary
key and by `operation_id`, and both are constrained: the primary key, and the partial unique index
`uq_application_jobs_operation_id` over the rows whose `operation_id` is not null. `jobSchema` states
the two constraints, `byId` and `byOperation` are the two lookups, and `single_byId` and
`single_byOperation` say that each of them finds *the* row.

A session writes a row back by emitting an `UPDATE` of the columns it **changed**, keyed by primary
key, whatever another transaction committed to the other columns in between. `writeBack` is that
write: it takes the row as the session loaded it, the row as the session left it, and the row that is
in the table when the statement runs.
-/

namespace GenericApp

open Py

/-- A primary key: `str(uuid4())`. -/
abbrev Uuid := ℕ

/-- `ApplicationJob.status`. -/
inductive JobStatus
  | queued | running | succeeded | failed | deadLetter | cancelled
  deriving DecidableEq, Repr

/-- The two states that `_finish_job` never leaves and `_claim_job` never runs again. -/
def JobStatus.isFinal (s : JobStatus) : Bool := s = .succeeded ∨ s = .deadLetter

/-- What `_safe_payload` keeps of a payload: the names of its fields. -/
structure SafePayload where
  fieldNames : List String
  source : String
  deriving DecidableEq, Repr

/-- A row of `application_jobs`. -/
structure ApplicationJob where
  id : Uuid
  jobType : String
  status : JobStatus
  correlationId : String
  operationId : Option String
  payload : SafePayload
  attempts : ℕ
  maxAttempts : ℕ
  retryable : Bool
  availableAt : DateTime
  deadlineAt : Option DateTime
  startedAt : Option DateTime
  finishedAt : Option DateTime
  lastError : Option String
  createdAt : DateTime
  updatedAt : DateTime
  deriving DecidableEq, Repr

namespace ApplicationJob

/-! ### Writing a row back -/

/-- The value a column has after an `UPDATE` of the changed columns. -/
def column {α : Type} [DecidableEq α] (loaded modified current : α) : α :=
  if modified = loaded then current else modified

/-- `UPDATE application_jobs SET <changed columns> WHERE id = <pk>`, with `updated_at` stamped by
`onupdate`. A session that changed nothing emits no statement. -/
def writeBack (loaded modified : ApplicationJob) (flushedAt : DateTime) (current : ApplicationJob) :
    ApplicationJob :=
  if modified = loaded then current else
  { id := current.id
    jobType := column loaded.jobType modified.jobType current.jobType
    status := column loaded.status modified.status current.status
    correlationId := column loaded.correlationId modified.correlationId current.correlationId
    operationId := current.operationId
    payload := column loaded.payload modified.payload current.payload
    attempts := column loaded.attempts modified.attempts current.attempts
    maxAttempts := column loaded.maxAttempts modified.maxAttempts current.maxAttempts
    retryable := column loaded.retryable modified.retryable current.retryable
    availableAt := column loaded.availableAt modified.availableAt current.availableAt
    deadlineAt := column loaded.deadlineAt modified.deadlineAt current.deadlineAt
    startedAt := column loaded.startedAt modified.startedAt current.startedAt
    finishedAt := column loaded.finishedAt modified.finishedAt current.finishedAt
    lastError := column loaded.lastError modified.lastError current.lastError
    createdAt := column loaded.createdAt modified.createdAt current.createdAt
    updatedAt := flushedAt }

@[simp] theorem column_same {α : Type} [DecidableEq α] (a c : α) : column a a c = c := if_pos rfl

/-- Written over the value it was computed from, a column takes the new value. -/
@[simp] theorem column_self {α : Type} [DecidableEq α] (a b : α) : column a b a = b := by
  rw [column]
  split
  · next h => exact h.symm
  · rfl

@[simp] theorem writeBack_id (l m c : ApplicationJob) (t : DateTime) :
    (writeBack l m t c).id = c.id := by
  rw [writeBack]
  split <;> rfl

@[simp] theorem writeBack_operationId (l m c : ApplicationJob) (t : DateTime) :
    (writeBack l m t c).operationId = c.operationId := by
  rw [writeBack]
  split <;> rfl

/-- A column the session left alone keeps whatever is committed there. -/
theorem writeBack_attempts {l m : ApplicationJob} (h : m.attempts = l.attempts) (t : DateTime)
    (c : ApplicationJob) : (writeBack l m t c).attempts = c.attempts := by
  rw [writeBack]
  split
  · rfl
  · simp [h]

theorem writeBack_maxAttempts {l m : ApplicationJob} (h : m.maxAttempts = l.maxAttempts)
    (t : DateTime) (c : ApplicationJob) : (writeBack l m t c).maxAttempts = c.maxAttempts := by
  rw [writeBack]
  split
  · rfl
  · simp [h]

theorem writeBack_retryable {l m : ApplicationJob} (h : m.retryable = l.retryable) (t : DateTime)
    (c : ApplicationJob) : (writeBack l m t c).retryable = c.retryable := by
  rw [writeBack]
  split
  · rfl
  · simp [h]

theorem writeBack_deadlineAt {l m : ApplicationJob} (h : m.deadlineAt = l.deadlineAt) (t : DateTime)
    (c : ApplicationJob) : (writeBack l m t c).deadlineAt = c.deadlineAt := by
  rw [writeBack]
  split
  · rfl
  · simp [h]

theorem writeBack_status (l m : ApplicationJob) (t : DateTime) (c : ApplicationJob) :
    (writeBack l m t c).status = column l.status m.status c.status := by
  rw [writeBack]
  split
  · next h => simp [h]
  · rfl

theorem writeBack_attempts_self (l m : ApplicationJob) (t : DateTime) :
    (writeBack l m t l).attempts = m.attempts := by
  rw [writeBack]
  split
  · next h => rw [h]
  · exact column_self _ _

theorem writeBack_maxAttempts_self (l m : ApplicationJob) (t : DateTime) :
    (writeBack l m t l).maxAttempts = m.maxAttempts := by
  rw [writeBack]
  split
  · next h => rw [h]
  · exact column_self _ _

theorem writeBack_retryable_self (l m : ApplicationJob) (t : DateTime) :
    (writeBack l m t l).retryable = m.retryable := by
  rw [writeBack]
  split
  · next h => rw [h]
  · exact column_self _ _

/-- A status that the session changed is the status of the row, whatever was there. -/
theorem writeBack_status_of_ne {l m : ApplicationJob} (h : m.status ≠ l.status) (t : DateTime)
    (c : ApplicationJob) : (writeBack l m t c).status = m.status := by
  rw [writeBack_status, column, if_neg h]

theorem writeBack_status_self (l m : ApplicationJob) (t : DateTime) :
    (writeBack l m t l).status = m.status := by
  rw [writeBack_status, column_self]

/-- Over the row it was loaded from, a write leaves exactly the modified row, up to `updated_at`. -/
theorem writeBack_self {l m : ApplicationJob} (hid : m.id = l.id)
    (hop : m.operationId = l.operationId) (hne : m ≠ l) (t : DateTime) :
    writeBack l m t l = { m with updatedAt := t } := by
  rw [writeBack, if_neg hne]
  simp [hid, hop]

end ApplicationJob

/-! ### The relation -/

/-- The primary key and `uq_application_jobs_operation_id`. -/
def jobSchema : Schema ApplicationJob (Uuid × Option String) where
  ident job := (job.id, job.operationId)
  Compat a b := a.1 ≠ b.1 ∧ (a.2 = none ∨ a.2 ≠ b.2)

instance : DecidableRel jobSchema.Compat := fun a b ↦
  inferInstanceAs (Decidable (a.1 ≠ b.1 ∧ (a.2 = none ∨ a.2 ≠ b.2)))

/-- The relation `application_jobs`. -/
abbrev JobTable := Table jobSchema

/-- `WHERE id = …` -/
def byId (id : Uuid) (i : Uuid × Option String) : Bool := i.1 = id

/-- `WHERE operation_id = …` -/
def byOperation (op : String) (i : Uuid × Option String) : Bool := i.2 = some op

@[simp] theorem byId_ident (id : Uuid) (job : ApplicationJob) :
    byId id (jobSchema.ident job) = true ↔ job.id = id :=
  decide_eq_true_iff

@[simp] theorem byOperation_ident (op : String) (job : ApplicationJob) :
    byOperation op (jobSchema.ident job) = true ↔ job.operationId = some op :=
  decide_eq_true_iff

theorem single_byId (id : Uuid) : jobSchema.Single (byId id) := by
  intro a b hc ha hb
  simp only [byId, decide_eq_true_eq] at ha hb
  exact hc.1 (ha.trans hb.symm)

theorem single_byOperation (op : String) : jobSchema.Single (byOperation op) := by
  intro a b hc ha hb
  simp only [byOperation, decide_eq_true_eq] at ha hb
  rcases hc.2 with h | h
  · simp [ha] at h
  · exact h (ha.trans hb.symm)

end GenericApp
