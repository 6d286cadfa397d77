import GenericApp.Foundation.Machine
import GenericApp.Rag.IngestionJob
import Mathlib.Data.List.Sort

/-!
# The outbox

`background_job_outbox`: one row per ingestion job that still has to be handed to the broker. A
dispatcher claims a batch of rows and commits, then publishes the claims one after the other, and
acknowledges each in an update guarded by the lease token it was given. The jobs console cancels a row
that is not finished.

`claimEvent`, `ackEvent` and `cancelEvent` say what each of the three does to one row, and
`outboxMachine` runs any number of dispatchers and operators. A claim is one transaction: rows that
another transaction has locked are skipped, and which ones these are is up to the environment. Whatever
ingestion does to a job row in the meantime is up to the environment too. Clock readings need not be
ordered. `issued` and `calls` are not part of the program: they record the claims committed and the
calls of the broker, with whether it accepted them.
-/

namespace GenericApp

open Py

/-! ### The relation -/

/-- `BackgroundJobOutbox.status`, with the `cancelled` that the jobs console writes. -/
inductive OutboxStatus
  | pending | dispatching | dispatched | deadLetter | cancelled
  deriving DecidableEq, Repr

/-- The states in which a row still has to be handed to the broker. -/
def OutboxStatus.isOpen (s : OutboxStatus) : Bool := s = .pending ∨ s = .dispatching

/-- A row of `background_job_outbox`. -/
structure BackgroundJobOutbox where
  id : Uuid
  jobId : Uuid
  jobType : String
  payload : List (String × String)
  status : OutboxStatus
  attempts : ℕ
  availableAt : DateTime
  deadlineAt : Option DateTime
  lockedAt : Option DateTime
  leaseToken : Option Uuid
  dispatchedAt : Option DateTime
  lastError : Option String
  createdAt : DateTime
  deriving DecidableEq, Repr

/-- The primary key, and the unique index on `job_id`. -/
def outboxSchema : Schema BackgroundJobOutbox (Uuid × Uuid) where
  ident row := (row.id, row.jobId)
  Compat a b := a.1 ≠ b.1 ∧ a.2 ≠ b.2

instance : DecidableRel outboxSchema.Compat := fun a b ↦
  inferInstanceAs (Decidable (a.1 ≠ b.1 ∧ a.2 ≠ b.2))

/-- The relation `background_job_outbox`. -/
abbrev OutboxTable := Table outboxSchema

/-- `WHERE id = …` -/
def byOutboxId (id : Uuid) (i : Uuid × Uuid) : Bool := i.1 = id

/-- `WHERE job_id = …` -/
def byJobId (jobId : Uuid) (i : Uuid × Uuid) : Bool := i.2 = jobId

@[simp] theorem byOutboxId_ident (id : Uuid) (row : BackgroundJobOutbox) :
    byOutboxId id (outboxSchema.ident row) = true ↔ row.id = id :=
  decide_eq_true_iff

theorem single_byOutboxId (id : Uuid) : outboxSchema.Single (byOutboxId id) := by
  intro a b hc ha hb
  simp only [byOutboxId, decide_eq_true_eq] at ha hb
  exact hc.1 (ha.trans hb.symm)

/-! ### What happens to one row -/

/-- The row that `enqueue_job_event` adds. -/
def newEvent (id jobId : Uuid) (jobType : String) (payload : List (String × String))
    (deadlineAt : Option DateTime) (now : DateTime) : BackgroundJobOutbox where
  id := id
  jobId := jobId
  jobType := jobType
  payload := payload
  status := .pending
  attempts := 0
  availableAt := now
  deadlineAt := deadlineAt
  lockedAt := none
  leaseToken := none
  dispatchedAt := none
  lastError := none
  createdAt := now

/-- The `WHERE` of `_claim_pending_job_events`. -/
def claimable (S : Settings) (now : DateTime) (row : BackgroundJobOutbox) : Bool :=
  (row.status = .pending ∧ row.availableAt ≤ now) ∨
    (row.status = .dispatching ∧
      row.lockedAt.all (· ≤ now - timedelta S.outboxDispatchLeaseSeconds))

/-- Why a claim gives up on a row, if it does. -/
def deadReason (S : Settings) (now : DateTime) (row : BackgroundJobOutbox) : Option String :=
  if row.deadlineAt.any (· ≤ now) then some "Outbox delivery deadline exceeded"
  else if S.ragIngestionMaxAttempts < row.attempts + 1 then
    some "Outbox delivery exceeded the maximum retry count"
  else none

/-- The row after `_claim_pending_job_events` has claimed it, or has passed it to `_dead_letter`. -/
def claimEvent (S : Settings) (now : DateTime) (leaseToken : Uuid) (row : BackgroundJobOutbox) :
    BackgroundJobOutbox :=
  match deadReason S now row with
  | some reason =>
    -- The claim has counted before `_dead_letter` takes its lease away again.
    { row with
      attempts := row.attempts + 1
      status := .deadLetter
      lastError := some reason
      lockedAt := none
      leaseToken := none
      dispatchedAt := none }
  | none =>
    { row with
      attempts := row.attempts + 1
      status := .dispatching
      lockedAt := some now
      leaseToken := some leaseToken }

/-- What `_dead_letter` does to the job of the row. -/
def failJob (reason : String) (now : DateTime) (job : RagIngestionJob) : RagIngestionJob :=
  if job.status = .completed then job
  else { job with
    status := .failed
    errorMessage := some reason
    finishedAt := some now
    heartbeatAt := some now }

/-- `OutboxClaim`. -/
structure OutboxClaim where
  outboxId : Uuid
  jobId : Uuid
  jobType : String
  payload : List (String × String)
  attempts : ℕ
  leaseToken : Uuid
  deriving DecidableEq, Repr

/-- The claim on a row, where the row is not given up on. -/
def claimOf (S : Settings) (now : DateTime) (leaseToken : Uuid) (row : BackgroundJobOutbox) :
    Option OutboxClaim :=
  if deadReason S now row = none then
    some ⟨row.id, row.jobId, row.jobType, row.payload, row.attempts + 1, leaseToken⟩
  else none

/-- `_ack_claim` on the row of the claim; the error is `none` where the broker accepted it. -/
def ackEvent (claim : OutboxClaim) (error : Option String) (now : DateTime)
    (row : BackgroundJobOutbox) : BackgroundJobOutbox :=
  if row.status = .dispatching ∧ row.leaseToken = some claim.leaseToken then
    match error with
    | none =>
      { row with
        status := .dispatched
        lockedAt := none
        leaseToken := none
        lastError := none
        dispatchedAt := some now }
    | some message =>
      { row with
        status := .pending
        lockedAt := none
        leaseToken := none
        lastError := some (slice 500 (orStr (some message) "Outbox delivery failed"))
        availableAt := now + timedelta (min (60 * claim.attempts) 900)
        dispatchedAt := none }
  else row

/-- `JobsConsoleService.cancel_job` on the row of the job. -/
def cancelEvent (row : BackgroundJobOutbox) : BackgroundJobOutbox :=
  if row.status.isOpen then
    { row with status := .cancelled, lastError := some "cancelled_by_operator" }
  else row

/-! ### The machine -/

/-- Where a dispatcher stands in `dispatch_pending_job_events`. -/
inductive DispatcherPhase
  /-- About to hand the first of these claims to the broker; idle if there are none. -/
  | publishing (claims : List OutboxClaim)
  /-- The broker has answered about this claim, and the rest are still to come. -/
  | acking (claim : OutboxClaim) (now : DateTime) (error : Option String) (rest : List OutboxClaim)

/-- The claims that a dispatcher has committed and not acknowledged. -/
def DispatcherPhase.unpublished : DispatcherPhase → List OutboxClaim
  | publishing claims => claims
  | acking _ _ _ rest => rest

/-- The two relations, the dispatchers and the operators. -/
structure Outbox where
  table : OutboxTable
  jobs : Uuid → Option RagIngestionJob
  phase : ℕ → DispatcherPhase
  /-- The job an operator has found to be pending and is about to cancel. -/
  cancelling : ℕ → Option Uuid
  issued : List OutboxClaim
  calls : List (OutboxClaim × Bool)

/-- The steps, with the clock readings, identifiers and answers that the environment supplies. -/
inductive OutboxAction
  | enqueue (id jobId : Uuid) (jobType : String) (payload : List (String × String)) (now : DateTime)
  | ingest (job : RagIngestionJob)
  | claim (d : ℕ) (now : DateTime) (batchSize : ℕ) (locked : List Uuid) (token : Uuid → Uuid)
  | publish (d : ℕ) (now : DateTime) (error : Option String)
  | ack (d : ℕ)
  | crash (d : ℕ)
  | checkCancel (o : ℕ) (jobId : Uuid)
  | cancel (o : ℕ) (now : DateTime)

namespace Outbox

/-- Two empty relations, and nobody at work. -/
def initial : Outbox where
  table := .empty
  jobs _ := none
  phase _ := .publishing []
  cancelling _ := none
  issued := []
  calls := []

/-- The rows that `_claim_pending_job_events` selects: claimable, not locked by another transaction,
the oldest first, a batch at most. -/
def selected (S : Settings) (s : Outbox) (now : DateTime) (batchSize : ℕ) (locked : List Uuid) :
    List BackgroundJobOutbox :=
  ((s.table.rows.filter fun row ↦ claimable S now row && !locked.contains row.id).insertionSort
    fun a b ↦ a.createdAt ≤ b.createdAt).take batchSize

/-- The jobs after `_dead_letter` has been called for those of the selected rows that it is called
for. -/
def jobsAfterClaim (S : Settings) (s : Outbox) (now : DateTime) (rows : List BackgroundJobOutbox) :
    Uuid → Option RagIngestionJob := fun jobId ↦
  match (rows.find? fun row ↦ row.jobId = jobId).bind (deadReason S now) with
  | none => s.jobs jobId
  | some reason => (s.jobs jobId).map (failJob reason now)

/-- `_claim_pending_job_events`. -/
def claim (S : Settings) (s : Outbox) (d : ℕ) (now : DateTime) (batchSize : ℕ) (locked : List Uuid)
    (token : Uuid → Uuid) : Outbox :=
  let rows := s.selected S now batchSize locked
  let claims := rows.filterMap fun row ↦ claimOf S now (token row.id) row
  { s with
    table := s.table.modify (fun i ↦ (rows.map (·.id)).contains i.1)
      fun row ↦ claimEvent S now (token row.id) row
    jobs := s.jobsAfterClaim S now rows
    phase := Function.update s.phase d (.publishing claims)
    issued := s.issued ++ claims }

/-- `_ack_claim`. -/
def ack (s : Outbox) (d : ℕ) (claim : OutboxClaim) (now : DateTime) (error : Option String)
    (rest : List OutboxClaim) : Outbox :=
  { s with
    table := s.table.modify (byOutboxId claim.outboxId) (ackEvent claim error now)
    phase := Function.update s.phase d (.publishing rest) }

/-- `JobsConsoleService.cancel_job`, from the update of the job on. -/
def cancel (s : Outbox) (o : ℕ) (jobId : Uuid) (now : DateTime) : Outbox :=
  { s with
    jobs := Function.update s.jobs jobId ((s.jobs jobId).map
      (updateIngestionJob .cancelled (some "cancelled_by_operator") false true now))
    table := s.table.modify (byJobId jobId) cancelEvent
    cancelling := Function.update s.cancelling o none }

end Outbox

/-- One step of a dispatcher, an operator, ingestion or an upload. -/
def outboxStep (S : Settings) (s : Outbox) : OutboxAction → Option Outbox
  | .enqueue id jobId jobType payload now =>
    let row := newEvent id jobId jobType payload ((s.jobs jobId).bind (·.deadlineAt)) now
    some { s with table := (s.table.insert row).getD s.table }
  | .ingest job => some { s with jobs := Function.update s.jobs job.id (some job) }
  | .claim d now batchSize locked token =>
    match s.phase d with
    | .publishing [] => some (s.claim S d now batchSize locked token)
    | _ => none
  | .publish d now error =>
    match s.phase d with
    | .publishing (claim :: rest) => some { s with
        phase := Function.update s.phase d (.acking claim now error rest)
        calls := s.calls ++ [(claim, error.isNone)] }
    | _ => none
  | .ack d =>
    match s.phase d with
    | .acking claim now error rest => some (s.ack d claim now error rest)
    | _ => none
  | .crash d => some { s with phase := Function.update s.phase d (.publishing []) }
  | .checkCancel o jobId =>
    if (s.jobs jobId).any fun job ↦ job.status = .pending then
      some { s with cancelling := Function.update s.cancelling o (some jobId) }
    else none
  | .cancel o now =>
    match s.cancelling o with
    | some jobId => some (s.cancel o jobId now)
    | none => none

/-- The outbox, from an empty relation. -/
def outboxMachine (S : Settings) : Machine Outbox OutboxAction where
  init s := s = .initial
  step := outboxStep S

/-! ### What a step can do to a row -/

section Rows

variable {S : Settings} {s t : Outbox} {a : OutboxAction}

/-- **What one step can do to one row.** -/
inductive RowStep (S : Settings) (s : Outbox) (row : BackgroundJobOutbox) :
    OutboxAction → BackgroundJobOutbox → Prop
  | same (a : OutboxAction) : RowStep S s row a row
  | claim {d : ℕ} {now : DateTime} {batchSize : ℕ} {locked : List Uuid} {token : Uuid → Uuid}
    (hclaimable : claimable S now row = true) :
    RowStep S s row (.claim d now batchSize locked token) (claimEvent S now (token row.id) row)
  | ack {d : ℕ} {claim : OutboxClaim} {now : DateTime} {error : Option String}
    {rest : List OutboxClaim} (hphase : s.phase d = .acking claim now error rest)
    (hid : row.id = claim.outboxId) : RowStep S s row (.ack d) (ackEvent claim error now row)
  | cancel (o : ℕ) (now : DateTime) : RowStep S s row (.cancel o now) (cancelEvent row)

theorem ident_claimEvent (now : DateTime) (token : Uuid) (row : BackgroundJobOutbox) :
    outboxSchema.ident (claimEvent S now token row) = outboxSchema.ident row := by
  rw [claimEvent]
  split <;> rfl

theorem ident_cancelEvent (row : BackgroundJobOutbox) :
    outboxSchema.ident (cancelEvent row) = outboxSchema.ident row := by
  rw [cancelEvent]
  split <;> rfl

theorem mem_selected {now : DateTime} {batchSize : ℕ} {locked : List Uuid}
    {row : BackgroundJobOutbox} (h : row ∈ s.selected S now batchSize locked) :
    row ∈ s.table.rows ∧ claimable S now row = true := by
  have hmem := (List.mem_insertionSort _).1 (List.mem_of_mem_take h)
  obtain ⟨hrow, hsel⟩ := List.mem_filter.1 hmem
  exact ⟨hrow, (Bool.and_eq_true _ _ ▸ hsel).1⟩

/-- The selected rows are different rows. -/
theorem selected_pairwise (now : DateTime) (batchSize : ℕ) (locked : List Uuid) :
    (s.selected S now batchSize locked).Pairwise fun a b ↦ a.id ≠ b.id := by
  have hrows : s.table.rows.Pairwise fun a b ↦ a.id ≠ b.id :=
    s.table.compat.imp fun hc ↦ hc.1
  have hsorted := (List.Perm.pairwise_iff (fun h ↦ Ne.symm h)
    (List.perm_insertionSort (fun a b : BackgroundJobOutbox ↦ a.createdAt ≤ b.createdAt)
      (s.table.rows.filter fun row ↦ claimable S now row && !locked.contains row.id))).2
    (hrows.sublist List.filter_sublist)
  exact hsorted.sublist (List.take_sublist _ _)

/-- A row whose id is among the selected ones is selected. -/
theorem mem_selected_of_id {now : DateTime} {batchSize : ℕ} {locked : List Uuid}
    {row : BackgroundJobOutbox} (hrow : row ∈ s.table.rows)
    (hid : ((s.selected S now batchSize locked).map (·.id)).contains row.id = true) :
    row ∈ s.selected S now batchSize locked := by
  rw [List.contains_iff_mem] at hid
  obtain ⟨row', hrow', hid'⟩ := List.mem_map.1 hid
  have heq : row' = row := Table.eq_of_mem_of_sel (single_byOutboxId row.id) (mem_selected hrow').1
    hrow ((byOutboxId_ident _ _).2 hid') ((byOutboxId_ident _ _).2 rfl)
  rwa [heq] at hrow'

/-- The row a claim selects, after the claim. -/
theorem modifyRow_claim {now : DateTime} {batchSize : ℕ} {locked : List Uuid} {token : Uuid → Uuid}
    {row : BackgroundJobOutbox} (hrow : row ∈ s.selected S now batchSize locked) :
    Table.modifyRow outboxSchema
      (fun i ↦ ((s.selected S now batchSize locked).map (·.id)).contains i.1)
      (fun row ↦ claimEvent S now (token row.id) row) row = claimEvent S now (token row.id) row := by
  refine Table.modifyRow_of_pos ?_ (ident_claimEvent _ _ _)
  rw [List.contains_iff_mem]
  exact List.mem_map.2 ⟨row, hrow, rfl⟩

/-- **A row that was there is still there, and one of the four things has happened to it.** -/
theorem step_row {q : Uuid × Uuid → Bool} {row : BackgroundJobOutbox}
    (h : outboxStep S s a = some t) (hfind : s.table.find q = some row) :
    ∃ row', t.table.find q = some row' ∧ outboxSchema.ident row' = outboxSchema.ident row ∧
      RowStep S s row a row' := by
  cases a with
  | enqueue id jobId jobType payload now =>
    obtain rfl := Option.some.inj h
    refine ⟨row, ?_, rfl, .same _⟩
    show (Option.getD _ _ : OutboxTable).find q = some row
    rcases hins : s.table.insert
      (newEvent id jobId jobType payload ((s.jobs jobId).bind (·.deadlineAt)) now) with - | T
    · exact hfind
    · exact Table.find_of_insert_of_some hins hfind
  | ingest job =>
    obtain rfl := Option.some.inj h
    exact ⟨row, hfind, rfl, .same _⟩
  | claim d now batchSize locked token =>
    simp only [outboxStep] at h
    split at h
    · obtain rfl := Option.some.inj h
      refine ⟨_, (Table.find_modify _ _ _ _).trans (by rw [hfind, Option.map_some]),
        Table.ident_modifyRow _ _ _, ?_⟩
      by_cases hsel : row ∈ s.selected S now batchSize locked
      · rw [modifyRow_claim hsel]
        exact .claim (mem_selected hsel).2
      · rw [Table.modifyRow_of_neg]
        · exact .same _
        · rw [← Bool.not_eq_true]
          exact fun hid ↦ hsel (mem_selected_of_id (Table.mem_of_find hfind) hid)
    · cases h
  | publish d now error =>
    simp only [outboxStep] at h
    split at h
    · obtain rfl := Option.some.inj h
      exact ⟨row, hfind, rfl, .same _⟩
    · cases h
  | ack d =>
    simp only [outboxStep] at h
    split at h
    · next claim now error rest hphase =>
      obtain rfl := Option.some.inj h
      refine ⟨_, (Table.find_modify _ _ _ _).trans (by rw [hfind, Option.map_some]),
        Table.ident_modifyRow _ _ _, ?_⟩
      rw [Table.modifyRow]
      split
      · next hid => exact .ack hphase ((byOutboxId_ident _ _).1 hid.1)
      · exact .same _
    · cases h
  | crash d =>
    obtain rfl := Option.some.inj h
    exact ⟨row, hfind, rfl, .same _⟩
  | checkCancel o jobId =>
    simp only [outboxStep] at h
    split at h
    · obtain rfl := Option.some.inj h
      exact ⟨row, hfind, rfl, .same _⟩
    · cases h
  | cancel o now =>
    simp only [outboxStep] at h
    split at h
    · next jobId hcancel =>
      obtain rfl := Option.some.inj h
      refine ⟨_, (Table.find_modify _ _ _ _).trans (by rw [hfind, Option.map_some]),
        Table.ident_modifyRow _ _ _, ?_⟩
      rw [Table.modifyRow]
      split
      · exact .cancel o now
      · exact .same _
    · cases h

end Rows

end GenericApp
