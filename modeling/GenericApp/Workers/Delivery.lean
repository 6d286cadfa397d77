import GenericApp.Foundation.Machine
import GenericApp.Foundation.Queue
import GenericApp.Jobs.JobsConsole
import GenericApp.Workers.Tasks

/-!
# Deliveries of a tracked task

One operation of a task that is retried: its row, the messages about it, and the workers that take
them. Celery acknowledges a message when the task
function is over (`task_acks_late`), and a worker that dies gives its message back
(`task_reject_on_worker_lost`). An exception in a task is retried as long as retries are left
(`autoretry_for`, and the two calls of `self.retry`): a new message with one more retry is published,
and the old one is acknowledged. With none left the exception is the end of the task, and the message
is acknowledged as well.

A claim is one step, for it is one transaction under a row lock. `_finish_job` and
`_release_job_for_retry` take no lock, so their read and their write are two. The database and the
broker answer every call.

`DeliveryStep` lists what can happen.
-/

namespace GenericApp

open Py

/-! ### The queue and the row -/

/-- What a message asks for. -/
inductive TaskMessage
  /-- `enqueue_outbox_job`. -/
  | enqueue
  /-- The task of the operation, after this many retries. -/
  | run (retries : ℕ)
  deriving DecidableEq

/-- How far a worker has come with a message. -/
inductive Stage
  | received
  /-- `ensure_queued_job` has returned. -/
  | ensured
  /-- In the runner. -/
  | running
  /-- The runner is over. -/
  | ended (outcome : RunnerOutcome)
  /-- `_finish_job` or `_release_job_for_retry` has read the row, and will write it. -/
  | writing (outcome : RunnerOutcome) (now : DateTime) (loaded : ApplicationJob)
  /-- `run_tracked_sync` has raised. -/
  | raised
  /-- The task is over. -/
  | returned
  deriving DecidableEq

/-- The row of the operation, the messages, and the rows that operators are about to cancel. -/
structure Deliveries where
  row : Option ApplicationJob
  queue : Queue TaskMessage Stage
  cancelling : ℕ → Option ApplicationJob

/-- The steps, with the clock readings and identifiers that the environment supplies. -/
inductive DeliveryAction
  | submit
  | dispatch
  | redeliver (m : ℕ)
  | receive (m : ℕ)
  | die (m : ℕ)
  | ensure (m : ℕ) (id : Uuid) (now flushedAt : DateTime)
  | publish (m : ℕ)
  | claim (m : ℕ) (id : Uuid) (now flushedAt : DateTime)
  | endRun (m : ℕ) (outcome : RunnerOutcome)
  | read (m : ℕ) (now : DateTime)
  | write (m : ℕ) (flushedAt : DateTime)
  | conclude (m : ℕ)
  | acknowledge (m : ℕ)
  | checkCancel (o : ℕ)
  | cancel (o : ℕ) (now flushedAt : DateTime)

/-- The stage in which `run_tracked_sync` leaves the task: only a runner that returned does not
raise. -/
def RunnerOutcome.afterwards : RunnerOutcome → Stage
  | returned => .returned
  | effectInFlight _ | raised _ => .raised

namespace Deliveries

/-- No row, no message, and nobody at work. -/
def initial : Deliveries where
  row := none
  queue := []
  cancelling _ := none

/-- Delivery `m` of the task goes on to this stage. -/
def advance (s : Deliveries) (m retries : ℕ) (stage : Stage) : Deliveries :=
  { s with queue := s.queue.put m (.held (.run retries) stage) }

/-- `_claim_job`. -/
def claim (S : Settings) (o : Operation) (s : Deliveries) (m retries : ℕ) (id : Uuid)
    (now flushedAt : DateTime) : Deliveries :=
  match s.row with
  | none => { s.advance m retries .running with
      row := some (claimNew id o.claimArgs now flushedAt) }
  | some job =>
    let r := claimExisting S o.claimArgs now job
    { s.advance m retries (if r.2.shouldRun then .running else .returned) with
      row := some (job.writeBack r.1 flushedAt job) }

/-- The read of `_finish_job` or `_release_job_for_retry`. The claim was about the row of the
operation, and rows are never deleted. -/
def read (s : Deliveries) (m retries : ℕ) (outcome : RunnerOutcome) (now : DateTime) : Deliveries :=
  match s.row with
  | none => s.advance m retries outcome.afterwards
  | some job =>
    if returnsEarly outcome job then s.advance m retries outcome.afterwards
    else s.advance m retries (.writing outcome now job)

end Deliveries

/-- One step of a publisher, the broker, a worker or an operator. -/
def deliveryStep (S : Settings) (o : Operation) (s : Deliveries) :
    DeliveryAction → Option Deliveries
  | .submit => some { s with queue := s.queue.post (.run 0) }
  | .dispatch =>
    if o.task = .indexRagDocument then some { s with queue := s.queue.post .enqueue } else none
  | .redeliver m => (s.queue.redeliver m).map fun queue ↦ { s with queue := queue }
  | .receive m => (s.queue.receive m .received).map fun queue ↦ { s with queue := queue }
  | .die m => (s.queue.lose m).map fun queue ↦ { s with queue := queue }
  | .ensure m id now flushedAt =>
    match s.queue[m]? with
    | some (.held .enqueue .received) => some { s with
        row := some (s.row.getD (queuedNew id (enqueueArgs o.id) now flushedAt))
        queue := s.queue.put m (.held .enqueue .ensured) }
    | _ => none
  | .publish m =>
    match s.queue[m]? with
    | some (.held .enqueue .ensured) => some { s with
        queue := (s.queue.put m (.held .enqueue .returned)).post (.run 0) }
    | _ => none
  | .claim m id now flushedAt =>
    match s.queue[m]? with
    | some (.held (.run retries) .received) => some (s.claim S o m retries id now flushedAt)
    | _ => none
  | .endRun m outcome =>
    match s.queue[m]? with
    | some (.held (.run retries) .running) => some (s.advance m retries (.ended outcome))
    | _ => none
  | .read m now =>
    match s.queue[m]? with
    | some (.held (.run retries) (.ended outcome)) => some (s.read m retries outcome now)
    | _ => none
  | .write m flushedAt =>
    match s.queue[m]? with
    | some (.held (.run retries) (.writing outcome now loaded)) =>
      some { s.advance m retries outcome.afterwards with
        row := s.row.map (loaded.writeBack (settleJob S outcome now loaded) flushedAt) }
    | _ => none
  | .conclude m =>
    match s.queue[m]? with
    | some (.held (.run retries) .raised) =>
      let t := s.advance m retries .returned
      -- `self.retry` publishes the next message; the old one is acknowledged all the same.
      if retries < o.task.maxRetries then some { t with queue := t.queue.post (.run (retries + 1)) }
      else some t
    | _ => none
  | .acknowledge m =>
    match s.queue[m]? with
    | some (.held _ .returned) => some { s with queue := s.queue.put m .acknowledged }
    | _ => none
  | .checkCancel operator =>
    -- What the operator has loaded now is what `cancel` tests and writes over.
    if s.row.any fun job ↦ job.status = .queued then
      some { s with cancelling := Function.update s.cancelling operator s.row }
    else none
  | .cancel operator now flushedAt =>
    match (s.cancelling operator).bind fun loaded ↦
      (cancelApplication now loaded).map fun modified ↦ (loaded, modified) with
    | some (loaded, modified) => some { s with
        row := s.row.map (loaded.writeBack modified flushedAt)
        cancelling := Function.update s.cancelling operator none }
    | none => none

/-- The deliveries of one operation, from before it was submitted. -/
def deliveryMachine (S : Settings) (o : Operation) : Machine Deliveries DeliveryAction where
  init s := s = .initial
  step := deliveryStep S o

/-! ### What a step can do -/

/-- **The steps, one by one**, each with what it requires and the state it leaves. -/
inductive DeliveryStep (S : Settings) (o : Operation) (s : Deliveries) :
    DeliveryAction → Deliveries → Prop
  /-- A message is published, by a producer or once more. -/
  | post {a : DeliveryAction} {body : TaskMessage}
    (hbody : (a = .dispatch ∧ body = .enqueue ∧ o.task = .indexRagDocument) ∨
      (a = .submit ∧ body = .run 0) ∨ .waiting body ∈ s.queue ∨ ∃ stage, .held body stage ∈ s.queue) :
    DeliveryStep S o s a { s with queue := s.queue.post body }
  | receive {m : ℕ} {body : TaskMessage} (hm : s.queue[m]? = some (.waiting body)) :
    DeliveryStep S o s (.receive m) { s with queue := s.queue.put m (.held body .received) }
  | die {m : ℕ} {body : TaskMessage} {stage : Stage} (hm : s.queue[m]? = some (.held body stage)) :
    DeliveryStep S o s (.die m) { s with queue := s.queue.put m (.waiting body) }
  | ensure {m : ℕ} {id : Uuid} {now flushedAt : DateTime}
    (hm : s.queue[m]? = some (.held .enqueue .received)) :
    DeliveryStep S o s (.ensure m id now flushedAt) { s with
      row := some (s.row.getD (queuedNew id (enqueueArgs o.id) now flushedAt))
      queue := s.queue.put m (.held .enqueue .ensured) }
  | publish {m : ℕ} (hm : s.queue[m]? = some (.held .enqueue .ensured)) :
    DeliveryStep S o s (.publish m) { s with
      queue := (s.queue.put m (.held .enqueue .returned)).post (.run 0) }
  | claim {m retries : ℕ} {id : Uuid} {now flushedAt : DateTime}
    (hm : s.queue[m]? = some (.held (.run retries) .received)) :
    DeliveryStep S o s (.claim m id now flushedAt) (s.claim S o m retries id now flushedAt)
  | endRun {m retries : ℕ} {outcome : RunnerOutcome}
    (hm : s.queue[m]? = some (.held (.run retries) .running)) :
    DeliveryStep S o s (.endRun m outcome) (s.advance m retries (.ended outcome))
  | read {m retries : ℕ} {outcome : RunnerOutcome} {now : DateTime}
    (hm : s.queue[m]? = some (.held (.run retries) (.ended outcome))) :
    DeliveryStep S o s (.read m now) (s.read m retries outcome now)
  | write {m retries : ℕ} {outcome : RunnerOutcome} {now flushedAt : DateTime}
    {loaded : ApplicationJob}
    (hm : s.queue[m]? = some (.held (.run retries) (.writing outcome now loaded))) :
    DeliveryStep S o s (.write m flushedAt) { s.advance m retries outcome.afterwards with
      row := s.row.map (loaded.writeBack (settleJob S outcome now loaded) flushedAt) }
  | retry {m retries : ℕ} (hm : s.queue[m]? = some (.held (.run retries) .raised))
    (hleft : retries < o.task.maxRetries) :
    DeliveryStep S o s (.conclude m) { s with
      queue := (s.queue.put m (.held (.run retries) .returned)).post (.run (retries + 1)) }
  | fail {m retries : ℕ} (hm : s.queue[m]? = some (.held (.run retries) .raised))
    (hnone : o.task.maxRetries ≤ retries) :
    DeliveryStep S o s (.conclude m) (s.advance m retries .returned)
  | acknowledge {m : ℕ} {body : TaskMessage} (hm : s.queue[m]? = some (.held body .returned)) :
    DeliveryStep S o s (.acknowledge m) { s with queue := s.queue.put m .acknowledged }
  | checkCancel {operator : ℕ} (hqueued : ∀ job, s.row = some job → job.status = .queued) :
    DeliveryStep S o s (.checkCancel operator)
      { s with cancelling := Function.update s.cancelling operator s.row }
  | cancel {operator : ℕ} {now flushedAt : DateTime} {loaded modified : ApplicationJob}
    (hloaded : s.cancelling operator = some loaded)
    (hmodified : cancelApplication now loaded = some modified) :
    DeliveryStep S o s (.cancel operator now flushedAt) { s with
      row := s.row.map (loaded.writeBack modified flushedAt)
      cancelling := Function.update s.cancelling operator none }

/-- Every enabled step is one of those. -/
theorem deliveryStep_sound {S : Settings} {o : Operation} {s t : Deliveries} {a : DeliveryAction}
    (h : deliveryStep S o s a = some t) : DeliveryStep S o s a t := by
  cases a with
  | submit =>
    obtain rfl := Option.some.inj h
    exact .post (.inr (.inl ⟨rfl, rfl⟩))
  | dispatch =>
    simp only [deliveryStep] at h
    split at h
    · next htask =>
      obtain rfl := Option.some.inj h
      exact .post (.inl ⟨rfl, rfl, htask⟩)
    · cases h
  | redeliver m =>
    obtain ⟨q, hq, rfl⟩ := Option.map_eq_some_iff.1 h
    obtain ⟨body, hm, rfl⟩ := Queue.redeliver_eq_some hq
    refine .post (.inr (.inr ?_))
    exact hm.imp Queue.mem_of_getElem? fun ⟨stage, hstage⟩ ↦ ⟨stage, Queue.mem_of_getElem? hstage⟩
  | receive m =>
    obtain ⟨q, hq, rfl⟩ := Option.map_eq_some_iff.1 h
    obtain ⟨body, hm, rfl⟩ := Queue.receive_eq_some hq
    exact .receive hm
  | die m =>
    obtain ⟨q, hq, rfl⟩ := Option.map_eq_some_iff.1 h
    obtain ⟨body, stage, hm, rfl⟩ := Queue.lose_eq_some hq
    exact .die hm
  | conclude m =>
    simp only [deliveryStep] at h
    split at h
    · next retries hm =>
      split at h
      · next hleft =>
        obtain rfl := Option.some.inj h
        exact .retry hm hleft
      · next hnone =>
        obtain rfl := Option.some.inj h
        exact .fail hm (Nat.le_of_not_lt hnone)
    · cases h
  | checkCancel operator =>
    simp only [deliveryStep] at h
    split at h
    · next hqueued =>
      obtain rfl := Option.some.inj h
      exact .checkCancel fun job hjob ↦ by simpa [hjob] using hqueued
    · cases h
  | cancel operator now flushedAt =>
    simp only [deliveryStep] at h
    split at h
    · next loaded modified hcancel =>
      obtain rfl := Option.some.inj h
      obtain ⟨loaded', hloaded, hmap⟩ := Option.bind_eq_some_iff.1 hcancel
      obtain ⟨modified', hmodified, heq⟩ := Option.map_eq_some_iff.1 hmap
      obtain ⟨rfl, rfl⟩ := Prod.mk.inj heq
      exact .cancel hloaded hmodified
    · cases h
  | ensure m id now flushedAt =>
    simp only [deliveryStep] at h
    split at h
    · next hm => exact Option.some.inj h ▸ .ensure hm
    · cases h
  | publish m =>
    simp only [deliveryStep] at h
    split at h
    · next hm => exact Option.some.inj h ▸ .publish hm
    · cases h
  | claim m id now flushedAt =>
    simp only [deliveryStep] at h
    split at h
    · next hm => exact Option.some.inj h ▸ .claim hm
    · cases h
  | endRun m outcome =>
    simp only [deliveryStep] at h
    split at h
    · next hm => exact Option.some.inj h ▸ .endRun hm
    · cases h
  | read m now =>
    simp only [deliveryStep] at h
    split at h
    · next hm => exact Option.some.inj h ▸ .read hm
    · cases h
  | write m flushedAt =>
    simp only [deliveryStep] at h
    split at h
    · next hm => exact Option.some.inj h ▸ .write hm
    · cases h
  | acknowledge m =>
    simp only [deliveryStep] at h
    split at h
    · next hm => exact Option.some.inj h ▸ .acknowledge hm
    · cases h

end GenericApp
