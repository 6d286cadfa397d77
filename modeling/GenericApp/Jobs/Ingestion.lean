import GenericApp.Rag.DocumentIngestion
import GenericApp.Workers.Delivery
import GenericApp.Workers.Outbox

/-!
# An ingestion job, from the upload to the chunks

The parts that handle one ingestion job, put together: the outbox with its dispatchers and operators,
the deliveries of the job's operation with its worker job, and the ingestion service, which the runner
calls. An upload adds the job and its event in one transaction. A dispatcher that publishes the event
puts a message into the queue, whose worker makes sure of the worker job and submits the task. The
runner of the task locks the job, marks it running, and commits the chunks.

Other jobs share the outbox with this one. A call of the broker may fail and deliver nonetheless.
-/

namespace GenericApp

open Py

/-- The outbox, the deliveries about one job, and which of them are past the start of indexing. -/
structure Ingestion where
  outbox : Outbox
  deliveries : Deliveries
  indexing : ℕ → Bool

/-- The steps of the parts, and those that they take together. -/
inductive IngestionAction
  /-- A job is created, and its event added. -/
  | upload (jobId eventId documentId : Uuid) (userId : String) (now : DateTime)
  /-- A step of a dispatcher or an operator that does not concern the queue. -/
  | outbox (a : OutboxAction)
  /-- A dispatcher calls the broker, which delivers the message or does not. -/
  | publish (d : ℕ) (now : DateTime) (error : Option String) (delivered : Bool)
  /-- A step of the broker, a worker or an operator that does not concern the runner. -/
  | delivery (a : DeliveryAction)
  /-- The document is not there, or not the user's. -/
  | refuseDocument (m : ℕ) (error : PyException)
  | startIndexing (m : ℕ) (now : DateTime)
  | touchJob (m : ℕ) (now : DateTime)
  | commitChunks (m : ℕ) (now : DateTime)
  | failIndexing (m : ℕ) (message : String) (now : DateTime)

namespace Ingestion

/-- Nothing yet. -/
def initial : Ingestion := ⟨.initial, .initial, fun _ ↦ false⟩

/-- The next claim that a dispatcher is going to publish. -/
def nextClaim (s : Ingestion) (d : ℕ) : Option OutboxClaim := (s.outbox.phase d).unpublished.head?

/-- `enqueue_document_indexing`: `create_ingestion_job` and `enqueue_job_event`. -/
def upload (S : Settings) (s : Ingestion) (jobId eventId documentId : Uuid) (userId : String)
    (now : DateTime) : Option Ingestion :=
  if s.outbox.jobs jobId = none then
    ((outboxStep S s.outbox (.ingest (createIngestionJob S jobId documentId userId now))).bind fun t ↦
      outboxStep S t (.enqueue eventId jobId "rag-indexing"
        [("document_id", toString documentId), ("user_id", userId), ("job_id", toString jobId)]
        now)).map fun t ↦ { s with outbox := t }
  else none

/-- The runner of delivery `m`, if it is at work: the retries of its message, and whether it is past
the start of indexing. -/
def runner (s : Ingestion) (m : ℕ) : Option (ℕ × Bool) :=
  match s.deliveries.queue[m]? with
  | some (.held (.run retries) .running) => some (retries, s.indexing m)
  | _ => none

/-- The runner of delivery `m` ends. -/
def endRun (s : Ingestion) (m retries : ℕ) (outcome : RunnerOutcome) : Ingestion :=
  { s with
    deliveries := s.deliveries.advance m retries (.ended outcome)
    indexing := Function.update s.indexing m false }

/-- The job of ingestion, written. -/
def setJob (s : Ingestion) (jobId : Uuid) (f : RagIngestionJob → RagIngestionJob) : Ingestion :=
  { s with outbox := { s.outbox with
      jobs := Function.update s.outbox.jobs jobId ((s.outbox.jobs jobId).map f) } }

/-- The runner of delivery `m` locks the job and begins, or ends at once. -/
def start (S : Settings) (s : Ingestion) (jobId : Uuid) (m retries : ℕ) (now : DateTime) : Ingestion :=
  match s.outbox.jobs jobId with
  | none => s.endRun m retries (.raised ⟨"HTTPException", "404: Ingestion job not found"⟩)
  | some job =>
    let start := GenericApp.startIndexing S now job
    let t := s.setJob jobId fun _ ↦ start.job job
    match start.outcome with
    | some outcome => t.endRun m retries outcome
    | none => { t with indexing := Function.update t.indexing m true }

end Ingestion

/-- The steps of the outbox that this machine takes as they are. -/
def OutboxAction.isInternal : OutboxAction → Bool
  | claim .. | ack .. | crash .. | checkCancel .. | cancel .. => true
  | enqueue .. | ingest .. | publish .. => false

/-- The steps of the deliveries that this machine takes as they are. -/
def DeliveryAction.isInternal : DeliveryAction → Bool
  | submit | dispatch | endRun .. => false
  | _ => true

/-- The steps of a runner. -/
def IngestionAction.isRunner : IngestionAction → Bool
  | refuseDocument .. | startIndexing .. | touchJob .. | commitChunks .. | failIndexing .. => true
  | upload .. | outbox .. | publish .. | delivery .. => false

/-- One step. -/
def ingestionStep (S : Settings) (o : Operation) (jobId : Uuid) (s : Ingestion) :
    IngestionAction → Option Ingestion
  | .upload id eventId documentId userId now => s.upload S id eventId documentId userId now
  | .outbox a =>
    if a.isInternal then (outboxStep S s.outbox a).map fun t ↦ { s with outbox := t } else none
  | .publish d now error delivered =>
    if error = none → delivered = true then
      (outboxStep S s.outbox (.publish d now error)).map fun t ↦ { s with
        outbox := t
        -- The messages about other jobs are in queues that are not modelled.
        deliveries :=
          if delivered ∧ (s.nextClaim d).any fun c ↦ c.jobId = jobId then
            { s.deliveries with queue := s.deliveries.queue.post .enqueue }
          else s.deliveries }
    else none
  | .delivery a =>
    if a.isInternal then
      (deliveryStep S o s.deliveries a).map fun t ↦ { s with
        deliveries := t
        -- The runner dies with its worker, and its transaction is rolled back.
        indexing := match a with
          | .die m => Function.update s.indexing m false
          | _ => s.indexing }
    else none
  | .refuseDocument m error =>
    match s.runner m with
    | some (retries, false) => some (s.endRun m retries (.raised error))
    | _ => none
  | .startIndexing m now =>
    match s.runner m with
    | some (retries, false) => some (s.start S jobId m retries now)
    | _ => none
  | .touchJob m now =>
    match s.runner m with
    | some (_, true) => ((s.outbox.jobs jobId).bind (touchJob now)).map fun job ↦
        s.setJob jobId fun _ ↦ job
    | _ => none
  | .commitChunks m now =>
    match s.runner m with
    | some (retries, true) =>
      some ((s.setJob jobId (completeIndexing now)).endRun m retries .returned)
    | _ => none
  | .failIndexing m message now =>
    match s.runner m with
    | some (retries, true) =>
      some ((s.setJob jobId (GenericApp.failIndexing message now)).endRun m retries
        (.raised ⟨"HTTPException", message⟩))
    | _ => none

/-- The handling of one job, whose operation is `o`. -/
def ingestionMachine (S : Settings) (o : Operation) (jobId : Uuid) :
    Machine Ingestion IngestionAction where
  init s := s = .initial
  step := ingestionStep S o jobId

/-! ### What a step can do -/

/-- A job that is there stays there, and is not cancelled. -/
def NotCancelled : Option RagIngestionJob → Option RagIngestionJob → Prop :=
  Option.Rel fun job job' ↦ job'.status = .cancelled → job.status = .cancelled

theorem NotCancelled.refl (job : Option RagIngestionJob) : NotCancelled job job := by
  rcases job with - | job
  · exact .none
  · exact .some id

theorem NotCancelled.map {job : Option RagIngestionJob} {f : RagIngestionJob → RagIngestionJob}
    (hf : ∀ job', job = some job' → (f job').status = .cancelled → job'.status = .cancelled) :
    NotCancelled job (job.map f) := by
  rcases job with - | job
  · exact .none
  · exact .some (hf job rfl)

theorem NotCancelled.eq_none {job job' : Option RagIngestionJob} (h : NotCancelled job job')
    (hnone : job' = none) : job = none := by
  cases h with
  | none => rfl
  | some => cases hnone

theorem NotCancelled.exists_of_cancelled {job job' : Option RagIngestionJob}
    (h : NotCancelled job job') {j : RagIngestionJob} (hjob' : job' = some j)
    (hcancelled : j.status = .cancelled) : ∃ i, job = some i ∧ i.status = .cancelled := by
  cases h with
  | none => cases hjob'
  | some hstatus =>
    obtain rfl := Option.some.inj hjob'
    exact ⟨_, rfl, hstatus hcancelled⟩

/-- **The steps, by the part that takes them.** Of the runner it only says what it leaves alone. -/
inductive IngestionStep (S : Settings) (o : Operation) (jobId : Uuid) (s : Ingestion) :
    IngestionAction → Ingestion → Prop
  | upload {id eventId documentId : Uuid} {userId : String} {now : DateTime} {u v : Outbox}
    (hnone : s.outbox.jobs id = none)
    (hingest : outboxStep S s.outbox (.ingest (createIngestionJob S id documentId userId now)) = some u)
    (henqueue : outboxStep S u (.enqueue eventId id "rag-indexing" [("document_id", toString documentId),
      ("user_id", userId), ("job_id", toString id)] now) = some v) :
    IngestionStep S o jobId s (.upload id eventId documentId userId now) { s with outbox := v }
  | outbox {a : OutboxAction} {v : Outbox} (ha : a.isInternal = true)
    (hstep : outboxStep S s.outbox a = some v) :
    IngestionStep S o jobId s (.outbox a) { s with outbox := v }
  | publish {d : ℕ} {now : DateTime} {error : Option String} {delivered : Bool} {v : Outbox}
    (hstep : outboxStep S s.outbox (.publish d now error) = some v) :
    IngestionStep S o jobId s (.publish d now error delivered) { s with
      outbox := v
      deliveries :=
        if delivered ∧ (s.nextClaim d).any fun c ↦ c.jobId = jobId then
          { s.deliveries with queue := s.deliveries.queue.post .enqueue }
        else s.deliveries }
  | delivery {a : DeliveryAction} {v : Deliveries} {indexing : ℕ → Bool} (ha : a.isInternal = true)
    (hstep : deliveryStep S o s.deliveries a = some v) :
    IngestionStep S o jobId s (.delivery a) { s with deliveries := v, indexing := indexing }
  | runner {a : IngestionAction} {m : ℕ} {t : Ingestion} (ha : a.isRunner = true)
    (hm : s.runner m ≠ none)
    (hrow : t.deliveries.row = s.deliveries.row)
    (hjob : NotCancelled (s.outbox.jobs jobId) (t.outbox.jobs jobId)) : IngestionStep S o jobId s a t

section Step

variable {S : Settings} {o : Operation} {jobId : Uuid} {s t : Ingestion} {a : IngestionAction}

/-- What a write of the job does to it. -/
theorem Ingestion.setJob_jobs {f : RagIngestionJob → RagIngestionJob}
    (hf : ∀ job, s.outbox.jobs jobId = some job → (f job).status = .cancelled →
      job.status = .cancelled) :
    NotCancelled (s.outbox.jobs jobId) ((s.setJob jobId f).outbox.jobs jobId) := by
  show NotCancelled _ (Function.update s.outbox.jobs jobId _ jobId)
  rw [Function.update_self]
  exact .map hf

/-- Beginning leaves the status alone, or makes it `failed` or `running`. -/
theorem startIndexing_status (S : Settings) (now : DateTime) (job : RagIngestionJob) :
    ((startIndexing S now job).job job).status = job.status ∨
      ((startIndexing S now job).job job).status = .failed ∨
      ((startIndexing S now job).job job).status = .running := by
  rw [startIndexing]
  split_ifs
  · exact .inl rfl
  · exact .inl rfl
  · exact .inr (.inl rfl)
  · exact .inr (.inl rfl)
  · exact .inr (.inr rfl)

/-- What the runner of delivery `m` does when it begins. -/
theorem Ingestion.start_step {m retries : ℕ} {now : DateTime} (hm : s.runner m ≠ none) :
    IngestionStep S o jobId s (.startIndexing m now) (s.start S jobId m retries now) := by
  rw [Ingestion.start]
  split
  · exact .runner rfl hm rfl (.refl _)
  · next job hjob =>
    have hf : ∀ job', s.outbox.jobs jobId = some job' →
        ((startIndexing S now job).job job).status = .cancelled → job'.status = .cancelled := by
      intro job' hjob' hcancelled
      obtain rfl : job = job' := Option.some.inj (hjob.symm.trans hjob')
      rcases startIndexing_status S now job with h | h | h <;> rw [h] at hcancelled
      · exact hcancelled
      · cases hcancelled
      · cases hcancelled
    dsimp only
    split
    · exact .runner rfl hm rfl (Ingestion.setJob_jobs hf)
    · exact .runner rfl hm rfl (Ingestion.setJob_jobs hf)

/-- Every enabled step is one of those. -/
theorem ingestionStep_sound (h : ingestionStep S o jobId s a = some t) :
    IngestionStep S o jobId s a t := by
  cases a with
  | upload id eventId documentId userId now =>
    simp only [ingestionStep, Ingestion.upload] at h
    split at h
    · next hnone =>
      obtain ⟨v, hv, rfl⟩ := Option.map_eq_some_iff.1 h
      obtain ⟨u, hingest, henqueue⟩ := Option.bind_eq_some_iff.1 hv
      exact .upload hnone hingest henqueue
    · cases h
  | outbox a =>
    simp only [ingestionStep] at h
    split at h
    · next ha =>
      obtain ⟨v, hstep, rfl⟩ := Option.map_eq_some_iff.1 h
      exact .outbox ha hstep
    · cases h
  | publish d now error delivered =>
    simp only [ingestionStep] at h
    split at h
    · obtain ⟨v, hstep, rfl⟩ := Option.map_eq_some_iff.1 h
      exact .publish hstep
    · cases h
  | delivery a =>
    simp only [ingestionStep] at h
    split at h
    · next ha =>
      obtain ⟨v, hstep, rfl⟩ := Option.map_eq_some_iff.1 h
      exact .delivery ha hstep
    · cases h
  | refuseDocument m error =>
    simp only [ingestionStep] at h
    split at h
    · next hm =>
      obtain rfl := Option.some.inj h
      exact .runner rfl (by rw [hm]; nofun) rfl (.refl _)
    · cases h
  | startIndexing m now =>
    simp only [ingestionStep] at h
    split at h
    · next hm =>
      obtain rfl := Option.some.inj h
      exact Ingestion.start_step (by rw [hm]; nofun)
    · cases h
  | touchJob m now =>
    simp only [ingestionStep] at h
    split at h
    · next hm =>
      obtain ⟨job', htouch, rfl⟩ := Option.map_eq_some_iff.1 h
      obtain ⟨job, hjob, htouch⟩ := Option.bind_eq_some_iff.1 htouch
      refine .runner rfl (by rw [hm]; nofun) rfl (Ingestion.setJob_jobs fun job₀ hjob₀ ↦ ?_)
      obtain rfl : job = job₀ := Option.some.inj (hjob.symm.trans hjob₀)
      rw [touchJob] at htouch
      split at htouch
      · cases htouch
      · obtain rfl := Option.some.inj htouch
        exact id
    · cases h
  | commitChunks m now =>
    simp only [ingestionStep] at h
    split at h
    · next hm =>
      obtain rfl := Option.some.inj h
      refine .runner rfl (by rw [hm]; nofun) rfl (Ingestion.setJob_jobs fun job hjob hcancelled ↦ ?_)
      cases hcancelled
    · cases h
  | failIndexing m message now =>
    simp only [ingestionStep] at h
    split at h
    · next hm =>
      obtain rfl := Option.some.inj h
      refine .runner rfl (by rw [hm]; nofun) rfl (Ingestion.setJob_jobs fun job hjob hcancelled ↦ ?_)
      cases hcancelled
    · cases h

end Step

end GenericApp
