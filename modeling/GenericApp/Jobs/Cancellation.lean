import GenericApp.Jobs.Ingestion
import GenericApp.Workers.OutboxLease

/-!
# Whether a cancelled job runs

An operator may cancel the worker job, `cancelApplication`, or the job of ingestion, `Outbox.cancel`.
Both write `cancelled` into a row, and the second closes the event as well. But nobody who takes a
message looks for that status: a claim of the worker job makes a cancelled row `running` or buries it,
and `index_document` begins on a job that is `cancelled`. So what decides is whether anything about the
job is still on its way when the operator commits: a message that has not been acknowledged, a claim of
the event that a dispatcher has yet to publish, or an event that can still be claimed. `Closed` says
that there is nothing of the kind, and no step but the upload of the job ends it.

* `cancelled_never_runs`: where operators cancel only what is closed, cancelled jobs never run.
* `cancelled_jobs_run`: both kinds of cancelled jobs run.
-/

namespace GenericApp

open Machine Py

variable {S : Settings} {o : Operation} {jobId : Uuid}

/-! ### The outbox -/

/-- `WHERE job_id = …` selects one row at most. -/
theorem single_byJobId (jobId : Uuid) : outboxSchema.Single (byJobId jobId) := by
  intro a b hc ha hb
  simp only [byJobId, decide_eq_true_eq] at ha hb
  exact hc.2 (ha.trans hb.symm)

@[simp] theorem byJobId_ident (jobId : Uuid) (row : BackgroundJobOutbox) :
    byJobId jobId (outboxSchema.ident row) = true ↔ row.jobId = jobId :=
  decide_eq_true_iff

namespace Outbox

/-- No dispatcher has a claim on the event of the job that it has yet to publish. -/
def Unclaimed (jobId : Uuid) (s : Outbox) : Prop :=
  ∀ d, ∀ c ∈ (s.phase d).unpublished, c.jobId ≠ jobId

/-- The event of the job, if there is one, is not going to be claimed. -/
def EventClosed (jobId : Uuid) (s : Outbox) : Prop :=
  ∀ row, s.table.find (byJobId jobId) = some row → row.status.isOpen = false

variable {s t : Outbox} {a : OutboxAction}

/-- A claim that a batch commits is on the event of its job. -/
theorem exists_event_of_newClaim {now : DateTime} {batchSize : ℕ} {locked : List Uuid}
    {token : Uuid → Uuid} {c : OutboxClaim} (hc : c ∈ (s.selected S now batchSize locked).filterMap
      fun row ↦ claimOf S now (token row.id) row) :
    ∃ row, s.table.find (byJobId c.jobId) = some row ∧ row.status.isOpen = true := by
  obtain ⟨row, hrow, hclaim⟩ := List.mem_filterMap.1 hc
  obtain ⟨hmem, hclaimable⟩ := mem_selected hrow
  have hjob : row.jobId = c.jobId := by
    rw [claimOf] at hclaim
    split at hclaim
    · obtain rfl := Option.some.inj hclaim
      rfl
    · cases hclaim
  exact ⟨row, Table.find_eq_some_of_mem (single_byJobId _) hmem ((byJobId_ident _ _).2 hjob),
    isOpen_of_claimable hclaimable⟩

/-- Only a new event can be open. -/
theorem EventClosed.step (hclosed : s.EventClosed jobId) (h : outboxStep S s a = some t)
    (hnew : ∀ id jobType payload now, a ≠ .enqueue id jobId jobType payload now) :
    t.EventClosed jobId := by
  intro row' hfind'
  rcases hfind : s.table.find (byJobId jobId) with - | row
  · obtain ⟨-, id, jobType, payload, now, ha⟩ := enqueue_of_new h hfind hfind'
    rw [(byJobId_ident _ _).1 (Table.sel_of_find hfind')] at ha
    exact absurd ha (hnew id jobType payload now)
  · obtain ⟨row'', hfind'', -, hstep⟩ := step_row h hfind
    obtain rfl : row'' = row' := Option.some.inj (hfind''.symm.trans hfind')
    rw [hstep.eq_of_not_isOpen (hclosed row hfind)]
    exact hclosed row hfind

/-- Only the claim of an open event adds to the claims. -/
theorem Unclaimed.step (hunclaimed : s.Unclaimed jobId) (hclosed : s.EventClosed jobId)
    (h : outboxStep S s a = some t) : t.Unclaimed jobId := by
  have hhand : ∀ (d : ℕ) (phase : DispatcherPhase), t.phase = Function.update s.phase d phase →
      (∀ c ∈ phase.unpublished, c.jobId ≠ jobId) → t.Unclaimed jobId := by
    intro d phase hphase hclaims d' c hc
    rcases update_cases hphase d' with ⟨-, e⟩ | ⟨-, e⟩
    · rw [e] at hc
      exact hclaims c hc
    · rw [e] at hc
      exact hunclaimed d' c hc
  cases callStep_of_step h with
  | claim d now batchSize locked token hphase =>
    refine hhand d _ hphase fun c hc ↦ ?_
    -- A claim for the job would be on its event, which is closed.
    rintro rfl
    obtain ⟨row, hfind, hopen⟩ := exists_event_of_newClaim hc
    rw [hclosed row hfind] at hopen
    cases hopen
  | publish d c now error rest hbefore hphase =>
    refine hhand d _ hphase fun c' hc' ↦ hunclaimed d c' ?_
    rw [hbefore]
    exact List.mem_cons_of_mem _ hc'
  | drop d rest hrest hphase =>
    exact hhand d _ hphase fun c hc ↦ hunclaimed d c (hrest.subset hc)
  | keep hphase =>
    intro d c hc
    exact hunclaimed d c (hphase ▸ hc)

/-- The cancellation of the job closes its event. -/
theorem eventClosed_cancel (s : Outbox) (operator : ℕ) (jobId : Uuid) (now : DateTime) :
    (s.cancel operator jobId now).EventClosed jobId := by
  intro row' hfind'
  change (s.table.modify (byJobId jobId) cancelEvent).find (byJobId jobId) = some row' at hfind'
  rw [Table.find_modify] at hfind'
  obtain ⟨row, hfind, rfl⟩ := Option.map_eq_some_iff.1 hfind'
  rw [Table.modifyRow_of_pos (Table.sel_of_find hfind) (ident_cancelEvent row), cancelEvent]
  split
  · rfl
  · next hnot => simpa using hnot

/-- **What one step can do to one job.** -/
theorem jobs_step (h : outboxStep S s a = some t) (jobId : Uuid) :
    t.jobs jobId = s.jobs jobId ∨
    (∃ job, a = .ingest job ∧ job.id = jobId ∧ t.jobs jobId = some job) ∨
    (∃ reason now, t.jobs jobId = (s.jobs jobId).map (failJob reason now)) ∨
    ∃ operator now, a = .cancel operator now ∧ s.cancelling operator = some jobId ∧
      t = s.cancel operator jobId now := by
  cases a with
  | ingest job =>
    obtain rfl := Option.some.inj h
    rcases eq_or_ne jobId job.id with rfl | hne
    · exact .inr (.inl ⟨job, rfl, rfl, Function.update_self ..⟩)
    · exact .inl (Function.update_of_ne hne ..)
  | claim d now batchSize locked token =>
    simp only [outboxStep] at h
    split at h
    · obtain rfl := Option.some.inj h
      show (s.jobsAfterClaim S now _ jobId = _) ∨ _ ∨ (∃ _ _, s.jobsAfterClaim S now _ jobId = _) ∨ _
      rw [Outbox.jobsAfterClaim]
      split
      · exact .inl rfl
      · next reason _ => exact .inr (.inr (.inl ⟨reason, now, rfl⟩))
    · cases h
  | cancel operator now =>
    simp only [outboxStep] at h
    split at h
    · next cancelled hcancelling =>
      obtain rfl := Option.some.inj h
      rcases eq_or_ne jobId cancelled with rfl | hne
      · exact .inr (.inr (.inr ⟨operator, now, rfl, hcancelling, rfl⟩))
      · exact .inl (Function.update_of_ne hne ..)
    · cases h
  | enqueue | crash =>
    obtain rfl := Option.some.inj h
    exact .inl rfl
  | publish | ack | checkCancel =>
    simp only [outboxStep] at h
    split at h
    · obtain rfl := Option.some.inj h
      exact .inl rfl
    · cases h

/-- No job disappears. -/
theorem jobs_ne_none (h : outboxStep S s a = some t) (hjob : s.jobs jobId ≠ none) :
    t.jobs jobId ≠ none := by
  rcases jobs_step h jobId with e | ⟨job, -, -, e⟩ | ⟨reason, now, e⟩ | ⟨operator, now, -, -, rfl⟩
  · rwa [e]
  · rw [e]
    nofun
  · rw [e]
    simpa using hjob
  · show Function.update s.jobs jobId _ jobId ≠ none
    rw [Function.update_self]
    simpa using hjob

/-- Only an operator cancels a job that was there. -/
theorem cancel_of_jobs_cancelled (h : outboxStep S s a = some t) {job' : RagIngestionJob}
    (hjob' : t.jobs jobId = some job') (hcancelled : job'.status = .cancelled) :
    (∃ job, s.jobs jobId = some job ∧ job.status = .cancelled) ∨ a = .ingest job' ∨
      ∃ operator now, a = .cancel operator now ∧ s.cancelling operator = some jobId ∧
        t = s.cancel operator jobId now := by
  rcases jobs_step h jobId with e | ⟨job, ha, -, e⟩ | ⟨reason, now, e⟩ | hcancel
  · exact .inl ⟨job', e ▸ hjob', hcancelled⟩
  · obtain rfl : job = job' := Option.some.inj (e.symm.trans hjob')
    exact .inr (.inl ha)
  · obtain ⟨job, hjob, rfl⟩ := Option.map_eq_some_iff.1 (e ▸ hjob')
    rw [failJob] at hcancelled
    split at hcancelled
    · exact .inl ⟨job, hjob, hcancelled⟩
    · cases hcancelled
  · exact .inr (.inr hcancel)

end Outbox

/-! ### The deliveries -/

section Deliveries

variable {s t : Deliveries} {a : DeliveryAction} {job job' : ApplicationJob}

/-- A claim is no cancellation, not even of a row that was cancelled before. -/
theorem claimExisting_status_ne (args : ClaimArgs) (now : DateTime) (job : ApplicationJob) :
    (claimExisting S args now job).1.status ≠ .cancelled := by
  rcases claimExisting_cases S args now job with
    ⟨hs, e⟩ | ⟨hs, e⟩ | ⟨hs, -, e⟩ | ⟨-, -, -, e⟩ | ⟨-, -, -, e⟩ | ⟨-, -, -, e⟩
  · rw [e, hs]
    nofun
  · rw [e, hs]
    nofun
  · rw [e, hs]
    nofun
  · rw [e]
    nofun
  · rw [e]
    nofun
  · rw [e]
    nofun

theorem finishJob_status_ne (status : JobStatus) (hstatus : status ≠ .cancelled)
    (error : Option String) (now : DateTime) (job : ApplicationJob) :
    (finishJob status error now job).status ≠ .cancelled := by
  rw [finishJob]
  split
  · next hfinal =>
    intro h
    rw [h] at hfinal
    cases hfinal
  · dsimp only
    split
    · rintro ⟨⟩
    · exact hstatus

/-- Settling is none either. -/
theorem settleJob_status (outcome : RunnerOutcome) (now : DateTime) (job : ApplicationJob)
    (h : (settleJob S outcome now job).status = .cancelled) : job.status = .cancelled := by
  cases outcome with
  | returned => exact absurd h (finishJob_status_ne .succeeded nofun _ _ _)
  | raised exc => exact absurd h (finishJob_status_ne .failed nofun _ _ _)
  | effectInFlight exc =>
    rw [settleJob, releaseJobForRetry] at h
    split at h
    · exact h
    · cases h

/-- Only an operator cancels the row. -/
theorem DeliveryStep.cancel_of_cancelled (h : DeliveryStep S o s a t) (hrow' : t.row = some job')
    (hcancelled : job'.status = .cancelled) :
    (∃ job, s.row = some job ∧ job.status = .cancelled) ∨
      ∃ operator now flushedAt, a = .cancel operator now flushedAt := by
  have hsame : t.row = s.row → ∃ job, s.row = some job ∧ job.status = .cancelled :=
    fun e ↦ ⟨job', e ▸ hrow', hcancelled⟩
  cases h with
  | post | receive | die | publish | endRun | retry | fail | acknowledge | checkCancel =>
    exact .inl (hsame rfl)
  | read =>
    refine .inl (hsame ?_)
    rw [Deliveries.read]
    split
    · rfl
    · split <;> rfl
  | ensure =>
    left
    rcases hrow : s.row with - | job
    · rw [hrow] at hrow'
      obtain rfl := Option.some.inj hrow'
      cases hcancelled
    · rw [hrow] at hrow'
      obtain rfl := Option.some.inj hrow'
      exact ⟨job, rfl, hcancelled⟩
  | claim =>
    rw [Deliveries.claim] at hrow'
    split at hrow'
    · obtain rfl := Option.some.inj hrow'
      cases hcancelled
    · obtain rfl := Option.some.inj hrow'
      rw [ApplicationJob.writeBack_status_self] at hcancelled
      exact absurd hcancelled (claimExisting_status_ne _ _ _)
  | @write m retries outcome now flushedAt loaded =>
    obtain ⟨job, hrow, rfl⟩ := Option.map_eq_some_iff.1 hrow'
    refine .inl ⟨job, hrow, ?_⟩
    rw [ApplicationJob.writeBack_status] at hcancelled
    by_cases hchanged : (settleJob S outcome now loaded).status = loaded.status
    · rwa [hchanged, ApplicationJob.column_same] at hcancelled
    · rw [ApplicationJob.column, if_neg hchanged] at hcancelled
      exact absurd (hcancelled.trans (settleJob_status outcome now loaded hcancelled).symm) hchanged
  | @cancel operator now flushedAt => exact .inr ⟨operator, now, flushedAt, rfl⟩

/-- **With every message acknowledged only operators do anything**, and they cancel. -/
theorem DeliveryStep.of_acknowledged (h : DeliveryStep S o s a t)
    (hall : ∀ d ∈ s.queue, d = .acknowledged) (ha : a.isInternal = true) :
    t.queue = s.queue ∧
      (t.row = s.row ∨ t.row.map (·.status) = s.row.map fun _ ↦ .cancelled) := by
  have hdone : ∀ {m : ℕ} {d : Delivery TaskMessage Stage}, s.queue[m]? = some d → d = .acknowledged :=
    fun hm ↦ hall _ (Queue.mem_of_getElem? hm)
  cases h with
  | post hbody =>
    rcases hbody with ⟨rfl, -⟩ | ⟨rfl, -⟩ | hmem | ⟨stage, hmem⟩
    · cases ha
    · cases ha
    · cases hall _ hmem
    · cases hall _ hmem
  | receive hm | die hm | ensure hm | publish hm | claim hm | endRun hm | read hm | write hm
  | retry hm | fail hm | acknowledge hm => cases hdone hm
  | checkCancel => exact ⟨rfl, .inl rfl⟩
  | @cancel operator now flushedAt loaded modified hloaded hmodified =>
    refine ⟨rfl, .inr ?_⟩
    obtain ⟨hqueued, hcancelled⟩ := cancelApplication_eq_some hmodified
    have hchanged : modified.status ≠ loaded.status := by rw [hcancelled, hqueued]; nofun
    rw [Option.map_map]
    congr 1
    funext job
    show (loaded.writeBack modified flushedAt job).status = .cancelled
    rw [ApplicationJob.writeBack_status_of_ne hchanged, hcancelled]

end Deliveries

/-! ### The job -/

/-- Nothing about the job is on its way. -/
structure Closed (jobId : Uuid) (s : Ingestion) : Prop where
  acknowledged : ∀ d ∈ s.deliveries.queue, d = .acknowledged
  unclaimed : s.outbox.Unclaimed jobId
  event : s.outbox.EventClosed jobId

/-- Operators cancel only what is closed, or what closes by their doing. -/
def CancelsClosed (jobId : Uuid) (s : Ingestion) : IngestionAction → Prop
  | .delivery (.cancel ..) => Closed jobId s
  | .outbox (.cancel operator _) => s.outbox.cancelling operator = some jobId →
      (∀ d ∈ s.deliveries.queue, d = .acknowledged) ∧ s.outbox.Unclaimed jobId
  | _ => True

/-- The step is a claim of the worker job that lets the task run. -/
def grants (S : Settings) (o : Operation) (s : Ingestion) : IngestionAction → Bool
  | .delivery (.claim _ _ now _) =>
    s.deliveries.row.all fun job ↦ (claimExisting S o.claimArgs now job).2.shouldRun
  | _ => false

/-- The step marks the job of ingestion running, or commits chunks under it. -/
def indexes (S : Settings) (jobId : Uuid) (s : Ingestion) : IngestionAction → Bool
  | .startIndexing _ now => (s.outbox.jobs jobId).any fun job ↦ (startIndexing S now job).outcome = none
  | .commitChunks .. => true
  | _ => false

/-- If the worker job is cancelled, it stays so, and no claim lets the task run. -/
def NeverGranted (S : Settings) (o : Operation) (jobId : Uuid) (s : Ingestion) : Prop :=
  s.deliveries.row.map (·.status) = some .cancelled →
    ∀ t, (ingestionMachine S o jobId).Later anyStep s t →
      t.deliveries.row.map (·.status) = some .cancelled ∧
      ∀ a u, (ingestionMachine S o jobId).step t a = some u → grants S o t a = false

/-- If the job of ingestion is cancelled, it is never marked running, and no chunks are committed. -/
def NeverIndexed (S : Settings) (o : Operation) (jobId : Uuid) (s : Ingestion) : Prop :=
  (s.outbox.jobs jobId).map (·.status) = some .cancelled →
    ∀ t, (ingestionMachine S o jobId).Later anyStep s t →
      ∀ a u, (ingestionMachine S o jobId).step t a = some u → indexes S jobId t a = false

section Job

variable {s t : Ingestion} {a : IngestionAction}

theorem Closed.runner_eq_none (h : Closed jobId s) (m : ℕ) : s.runner m = none := by
  rw [Ingestion.runner]
  split
  · next hm => cases h.acknowledged _ (Queue.mem_of_getElem? hm)
  · rfl

/-- With nothing on its way, nobody takes up the job. -/
theorem Closed.not_enabled (h : Closed jobId s) (hstep : IngestionStep S o jobId s a t) :
    grants S o s a = false ∧ indexes S jobId s a = false := by
  cases hstep with
  | runner ha hm => exact absurd (h.runner_eq_none _) hm
  | upload | outbox | publish => exact ⟨rfl, rfl⟩
  | @delivery a v indexing ha hstep =>
    refine ⟨?_, rfl⟩
    cases deliveryStep_sound hstep with
    | claim hm => cases h.acknowledged _ (Queue.mem_of_getElem? hm)
    | post hbody =>
      rcases hbody with ⟨rfl, -⟩ | ⟨rfl, -⟩ | hmem | ⟨stage, hmem⟩
      · rfl
      · rfl
      · cases h.acknowledged _ hmem
      · cases h.acknowledged _ hmem
    | receive | die | ensure | publish | endRun | read | write | retry | fail | acknowledge
    | checkCancel | cancel => rfl

/-- **What is closed stays closed**, until the job is uploaded. -/
theorem Closed.step (h : Closed jobId s) (hstep : IngestionStep S o jobId s a t)
    (hnew : ∀ eventId documentId userId now, a ≠ .upload jobId eventId documentId userId now) :
    Closed jobId t ∧ (t.deliveries.row = s.deliveries.row ∨
      t.deliveries.row.map (·.status) = s.deliveries.row.map fun _ ↦ .cancelled) := by
  cases hstep with
  | runner ha hm => exact absurd (h.runner_eq_none _) hm
  | @upload id eventId documentId userId now u v hnone hingest henqueue =>
    have hevent := h.event.step hingest fun _ _ _ _ ↦ nofun
    have hunclaimed := h.unclaimed.step h.event hingest
    refine ⟨⟨h.acknowledged, hunclaimed.step hevent henqueue, hevent.step henqueue ?_⟩, .inl rfl⟩
    rintro _ _ _ _ ⟨⟩
    exact hnew eventId documentId userId now rfl
  | @outbox a v ha hstep =>
    refine ⟨⟨h.acknowledged, h.unclaimed.step h.event hstep, h.event.step hstep ?_⟩, .inl rfl⟩
    rintro _ _ _ _ rfl
    cases ha
  | @publish d now error delivered v hstep =>
    -- The claim that is published is about another job, so the queue of this one stays as it is.
    have hother : (s.nextClaim d).any (fun c ↦ c.jobId = jobId) = false := by
      rw [Option.any_eq_false]
      intro c hc
      simpa using h.unclaimed d c (List.mem_of_mem_head? hc)
    rw [if_neg (by simp [hother])]
    exact ⟨⟨h.acknowledged, h.unclaimed.step h.event hstep, h.event.step hstep fun _ _ _ _ ↦ nofun⟩,
      .inl rfl⟩
  | @delivery a v indexing ha hstep =>
    obtain ⟨hqueue, hrow⟩ := (deliveryStep_sound hstep).of_acknowledged h.acknowledged ha
    refine ⟨⟨?_, h.unclaimed, h.event⟩, hrow⟩
    show ∀ d ∈ v.queue, d = .acknowledged
    rw [hqueue]
    exact h.acknowledged

/-- **What the condition keeps**: a job that is cancelled is closed, and so is one that is not there. -/
structure CancelInv (jobId : Uuid) (s : Ingestion) : Prop where
  unbegun : s.outbox.jobs jobId = none → Closed jobId s ∧ s.deliveries.row = none
  row : ∀ job, s.deliveries.row = some job → job.status = .cancelled → Closed jobId s
  job : ∀ job, s.outbox.jobs jobId = some job → job.status = .cancelled → Closed jobId s

/-- No job disappears. -/
theorem IngestionStep.jobs_ne_none (hstep : IngestionStep S o jobId s a t)
    (hjob : s.outbox.jobs jobId ≠ none) : t.outbox.jobs jobId ≠ none := by
  cases hstep with
  | upload hnone hingest henqueue =>
    exact Outbox.jobs_ne_none henqueue (Outbox.jobs_ne_none hingest hjob)
  | outbox ha hstep => exact Outbox.jobs_ne_none hstep hjob
  | publish hstep => exact Outbox.jobs_ne_none hstep hjob
  | delivery => exact hjob
  | runner ha hm hrow hrel => exact fun hnone ↦ hjob (hrel.eq_none hnone)

/-- Only an operator cancels the worker job. -/
theorem IngestionStep.cancel_of_row (hstep : IngestionStep S o jobId s a t) {job' : ApplicationJob}
    (hrow' : t.deliveries.row = some job') (hcancelled : job'.status = .cancelled) :
    (∃ job, s.deliveries.row = some job ∧ job.status = .cancelled) ∨
      ∃ operator now flushedAt, a = .delivery (.cancel operator now flushedAt) := by
  cases hstep with
  | upload | outbox => exact .inl ⟨job', hrow', hcancelled⟩
  | publish =>
    dsimp only at hrow'
    split at hrow'
    · exact .inl ⟨job', hrow', hcancelled⟩
    · exact .inl ⟨job', hrow', hcancelled⟩
  | delivery ha hstep =>
    refine ((deliveryStep_sound hstep).cancel_of_cancelled hrow' hcancelled).imp_right ?_
    rintro ⟨operator, now, flushedAt, rfl⟩
    exact ⟨operator, now, flushedAt, rfl⟩
  | runner ha hm hrow => exact .inl ⟨job', hrow ▸ hrow', hcancelled⟩

/-- Only an operator cancels the job of ingestion. -/
theorem IngestionStep.cancel_of_job (hstep : IngestionStep S o jobId s a t) {job' : RagIngestionJob}
    (hjob' : t.outbox.jobs jobId = some job') (hcancelled : job'.status = .cancelled) :
    (∃ job, s.outbox.jobs jobId = some job ∧ job.status = .cancelled) ∨
      ∃ operator now, a = .outbox (.cancel operator now) ∧
        s.outbox.cancelling operator = some jobId ∧
        t = { s with outbox := s.outbox.cancel operator jobId now } := by
  cases hstep with
  | @upload id eventId documentId userId now u v hnone hingest henqueue =>
    rcases Outbox.cancel_of_jobs_cancelled henqueue hjob' hcancelled with
      ⟨job, hjob, hstatus⟩ | ha | ⟨operator, now, ha, -⟩
    · rcases Outbox.cancel_of_jobs_cancelled hingest hjob hstatus with
        hbefore | ha | ⟨operator, now, ha, -⟩
      · exact .inl hbefore
      · cases ha
        cases hstatus
      · cases ha
    · cases ha
    · cases ha
  | outbox ha hstep =>
    rcases Outbox.cancel_of_jobs_cancelled hstep hjob' hcancelled with
      hbefore | rfl | ⟨operator, now, rfl, hcancelling, rfl⟩
    · exact .inl hbefore
    · cases ha
    · exact .inr ⟨operator, now, rfl, hcancelling, rfl⟩
  | publish hstep =>
    rcases Outbox.cancel_of_jobs_cancelled hstep hjob' hcancelled with
      hbefore | ha | ⟨operator, now, ha, -⟩
    · exact .inl hbefore
    · cases ha
    · cases ha
  | delivery => exact .inl ⟨job', hjob', hcancelled⟩
  | runner ha hm hrow hrel => exact .inl (hrel.exists_of_cancelled hjob' hcancelled)

theorem CancelInv.step (h : CancelInv jobId s) (hC : CancelsClosed jobId s a)
    (hstep : IngestionStep S o jobId s a t) : CancelInv jobId t := by
  by_cases hnew : ∃ eventId documentId userId now, a = .upload jobId eventId documentId userId now
  · -- The upload of the job: there is no row yet, and the job is pending.
    obtain ⟨eventId, documentId, userId, now, rfl⟩ := hnew
    cases hstep with
    | runner ha => cases ha
    | upload hnone hingest henqueue =>
      have hrow := (h.unbegun hnone).2
      obtain rfl := Option.some.inj hingest
      obtain rfl := Option.some.inj henqueue
      have hjob : ∀ job, Function.update s.outbox.jobs jobId
          (some (createIngestionJob S jobId documentId userId now)) jobId = some job →
          job.status = .pending := by
        intro job hjob
        rw [Function.update_self] at hjob
        obtain rfl := Option.some.inj hjob
        rfl
      refine ⟨fun hnone' ↦ ?_, fun job' hrow' ↦ ?_, fun job' hjob' hcancelled ↦ ?_⟩
      · exact absurd ((Function.update_self ..).symm.trans hnone') nofun
      · cases hrow.symm.trans hrow'
      · cases (hjob job' hjob').symm.trans hcancelled
  · have hnew' : ∀ eventId documentId userId now, a ≠ .upload jobId eventId documentId userId now :=
      fun eventId documentId userId now ha ↦ hnew ⟨eventId, documentId, userId, now, ha⟩
    by_cases hclosed : Closed jobId s
    · -- What is closed stays closed, and a job that is not there gets no row.
      obtain ⟨hclosed', hrow⟩ := hclosed.step hstep hnew'
      refine ⟨fun hnone ↦ ⟨hclosed', ?_⟩, fun _ _ _ ↦ hclosed', fun _ _ _ ↦ hclosed'⟩
      have hbefore : s.deliveries.row = none :=
        (h.unbegun (by_contra fun hjob ↦ hstep.jobs_ne_none hjob hnone)).2
      rcases hrow with e | e
      · rw [e, hbefore]
      · simpa [hbefore] using e
    · -- Nothing is cancelled yet, so a cancelled row is the doing of this step, and of an operator.
      have hjobs : s.outbox.jobs jobId ≠ none := fun hnone ↦ hclosed (h.unbegun hnone).1
      refine ⟨fun hnone ↦ absurd hnone (hstep.jobs_ne_none hjobs), fun job' hrow' hcancelled ↦ ?_,
        fun job' hjob' hcancelled ↦ ?_⟩
      · rcases hstep.cancel_of_row hrow' hcancelled with ⟨job, hrow, hs⟩ | ⟨_, _, _, rfl⟩
        · exact absurd (h.row job hrow hs) hclosed
        · exact absurd hC hclosed
      · rcases hstep.cancel_of_job hjob' hcancelled with ⟨job, hjob, hs⟩ | ⟨_, now, rfl, hcancelling, rfl⟩
        · exact absurd (h.job job hjob hs) hclosed
        · obtain ⟨hall, hunclaimed⟩ := hC hcancelling
          exact ⟨hall, hunclaimed, Outbox.eventClosed_cancel _ _ _ _⟩

theorem CancelInv.reachable
    (h : (ingestionMachine S o jobId).Reachable (CancelsClosed jobId) s) : CancelInv jobId s := by
  refine h.invariant (fun s₀ h₀ ↦ ?_) fun s a t hinv hC hstep ↦
    hinv.step hC (ingestionStep_sound hstep)
  obtain rfl : s₀ = .initial := h₀
  refine ⟨fun _ ↦ ⟨⟨fun d hd ↦ ?_, fun d c hc ↦ ?_, fun row hfind ↦ ?_⟩, rfl⟩, fun job hjob ↦ ?_,
    fun job hjob ↦ ?_⟩
  · cases hd
  · cases hc
  · cases hfind
  · cases hjob
  · cases hjob

/-- What is closed and has been uploaded is closed for good. -/
theorem Closed.later (h : Closed jobId s) (hjob : s.outbox.jobs jobId ≠ none)
    (hlater : (ingestionMachine S o jobId).Later anyStep s t) :
    Closed jobId t ∧ (s.deliveries.row.map (·.status) = some .cancelled →
      t.deliveries.row.map (·.status) = some .cancelled) := by
  refine (hlater.stable (P := fun u ↦ (Closed jobId u ∧ (s.deliveries.row.map (·.status) =
    some .cancelled → u.deliveries.row.map (·.status) = some .cancelled)) ∧
    u.outbox.jobs jobId ≠ none) ?_ ⟨⟨h, id⟩, hjob⟩).1
  rintro u a v ⟨⟨hu, hrow⟩, hjobu⟩ - hstep
  have hsound := ingestionStep_sound hstep
  have hnew : ∀ eventId documentId userId now, a ≠ .upload jobId eventId documentId userId now := by
    rintro eventId documentId userId now rfl
    cases hsound with
    | upload hnone => exact hjobu hnone
    | runner ha => cases ha
  obtain ⟨hv, hrow'⟩ := hu.step hsound hnew
  refine ⟨⟨hv, fun hcancelled ↦ ?_⟩, hsound.jobs_ne_none hjobu⟩
  rcases hrow' with e | e
  · rw [e]
    exact hrow hcancelled
  · rw [e]
    obtain ⟨job, hjob', -⟩ := Option.map_eq_some_iff.1 (hrow hcancelled)
    rw [hjob', Option.map_some]

end Job

/-! ### Cancelled jobs never run -/

/-- **A cancelled job never runs**, as long as operators cancel only what is closed, or what closes by
their doing. -/
theorem cancelled_never_runs (S : Settings) (o : Operation) (jobId : Uuid) (s : Ingestion)
    (h : (ingestionMachine S o jobId).Reachable (CancelsClosed jobId) s) :
    NeverGranted S o jobId s ∧ NeverIndexed S o jobId s := by
  have hinv := CancelInv.reachable h
  have hbegun : s.deliveries.row ≠ none → s.outbox.jobs jobId ≠ none :=
    fun hrow hnone ↦ hrow (hinv.unbegun hnone).2
  refine ⟨fun hcancelled t hlater ↦ ?_, fun hcancelled t hlater a u hstep ↦ ?_⟩
  · obtain ⟨job, hrow, hstatus⟩ := Option.map_eq_some_iff.1 hcancelled
    have hclosed := hinv.row job hrow hstatus
    obtain ⟨hclosed', hstays⟩ := hclosed.later (hbegun (by rw [hrow]; nofun)) hlater
    exact ⟨hstays hcancelled, fun a u hstep ↦ (hclosed'.not_enabled (ingestionStep_sound hstep)).1⟩
  · obtain ⟨job, hjob, hstatus⟩ := Option.map_eq_some_iff.1 hcancelled
    have hclosed := hinv.job job hjob hstatus
    obtain ⟨hclosed', -⟩ := hclosed.later (by rw [hjob]; nofun) hlater
    exact (hclosed'.not_enabled (ingestionStep_sound hstep)).2

/-- The indexing of document 2 under job 7. -/
def indexOperation : Operation := ⟨.indexRagDocument, "7", by decide⟩

/-- The steps of an operator that commit a cancellation. -/
def IngestionAction.isCancel : IngestionAction → Bool
  | delivery (.cancel ..) | outbox (.cancel ..) => true
  | _ => false

theorem CancelsClosed.of_not_isCancel {s : Ingestion} {a : IngestionAction}
    (h : a.isCancel = false) : CancelsClosed jobId s a := by
  cases a with
  | outbox a =>
    cases a with
    | cancel => cases h
    | enqueue | ingest | claim | publish | ack | crash | checkCancel => trivial
  | delivery a =>
    cases a with
    | cancel => cases h
    | submit | dispatch | redeliver | receive | die | ensure | publish | claim | endRun | read | write
    | conclude | acknowledge | checkCancel => trivial
  | upload | publish | refuseDocument | startIndexing | touchJob | commitChunks | failIndexing => trivial

/-- A job runs to its end, while two operators, who have found it `pending` and `queued`, are about to
cancel it. -/
def completedRun : List IngestionAction :=
  [.upload 7 1 2 "4" 0, .outbox (.checkCancel 0 7), .outbox (.claim 0 1 50 [] fun _ ↦ 11),
    .publish 0 2 none true, .outbox (.ack 0), .delivery (.receive 0), .delivery (.ensure 0 5 3 3),
    .delivery (.checkCancel 0), .delivery (.publish 0), .delivery (.acknowledge 0),
    .delivery (.receive 1), .delivery (.claim 1 6 4 4), .startIndexing 1 5, .commitChunks 1 6,
    .delivery (.read 1 7), .delivery (.write 1 7), .delivery (.acknowledge 1)]

theorem completedRun_isSome : ((ingestionMachine .default indexOperation 7).run
    (fun _ a ↦ a.isCancel = false) .initial completedRun).isSome = true := by
  decide

theorem completedRun_closed : Closed 7 (Option.get _ completedRun_isSome) := by
  refine ⟨by decide, fun d c hc ↦ ?_, fun row hfind ↦ ?_⟩
  · have hnone : ((Option.get _ completedRun_isSome).outbox.phase d).unpublished = [] := by
      rcases d with - | d <;> rfl
    rw [hnone] at hc
    cases hc
  · have hstatus : (((Option.get _ completedRun_isSome).outbox.table.find (byJobId 7)).map
        fun row ↦ row.status.isOpen) = some false := by
      decide
    rw [hfind] at hstatus
    exact Option.some.inj hstatus

theorem completedRun_cancel_isSome : ((ingestionMachine .default indexOperation 7).step
    (Option.get _ completedRun_isSome) (.delivery (.cancel 0 8 8))).isSome = true := by
  decide

theorem completedRun_cancel_twice_isSome : ((ingestionMachine .default indexOperation 7).step
    (Option.get _ completedRun_cancel_isSome) (.outbox (.cancel 0 9))).isSome = true := by
  decide

/-- Both operators cancel, and nothing runs afterwards. -/
theorem completedRun_never_runs :
    let s := Option.get _ completedRun_cancel_twice_isSome
    (s.deliveries.row.map (·.status) = some .cancelled ∧ NeverGranted .default indexOperation 7 s) ∧
      (s.outbox.jobs 7).map (·.status) = some .cancelled ∧ NeverIndexed .default indexOperation 7 s := by
  have hstep : ingestionStep .default indexOperation 7 (Option.get _ completedRun_isSome)
      (.delivery (.cancel 0 8 8)) = some (Option.get _ completedRun_cancel_isSome) :=
    (Option.some_get completedRun_cancel_isSome).symm
  have hclosed := (completedRun_closed.step (ingestionStep_sound hstep) fun _ _ _ _ ↦ nofun).1
  have hreach := (reachable_run rfl completedRun_isSome).mono
    (D := CancelsClosed 7) fun _ _ ↦ CancelsClosed.of_not_isCancel
  have hfirst := hreach.tail (a := IngestionAction.delivery (.cancel 0 8 8)) completedRun_closed hstep
  have hsecond := hfirst.tail (a := IngestionAction.outbox (.cancel 0 9))
    (fun _ ↦ ⟨hclosed.acknowledged, hclosed.unclaimed⟩)
    (Option.some_get completedRun_cancel_twice_isSome).symm
  obtain ⟨hgranted, hindexed⟩ := cancelled_never_runs .default indexOperation 7 _ hsecond
  exact ⟨⟨by decide, hgranted⟩, by decide, hindexed⟩

/-- The worker job is cancelled while the message about it is waiting, which is then taken. -/
def waitingRun : List IngestionAction :=
  [.upload 7 1 2 "4" 0, .outbox (.claim 0 1 50 [] fun _ ↦ 11), .publish 0 2 none true,
    .outbox (.ack 0), .delivery (.receive 0), .delivery (.ensure 0 5 3 3), .delivery (.publish 0),
    .delivery (.acknowledge 0), .delivery (.checkCancel 0), .delivery (.cancel 0 4 4)]

theorem waitingRun_isSome : ((ingestionMachine .default indexOperation 7).run anyStep .initial
    waitingRun).isSome = true := by
  decide

theorem waitingRun_receive_isSome : ((ingestionMachine .default indexOperation 7).run anyStep
    (Option.get _ waitingRun_isSome) [.delivery (.receive 1)]).isSome = true := by
  decide

theorem waitingRun_claim_isSome : ((ingestionMachine .default indexOperation 7).step
    (Option.get _ waitingRun_receive_isSome) (.delivery (.claim 1 6 5 5))).isSome = true := by
  decide

/-- The job of ingestion is cancelled while a dispatcher is publishing its event. -/
def publishingRun : List IngestionAction :=
  [.upload 7 1 2 "4" 0, .outbox (.checkCancel 0 7), .outbox (.claim 0 1 50 [] fun _ ↦ 11),
    .outbox (.cancel 0 2)]

theorem publishingRun_isSome : ((ingestionMachine .default indexOperation 7).run anyStep .initial
    publishingRun).isSome = true := by
  decide

/-- The event is published nonetheless, and its message taken. -/
def publishedRun : List IngestionAction :=
  [.publish 0 3 none true, .outbox (.ack 0), .delivery (.receive 0), .delivery (.ensure 0 5 4 4),
    .delivery (.publish 0), .delivery (.receive 1), .delivery (.claim 1 6 5 5)]

theorem publishedRun_isSome : ((ingestionMachine .default indexOperation 7).run anyStep
    (Option.get _ publishingRun_isSome) publishedRun).isSome = true := by
  decide

theorem publishedRun_start_isSome : ((ingestionMachine .default indexOperation 7).step
    (Option.get _ publishedRun_isSome) (.startIndexing 1 6)).isSome = true := by
  decide

/-- **Cancelled jobs run.** A cancelled worker job is claimed by the message that was waiting, and a
cancelled job of ingestion is marked running by the message of a claim that was being published. -/
theorem cancelled_jobs_run :
    (∃ s, (ingestionMachine .default indexOperation 7).Reachable anyStep s ∧
      ¬NeverGranted .default indexOperation 7 s) ∧
    ∃ s, (ingestionMachine .default indexOperation 7).Reachable anyStep s ∧
      ¬NeverIndexed .default indexOperation 7 s := by
  refine ⟨⟨_, reachable_run rfl waitingRun_isSome, fun hnever ↦ ?_⟩,
    ⟨_, reachable_run rfl publishingRun_isSome, fun hnever ↦ ?_⟩⟩
  · have hno := (hnever (by decide) _ (later_run waitingRun_receive_isSome)).2 _ _
      (Option.some_get waitingRun_claim_isSome).symm
    exact absurd hno (by decide)
  · have hno := hnever (by decide) _ (later_run publishedRun_isSome) _ _
      (Option.some_get publishedRun_start_isSome).symm
    exact absurd hno (by decide)

end GenericApp
