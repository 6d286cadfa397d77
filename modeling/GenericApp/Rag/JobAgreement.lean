import GenericApp.Rag.IndexInvariants

/-!
# Whether documents and jobs agree

A document that is being worked on has a job that is pending or running; a completed job has no error
and a running one has not finished. `index_document` writes the two rows together, but it is not alone,
and it does not always do so: a job that is over its deadline or its retries, or that the outbox gives up
on, or that an operator cancels, ends without a word to the document; `update_ingestion_job` starts a
failed job again and leaves its error and its end in place; and `_dead_letter` writes by what it has read.

* `jobs_agree`: as long as no step does such a thing, the rows agree in every state.
* `jobs_disagree`: each of the three statements fails.
-/

namespace GenericApp

open Machine Py RagLibrary

/-! ### Agreement -/

/-- Somebody is still to work on the job. -/
def IngestionJobStatus.isActive : IngestionJobStatus → Bool
  | pending | running => true
  | completed | failed | cancelled => false

/-- Nobody has to work on the document. -/
def RagDocument.isSettled (document : RagDocument) : Bool :=
  document.deletedAt ≠ none ∨ document.status = .indexed ∨ document.status = .failed

namespace RagLibrary

/-- The document has an active job. -/
def HasActive (s : RagLibrary) (documentId : Uuid) : Prop :=
  ∃ job ∈ s.jobs.rows, job.documentId = documentId ∧ job.status.isActive = true

/-- The document is settled, if it is there. -/
def DocumentSettled (s : RagLibrary) (documentId : Uuid) : Prop :=
  ∀ document ∈ s.document documentId, document.isSettled = true

/-- The job may end: it has ended already, or its document is settled or has another active job. -/
def MayEnd (s : RagLibrary) (job : RagIngestionJob) : Prop :=
  job.status.isActive = true → s.DocumentSettled job.documentId ∨
    ∃ job' ∈ s.jobs.rows, job'.id ≠ job.id ∧ job'.documentId = job.documentId ∧
      job'.status.isActive = true

/-- Documents and jobs agree. -/
structure Agrees (s : RagLibrary) : Prop where
  /-- A document without an active job is settled. -/
  settled : ∀ d document, s.document d = some document → ¬s.HasActive d → document.isSettled = true
  /-- A completed job has no error. -/
  completed : ∀ j job, s.job j = some job → job.status = .completed → job.errorMessage = none
  /-- A running job has not finished. -/
  running : ∀ j job, s.job j = some job → job.status = .running → job.finishedAt = none

end RagLibrary

instance (s : RagLibrary) (documentId : Uuid) : Decidable (s.HasActive documentId) :=
  inferInstanceAs (Decidable (∃ job ∈ s.jobs.rows, _))

instance (s : RagLibrary) (documentId : Uuid) : Decidable (s.DocumentSettled documentId) :=
  inferInstanceAs (Decidable (∀ document ∈ s.document documentId, _))

instance (s : RagLibrary) (job : RagIngestionJob) : Decidable (s.MayEnd job) :=
  inferInstanceAs (Decidable (_ → _ ∨ ∃ job' ∈ s.jobs.rows, _))

/-- What a claim may decide about its job: a job that starts has not finished before, and one that is
refused may end. -/
def StartAgrees (s : RagLibrary) (job : RagIngestionJob) : IndexingStart → Prop
  | .started _ => job.finishedAt = none
  | .refused _ _ => s.MayEnd job
  | .completed | .busy => True

instance (s : RagLibrary) (job : RagIngestionJob) (start : IndexingStart) :
    Decidable (StartAgrees s job start) :=
  match start with
  | .started _ => inferInstanceAs (Decidable (job.finishedAt = none))
  | .refused _ _ => inferInstanceAs (Decidable (s.MayEnd job))
  | .completed | .busy => isTrue trivial

/-- What the outbox may do to a job: if it has read it as failed, the job has not been started or completed
since, and otherwise it may end. -/
def DeadLetterAgrees (s : RagLibrary) (memory job : RagIngestionJob) : Prop :=
  if memory.status = .failed then job.status ≠ .running ∧ job.status ≠ .completed else s.MayEnd job

instance (s : RagLibrary) (memory job : RagIngestionJob) : Decidable (DeadLetterAgrees s memory job) :=
  inferInstanceAs (Decidable (if memory.status = .failed then
    job.status ≠ .running ∧ job.status ≠ .completed else s.MayEnd job))

/-- The job that the outbox gives up on, as it has read it. -/
def Transaction.deadLettered : Transaction → Option RagIngestionJob
  | deadLetter job => some job
  | closed | enqueue _ | cancel _ | delete _ _ | cleanup _ _ | cleanupJobs _ _ _ => none

/-- The job that an operator cancels. -/
def Transaction.cancelled : Transaction → Option Uuid
  | cancel jobId => some jobId
  | closed | enqueue _ | deadLetter _ | delete _ _ | cleanup _ _ | cleanupJobs _ _ _ => none

/-- The step starts no job that has finished before, and completes none with an error; it ends the last
active job of a document only if the document is settled; it moves an unsettled document on only while it
has an active job; and it fails no job by an old reading. -/
def KeepsAgreement (S : Settings) (s : RagLibrary) : RagAction → Prop
  | .claim k now => ∀ run ∈ s.runs[k]?, ∀ job ∈ s.job run.jobId, job.documentId = run.document.id →
    StartAgrees s job (startIndexing S now job)
  | .advance k _ => ∀ run ∈ s.runs[k]?, s.HasActive run.document.id ∨
    ∀ document ∈ s.document run.document.id, document.deletedAt ≠ none
  | .finish k _ => ∀ run ∈ s.runs[k]?, ∀ job ∈ s.job run.jobId, job.errorMessage = none
  | .commitDeadLetter k _ _ => ∀ memory ∈ (s.transactions[k]?).bind Transaction.deadLettered,
    ∀ job ∈ s.job memory.id, DeadLetterAgrees s memory job
  | .commitCancel k _ => ∀ jobId ∈ (s.transactions[k]?).bind Transaction.cancelled,
    ∀ job ∈ s.job jobId, s.MayEnd job
  | _ => True

instance (S : Settings) (s : RagLibrary) (a : RagAction) : Decidable (KeepsAgreement S s a) :=
  match a with
  | .claim k now =>
    inferInstanceAs (Decidable (∀ run ∈ s.runs[k]?, ∀ job ∈ s.job run.jobId,
      job.documentId = run.document.id → StartAgrees s job (startIndexing S now job)))
  | .advance k _ =>
    inferInstanceAs (Decidable (∀ run ∈ s.runs[k]?, s.HasActive run.document.id ∨
      ∀ document ∈ s.document run.document.id, document.deletedAt ≠ none))
  | .finish k _ =>
    inferInstanceAs (Decidable (∀ run ∈ s.runs[k]?, ∀ job ∈ s.job run.jobId, job.errorMessage = none))
  | .commitDeadLetter k _ _ =>
    inferInstanceAs (Decidable (∀ memory ∈ (s.transactions[k]?).bind Transaction.deadLettered,
      ∀ job ∈ s.job memory.id, DeadLetterAgrees s memory job))
  | .commitCancel k _ =>
    inferInstanceAs (Decidable (∀ jobId ∈ (s.transactions[k]?).bind Transaction.cancelled,
      ∀ job ∈ s.job jobId, s.MayEnd job))
  | .upload .. | .load .. | .replace .. | .store _ | .report _ | .fail .. | .abandon _ | .enqueue _
  | .commitEnqueue .. | .deadLetter _ | .cancel _ | .delete _ | .commitDelete .. | .cleanup _
  | .cleanupJobs _ | .commitCleanup .. | .rollback _ => isTrue trivial

section Steps

variable {S : Settings} {s t : RagLibrary} {a : RagAction} {d j : Uuid} {k : ℕ}
  {job job' : RagIngestionJob} {row row' : RagDocument}

/-! ### Single jobs -/

/-- The job that a step writes to. -/
def RagLibrary.target (s : RagLibrary) : RagAction → Option Uuid
  | .claim k _ | .advance k _ | .finish k _ | .fail k _ _ => (s.runs[k]?).map (·.jobId)
  | .commitDeadLetter k _ _ => ((s.transactions[k]?).bind Transaction.deadLettered).map (·.id)
  | .commitCancel k _ => (s.transactions[k]?).bind Transaction.cancelled
  | _ => none

/-- A step writes to one job. -/
theorem JobMove.same_or_target (h : JobMove S s a job job') : job' = job ∨ s.target a = some job.id := by
  match h with
  | .same => exact .inl rfl
  | .started ha hrun hid _ _ | .refused ha hrun hid _ _ | .touched ha hrun hid _ | .completed ha hrun _ hid
  | .failed ha hrun _ hid =>
    subst ha
    right
    rw [target, hrun, hid]
    rfl
  | .deadLettered ha hx hid =>
    subst ha
    right
    rw [target, hx, hid]
    rfl
  | .cancelled ha hx =>
    subst ha
    right
    rw [target, hx]
    rfl

theorem hasActive_of_job (hjob : s.job j = some job) (hof : job.documentId = d)
    (hactive : job.status.isActive = true) : s.HasActive d :=
  ⟨job, Table.mem_of_find hjob, hof, hactive⟩

theorem job_of_mem (hmem : job ∈ s.jobs.rows) : s.job job.id = some job :=
  Table.find_eq_some_of_mem (single_byIngestionJobId job.id) hmem ((byIngestionJobId_ident _ _).2 rfl)

/-- **A completed job has no error.** -/
theorem RagLibrary.Agrees.completed_step (hs : s.Agrees) (h : RagStep S s a t)
    (hC : KeepsAgreement S s a) (hjob' : t.job j = some job') (hcompleted : job'.status = .completed) :
    job'.errorMessage = none := by
  rcases h.job_before hjob' with ⟨job, hjob, hmove⟩ | ⟨-, -, hcreation⟩
  · match hmove with
    | .same => exact hs.completed j job hjob hcompleted
    | .started _ _ _ _ hstart =>
      rw [(startIndexing_started hstart).2] at hcompleted
      exact nomatch hcompleted
    | .refused _ _ _ _ hstart =>
      rw [(startIndexing_refused hstart).2] at hcompleted
      exact nomatch hcompleted
    | .touched _ _ _ htouch =>
      rw [touchJob_eq_some htouch] at hcompleted ⊢
      exact hs.completed j job hjob hcompleted
    | .completed ha hrun _ hid =>
      subst ha
      have herror := hC _ hrun job (by rw [← hid, id_of_job hjob]; exact hjob)
      show none.or job.errorMessage = none
      rw [herror]
      rfl
    | .failed _ _ _ _ | .cancelled _ _ => exact nomatch hcompleted
    | @JobMove.deadLettered _ _ _ _ k reason now memory ha hx hid =>
      subst ha
      have hagrees := hC memory (by rw [hx]; rfl) job (by rw [← hid, id_of_job hjob]; exact hjob)
      rw [DeadLetterAgrees] at hagrees
      have hcompleted : (if memory.status = .failed then job.status else .failed) =
        IngestionJobStatus.completed := hcompleted
      split at hcompleted
      · next hfailed =>
        rw [if_pos hfailed] at hagrees
        exact absurd hcompleted hagrees.2
      · exact nomatch hcompleted
  · match hcreation with
    | .uploaded _ _ | .enqueued _ _ => rfl
    | .started _ _ _ _ hstart =>
      rw [(startIndexing_started hstart).2]
      rfl
    | .refused _ _ _ _ hstart =>
      rw [(startIndexing_refused hstart).2] at hcompleted
      exact nomatch hcompleted

/-- **A running job has not finished.** -/
theorem RagLibrary.Agrees.running_step (hs : s.Agrees) (h : RagStep S s a t)
    (hC : KeepsAgreement S s a) (hjob' : t.job j = some job') (hrunning : job'.status = .running) :
    job'.finishedAt = none := by
  rcases h.job_before hjob' with ⟨job, hjob, hmove⟩ | ⟨-, -, hcreation⟩
  · match hmove with
    | .same => exact hs.running j job hjob hrunning
    | .started ha hrun hid hof hstart =>
      subst ha
      have hagrees := hC _ hrun job (by rw [← hid, id_of_job hjob]; exact hjob) hof
      rw [hstart] at hagrees
      rw [(startIndexing_started hstart).2]
      exact hagrees
    | .refused _ _ _ _ hstart =>
      rw [(startIndexing_refused hstart).2] at hrunning
      exact nomatch hrunning
    | .touched _ _ _ htouch =>
      rw [touchJob_eq_some htouch] at hrunning ⊢
      exact hs.running j job hjob hrunning
    | .completed _ _ _ _ | .failed _ _ _ _ | .cancelled _ _ => exact nomatch hrunning
    | @JobMove.deadLettered _ _ _ _ k reason now memory ha hx hid =>
      subst ha
      have hagrees := hC memory (by rw [hx]; rfl) job (by rw [← hid, id_of_job hjob]; exact hjob)
      rw [DeadLetterAgrees] at hagrees
      have hrunning : (if memory.status = .failed then job.status else .failed) =
        IngestionJobStatus.running := hrunning
      split at hrunning
      · next hfailed =>
        rw [if_pos hfailed] at hagrees
        exact absurd hrunning hagrees.1
      · exact nomatch hrunning
  · match hcreation with
    | .uploaded _ _ | .enqueued _ _ => rfl
    | .started _ _ _ _ hstart =>
      rw [(startIndexing_started hstart).2]
      rfl
    | .refused _ _ _ _ hstart =>
      rw [(startIndexing_refused hstart).2] at hrunning
      exact nomatch hrunning

/-! ### Documents -/

/-- A run ends on the document. -/
def EndsRun (s : RagLibrary) (a : RagAction) (d : Uuid) : Prop :=
  ∃ (k : ℕ) (run : IndexRun), s.runs[k]? = some run ∧ run.document.id = d ∧
    ((∃ now, a = .finish k now) ∨ ∃ message now, a = .fail k message now)

/-- **The end of a run settles its document.** -/
theorem isSettled_of_endsRun (hs : s.WellFormed) (hstep : ragStep S s a = some t) (hend : EndsRun s a d)
    (hrow : t.document d = some row) : row.isSettled = true := by
  obtain ⟨k, run, hrun, hid, ⟨now, rfl⟩ | ⟨message, now, rfl⟩⟩ := hend
  · rw [ragStep, hrun, Option.bind_some] at hstep
    obtain ⟨⟨hstage, -⟩, rfl⟩ := finish_eq_some hstep
    rw [document_commitStatus, if_pos hid.symm] at hrow
    obtain ⟨row₀, -, rfl⟩ := Option.map_eq_some_iff.1 hrow
    rw [(hs.run k run hrun).memory .embedding (by rw [hstage]; rfl)]
    exact decide_eq_true (.inr (.inl rfl))
  · rw [ragStep, hrun, Option.bind_some] at hstep
    obtain ⟨⟨htry, -⟩, rfl⟩ := fail_eq_some hstep
    rw [document_commitStatus, if_pos hid.symm] at hrow
    obtain ⟨row₀, -, rfl⟩ := Option.map_eq_some_iff.1 hrow
    refine decide_eq_true (.inr (.inr ?_))
    rw [updateDocumentStatus, if_neg (memory_ne_failed (hs.run k run hrun) htry).symm]

/-- A job that is written by nobody stays active. -/
theorem hasActive_of_untouched (h : RagStep S s a t) (hremoval : ¬JobRemoval s a j)
    (hjob : s.job j = some job) (hof : job.documentId = d) (hactive : job.status.isActive = true)
    (htarget : s.target a ≠ some j) : t.HasActive d := by
  rcases h.job_after hjob with ⟨job', hjob', hmove⟩ | ⟨-, hgone⟩
  · rcases hmove.same_or_target with rfl | heq
    · exact hasActive_of_job hjob' hof hactive
    · exact absurd (id_of_job hjob ▸ heq) htarget
  · exact absurd hgone hremoval

/-- A job that may end leaves its document settled, or with another active job. -/
theorem hasActive_of_mayEnd (h : RagStep S s a t) (hremoval : ∀ i, ¬JobRemoval s a i)
    (hjob : s.job j = some job) (hof : job.documentId = d) (hactive : job.status.isActive = true)
    (htarget : s.target a = some j) (hmay : s.MayEnd job) : s.DocumentSettled d ∨ t.HasActive d := by
  subst hof
  refine (hmay hactive).imp id ?_
  rintro ⟨job', hmem, hne, hof, hactive'⟩
  refine hasActive_of_untouched h (hremoval _) (job_of_mem hmem) hof hactive' fun htarget' ↦ hne ?_
  rw [id_of_job hjob]
  exact Option.some.inj (htarget'.symm.trans htarget)

/-- The commit of a deletion settles its document. -/
theorem documentSettled_of_delete {now : DateTime} {jobs : List Uuid}
    (hx : s.transactions[k]? = some (.delete d jobs))
    (hstep : ragStep S s (.commitDelete k now) = some t) : t.DocumentSettled d := by
  rw [ragStep, hx] at hstep
  obtain ⟨D, hupdate, rfl⟩ := Option.map_eq_some_iff.1 hstep
  intro row hrow
  have hfind := Table.find_of_update (q := byDocumentId d) hupdate fun _ _ ↦ rfl
  obtain ⟨row₀, hrow₀, rfl⟩ := Option.map_eq_some_iff.1 (hfind.symm.trans hrow)
  rw [if_pos (Table.sel_of_find hrow₀)]
  exact decide_eq_true (.inl (Option.some_ne_none now))

/-- **What becomes of the active jobs of a document**: it keeps one, or it is settled before or after. -/
theorem active_after (hs : s.WellFormed) (hstep : ragStep S s a = some t) (hC : KeepsAgreement S s a)
    (hactive : s.HasActive d) : t.HasActive d ∨ s.DocumentSettled d ∨ t.DocumentSettled d := by
  have h := ragStep_sound hstep
  obtain ⟨job, hmem, hof, hactive⟩ := hactive
  have hjob := job_of_mem hmem
  have hmayEnd (htarget : s.target a = some job.id) (hmay : s.MayEnd job)
      (hremoval : ∀ i, ¬JobRemoval s a i) :
      t.HasActive d ∨ s.DocumentSettled d ∨ t.DocumentSettled d :=
    (hasActive_of_mayEnd h hremoval hjob hof hactive htarget hmay).elim (.inr ∘ .inl) .inl
  rcases h.job_after hjob with ⟨job', hjob', hmove⟩ | ⟨-, hremoval⟩
  · have hof' : job'.documentId = d := hmove.keepsDocument.trans hof
    match hmove with
    | .same => exact .inl (hasActive_of_job hjob' hof' hactive)
    | .started _ _ _ _ hstart =>
      refine .inl (hasActive_of_job hjob' hof' ?_)
      rw [(startIndexing_started hstart).2]
      rfl
    | .touched _ _ _ htouch =>
      refine .inl (hasActive_of_job hjob' hof' ?_)
      rw [touchJob_eq_some htouch]
      exact hactive
    | @JobMove.refused _ _ _ _ k now run _ _ ha hrun hid hof₀ hstart =>
      subst ha
      have hmay := hC run hrun job (hid ▸ hjob) hof₀
      rw [hstart] at hmay
      refine hmayEnd ?_ hmay fun _ hremoval ↦ nomatch hremoval
      rw [target, hrun, hid]
      rfl
    | @JobMove.completed _ _ _ _ k now run ha hrun hstage hid =>
      have hdoc := hs.job k run hrun (by rw [hstage]; rfl) _ List.mem_cons_self job (hid ▸ hjob)
      exact .inr (.inr fun row hrow ↦ isSettled_of_endsRun hs hstep
        ⟨k, run, hrun, hdoc.symm.trans hof, .inl ⟨now, ha⟩⟩ hrow)
    | @JobMove.failed _ _ _ _ k message now run ha hrun htry hid =>
      have hdoc := hs.job k run hrun htry _ List.mem_cons_self job (hid ▸ hjob)
      exact .inr (.inr fun row hrow ↦ isSettled_of_endsRun hs hstep
        ⟨k, run, hrun, hdoc.symm.trans hof, .inr ⟨message, now, ha⟩⟩ hrow)
    | @JobMove.deadLettered _ _ _ _ k reason now memory ha hx hid =>
      subst ha
      have hagrees := hC memory (by rw [hx]; rfl) job (hid ▸ hjob)
      rw [DeadLetterAgrees] at hagrees
      split at hagrees
      · next hfailed =>
        refine .inl (hasActive_of_job hjob' hof' ?_)
        rw [deadLetterJob, if_pos hfailed]
        exact hactive
      · refine hmayEnd ?_ hagrees fun _ hremoval ↦ nomatch hremoval
        rw [target, hx, hid]
        rfl
    | @JobMove.cancelled _ _ _ _ k now ha hx =>
      subst ha
      have hmay := hC job.id (by rw [hx]; rfl) job hjob
      refine hmayEnd ?_ hmay fun _ hremoval ↦ nomatch hremoval
      rw [target, hx]
      rfl
  · match hremoval with
    | @JobRemoval.deleted _ _ _ k now d' jobs ha hx hmem =>
      subst ha
      have hd : d' = d := (hs.transaction k _ hx _ hmem job hjob).symm.trans hof
      subst hd
      exact .inr (.inr (documentSettled_of_delete hx hstep))
    | @JobRemoval.cleanedUp _ _ _ k now d' chunks jobs ha hx hmem =>
      obtain ⟨⟨⟨row, hrow, hdeleted⟩, -⟩, hjobs⟩ := hs.transaction k _ hx
      have hd : d' = d := (hjobs _ hmem job hjob).symm.trans hof
      subst hd
      refine .inr (.inl fun row' hrow' ↦ ?_)
      obtain rfl := Option.some.inj (hrow.symm.trans hrow')
      exact decide_eq_true (.inl hdeleted)

/-- An intermediate commit leaves the jobs active. -/
theorem hasActive_of_advance {now : DateTime} (h : RagStep S s a t) (ha : a = .advance k now)
    (hactive : s.HasActive d) : t.HasActive d := by
  obtain ⟨job, hmem, hof, hactive⟩ := hactive
  rcases h.job_after (job_of_mem hmem) with ⟨job', hjob', hmove⟩ | ⟨-, hremoval⟩
  · refine hasActive_of_job hjob' (hmove.keepsDocument.trans hof) ?_
    match hmove with
    | .same => exact hactive
    | .touched _ _ _ htouch =>
      rw [touchJob_eq_some htouch]
      exact hactive
    | .started ha' _ _ _ _ | .refused ha' _ _ _ _ | .completed ha' _ _ _ | .failed ha' _ _ _
    | .deadLettered ha' _ _ | .cancelled ha' _ => exact nomatch ha.symm.trans ha'
  · match hremoval with
    | .deleted ha' _ _ | .cleanedUp ha' _ _ => exact nomatch ha.symm.trans ha'

/-- A claim that goes through makes the job active. -/
theorem hasActive_of_claim {now : DateTime} {run : IndexRun}
    (hstep : ragStep S s (.claim k now) = some t) (hrun : s.runs[k]? = some run)
    (hstage : run.stage = .loaded) (hbegins : s.begins S run now = true) :
    t.HasActive run.document.id := by
  have h := ragStep_sound hstep
  rw [ragStep, hrun, Option.bind_some, if_pos hstage] at hstep
  obtain ⟨s', -, hs', ht⟩ := claim_of_begins hbegins hstep
  have hk : t.runs[k]? = some (run.moved .claimed .validating) := by
    rw [ht]
    show (s'.runs.set k _)[k]? = _
    rw [hs']
    exact List.getElem?_set_self (List.getElem?_eq_some_iff.1 hrun).1
  obtain ⟨job, job', hstart, hof, hjob'⟩ := h.claimed_job rfl hk rfl
  rw [(startIndexing_started hstart).2] at hjob'
  exact hasActive_of_job hjob' hof rfl

/-- A document that is uploaded has an active job. -/
theorem hasActive_of_upload {row : RagDocument} {jobId : Uuid} {now : DateTime}
    (hstep : ragStep S s (.upload row jobId now) = some t) : t.HasActive row.id := by
  obtain ⟨D, -, hstep⟩ := Option.bind_eq_some_iff.1 hstep
  obtain ⟨J, rfl, -, hJ⟩ := insertJob_eq_some hstep
  have hjob : RagLibrary.job _ jobId = some _ := (job_insert hJ).trans (if_pos rfl)
  exact hasActive_of_job hjob rfl rfl

/-- **A document without an active job is settled.** -/
theorem RagLibrary.Agrees.settled_step (hs : s.WellFormed) (hagrees : s.Agrees)
    (hstep : ragStep S s a = some t) (hC : KeepsAgreement S s a) (hrow' : t.document d = some row')
    (hnone : ¬t.HasActive d) : row'.isSettled = true := by
  have h := ragStep_sound hstep
  rcases hdoc : s.document d with - | row
  · obtain ⟨uploaded, jobId, now, rfl, hrow⟩ := h.document_new hdoc hrow'
    have hid : uploaded.id = d := by
      have hid' := id_of_document hrow'
      rw [hrow] at hid'
      exact hid'
    exact absurd (hid ▸ hasActive_of_upload hstep) hnone
  · obtain ⟨row₁, hrow₁, hmove⟩ := h.document_step hdoc
    obtain rfl := Option.some.inj (hrow₁.symm.trans hrow')
    match hmove with
    | .same =>
      by_cases hactive : s.HasActive d
      · rcases active_after hs hstep hC hactive with hkept | hbefore | hafter
        · exact absurd hkept hnone
        · exact hbefore row hdoc
        · exact hafter row hrow'
      · exact hagrees.settled d row hdoc hactive
    | .deleted _ _ => exact decide_eq_true (.inl (Option.some_ne_none _))
    | @DocumentStep.scrubbed _ _ _ _ _ k now chunks jobs ha hx =>
      obtain ⟨row₂, hrow₂, hdeleted⟩ := (hs.transaction k _ hx).1.1
      obtain rfl := Option.some.inj (hdoc.symm.trans hrow₂)
      have hscrub : DocumentStep S s a d row (scrubDeletedDocument now row) := .scrubbed ha hx
      exact decide_eq_true (.inl (hscrub.deletedAt hdeleted))
    | @DocumentStep.status _ _ _ _ _ k run stage status now hrun hid hcommit =>
      subst hid
      match hcommit with
      | .claimed _ hstage hbegins => exact absurd (hasActive_of_claim hstep hrun hstage hbegins) hnone
      | .advanced _ _ =>
        rcases hC run hrun with hactive | hdeleted
        · exact absurd (hasActive_of_advance h rfl hactive) hnone
        · exact decide_eq_true (.inl (hdeleted row hdoc))
      | .finished now _ _ =>
        exact isSettled_of_endsRun hs hstep ⟨k, run, hrun, rfl, .inl ⟨now, rfl⟩⟩ hrow'
      | .failed message now _ _ =>
        exact isSettled_of_endsRun hs hstep ⟨k, run, hrun, rfl, .inr ⟨message, now, rfl⟩⟩ hrow'

theorem RagLibrary.Agrees.initial : RagLibrary.initial.Agrees where
  settled := fun _ _ h ↦ nomatch h
  completed := fun _ _ h ↦ nomatch h
  running := fun _ _ h ↦ nomatch h

theorem RagLibrary.Agrees.step (hagrees : s.Agrees) (hs : s.WellFormed) (hstep : ragStep S s a = some t)
    (hC : KeepsAgreement S s a) : t.Agrees where
  settled := fun _ _ hrow hnone ↦ hagrees.settled_step hs hstep hC hrow hnone
  completed := fun _ _ hjob hcompleted ↦
    hagrees.completed_step (ragStep_sound hstep) hC hjob hcompleted
  running := fun _ _ hjob hrunning ↦ hagrees.running_step (ragStep_sound hstep) hC hjob hrunning

end Steps

/-! ### The results -/

/-- **Documents and jobs agree** in every state, as long as no step does one of these things. -/
theorem jobs_agree (S : Settings) (s : RagLibrary)
    (hs : (ragMachine S).Reachable (KeepsAgreement S) s) : s.Agrees := by
  have hboth : s.WellFormed ∧ s.Agrees := by
    refine hs.invariant (I := fun u ↦ u.WellFormed ∧ u.Agrees) (fun u hinit ↦ ?_) fun u a u' hu hC hstep ↦
      ⟨hu.1.step (ragStep_sound hstep), hu.2.step hu.1 hstep hC⟩
    obtain rfl : u = .initial := hinit
    exact ⟨.initial, .initial⟩
  exact hboth.2

/-- The document is uploaded and indexed. -/
def indexedRun : List RagAction :=
  [.upload handbook 11 0, .load 1 11 false "ana", .claim 0 1, .advance 0 2, .advance 0 3, .advance 0 4,
    .replace 0 21 [("Holidays are on page 7.", "child")] 5, .store 0, .finish 0 6, .report 0]

theorem indexedRun_isSome : ((ragMachine .default).run (KeepsAgreement .default) .initial
    indexedRun).isSome = true := by decide

theorem jobs_agree_indexed : Agrees (Option.get _ indexedRun_isSome) :=
  jobs_agree .default _ (reachable_run rfl indexedRun_isSome)

/-- The outbox gives up on the job of an upload. -/
def givenUpRun : List RagAction :=
  [.upload handbook 11 0, .deadLetter 11,
    .commitDeadLetter 0 "Outbox delivery deadline exceeded" (timedelta 1801)]

theorem givenUpRun_isSome : ((ragMachine .default).run anyStep .initial givenUpRun).isSome = true := by
  decide

/-- A run fails, and the job is delivered again. -/
def againStartedRun : List RagAction :=
  [.upload handbook 11 0, .load 1 11 false "ana", .claim 0 1, .fail 0 "Document indexing failed" 2,
    .load 1 11 false "ana", .claim 1 3]

theorem againStartedRun_isSome :
    ((ragMachine .default).run anyStep .initial againStartedRun).isSome = true := by decide

theorem againCompletedRun_isSome : ((ragMachine .default).run anyStep .initial (againStartedRun ++
    [.advance 1 4, .advance 1 5, .advance 1 6, .replace 1 21 [("Holidays are on page 7.", "child")] 7,
      .store 1, .finish 1 8])).isSome = true := by decide

/-- **Documents and jobs disagree**: a document stays `uploaded` without a job, a completed job keeps its
error, and a running one its end. -/
theorem jobs_disagree :
    (¬∀ S s, (ragMachine S).Reachable anyStep s → ∀ d document, s.document d = some document →
      ¬s.HasActive d → document.isSettled = true) ∧
    (¬∀ S s, (ragMachine S).Reachable anyStep s → ∀ j job, s.job j = some job →
      job.status = .completed → job.errorMessage = none) ∧
    ¬∀ S s, (ragMachine S).Reachable anyStep s → ∀ j job, s.job j = some job →
      job.status = .running → job.finishedAt = none := by
  refine ⟨fun h ↦ ?_, fun h ↦ ?_, fun h ↦ ?_⟩
  · have huploaded : ∃ row ∈ document (Option.get _ givenUpRun_isSome) 1, row.isSettled = false := by
      decide
    obtain ⟨row, hrow, huploaded⟩ := huploaded
    have hsettled := h .default _ (reachable_run rfl givenUpRun_isSome) 1 row hrow (by decide)
    exact nomatch huploaded.symm.trans hsettled
  · have hcompleted : ∃ row ∈ job (Option.get _ againCompletedRun_isSome) 11, row.status = .completed ∧
        row.errorMessage ≠ none := by decide
    obtain ⟨row, hrow, hcompleted, herror⟩ := hcompleted
    exact herror (h .default _ (reachable_run rfl againCompletedRun_isSome) 11 row hrow hcompleted)
  · have hrunning : ∃ row ∈ job (Option.get _ againStartedRun_isSome) 11, row.status = .running ∧
        row.finishedAt ≠ none := by decide
    obtain ⟨row, hrow, hrunning, hend⟩ := hrunning
    exact hend (h .default _ (reachable_run rfl againStartedRun_isSome) 11 row hrow hrunning)

end GenericApp
