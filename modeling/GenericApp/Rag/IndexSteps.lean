import GenericApp.Rag.IndexRuns

/-!
# Rows along a step

How the single rows move along a step of indexing: a document (`DocumentStep`), a run (`RunStep`), a job
(`JobFate`), the chunks (`ChunksStep`) and a transaction (`TransactionStep`), each with the guards of the
step that its reader may need.
-/

namespace GenericApp

open Machine Py RagLibrary

section Rows

variable {S : Settings} {s s' t : RagLibrary} {a : RagAction} {documentId jobId : Uuid} {k : ℕ}
  {run : IndexRun} {now : DateTime}

/-! ### Documents along a step -/

theorem id_of_document {document : RagDocument} (h : s.document documentId = some document) :
    document.id = documentId :=
  (byDocumentId_ident _ _).1 (Table.sel_of_find h)

theorem id_of_job {job : RagIngestionJob} (h : s.job jobId = some job) : job.id = jobId :=
  (byIngestionJobId_ident _ _).1 (Table.sel_of_find h)

theorem document_modifyDocument {f : RagDocument → RagDocument}
    (hf : ∀ row, documentSchema.ident (f row) = documentSchema.ident row) (d : Uuid) :
    (s.modifyDocument d f).document documentId =
      if documentId = d then (s.document documentId).map f else s.document documentId := by
  have hfind := Table.find_modify s.documents (byDocumentId d) (byDocumentId documentId) f
  rcases hdoc : s.document documentId with - | document
  · rw [RagLibrary.document] at hdoc
    rw [RagLibrary.document, modifyDocument, hfind, hdoc]
    split <;> rfl
  · have hid := id_of_document hdoc
    rw [RagLibrary.document] at hdoc
    rw [RagLibrary.document, modifyDocument, hfind, hdoc, Option.map_some]
    split
    · next heq => rw [Table.modifyRow_of_pos ((byDocumentId_ident _ _).2 (hid.trans heq)) (hf document)]; rfl
    · next hne =>
      rw [Table.modifyRow_of_neg]
      exact decide_eq_false fun heq ↦ hne (hid.symm.trans heq)

theorem job_modifyJob {f : RagIngestionJob → RagIngestionJob} (j : Uuid)
    (hf : ∀ row, s.job j = some row → (f row).id = row.id) :
    (s.modifyJob j f).job jobId = if jobId = j then (s.job jobId).map f else s.job jobId := by
  have hfind := Table.find_modify s.jobs (byIngestionJobId j) (byIngestionJobId jobId) f
  rcases hjob : s.job jobId with - | job
  · rw [RagLibrary.job] at hjob
    rw [RagLibrary.job, modifyJob, hfind, hjob]
    split <;> rfl
  · have hid := id_of_job hjob
    have hjob' := hjob
    rw [RagLibrary.job] at hjob
    rw [RagLibrary.job, modifyJob, hfind, hjob, Option.map_some]
    split
    · next heq =>
      rw [Table.modifyRow_of_pos ((byIngestionJobId_ident _ _).2 (hid.trans heq))
        (hf job (heq ▸ hjob'))]
      rfl
    · next hne =>
      rw [Table.modifyRow_of_neg]
      exact decide_eq_false fun heq ↦ hne (hid.symm.trans heq)

/-- A commit of a run changes the status of its document. -/
theorem document_commitStatus (run : IndexRun) (stage : RunStage) (status : DocumentStatus) :
    (s.commitStatus k run stage status now).document documentId =
      if documentId = run.document.id then
        (s.document documentId).map (updateDocumentStatus run.document.status status now)
      else s.document documentId :=
  document_modifyDocument (ident_updateDocumentStatus _ _ _) _

/-- The job of a run that creates one is inserted, and nothing else changes. -/
theorem withJob_eq_some (h : s.withJob S run now = some s') :
    ∃ J, s' = { s with jobs := J } ∧ (J = s.jobs ∨
      run.createsJob = true ∧ s.newJobId run.jobId = true ∧
        s.jobs.insert (createIngestionJob S run.jobId run.document.id run.userId now) = some J) := by
  rw [withJob] at h
  split at h
  · next hcreates =>
    obtain ⟨J, rfl, hnew, hJ⟩ := insertJob_eq_some h
    exact ⟨J, rfl, .inr ⟨hcreates, hnew, hJ⟩⟩
  · obtain rfl := Option.some.inj h
    exact ⟨s.jobs, rfl, .inl rfl⟩

/-- The commits of a run that give its document a status: the stage and the status that they lead to. -/
inductive RunCommit (S : Settings) (s : RagLibrary) (k : ℕ) (run : IndexRun) :
    RagAction → RunStage → DocumentStatus → Prop
  | claimed (now : DateTime) (hstage : run.stage = .loaded) (hbegins : s.begins S run now = true) :
      RunCommit S s k run (.claim k now) .claimed .validating
  | advanced (now : DateTime) {stage : RunStage} {status : DocumentStatus} {touch : Bool}
      (hnext : run.stage.next = some (stage, status, touch)) :
      RunCommit S s k run (.advance k now) stage status
  | finished (now : DateTime) (hstage : run.stage = .stored) (hwritable : s.writable run = true) :
      RunCommit S s k run (.finish k now) .committed .indexed
  | failed (message : String) (now : DateTime) (htry : run.stage.inTry = true)
      (hwritable : s.writable run = true) : RunCommit S s k run (.fail k message now) .failed .failed

theorem begins_of_started {job job' : RagIngestionJob} (hwith : s.withJob S run now = some s')
    (hjob : s'.job run.jobId = some job) (hof : job.documentId = run.document.id)
    (hstart : startIndexing S now job = .started job') : s.begins S run now = true := by
  rw [begins, hwith, Option.any_some, hjob, Option.any_some, hstart]
  exact decide_eq_true ⟨hof, rfl⟩

/-- How a document moves along a step. -/
inductive DocumentStep (S : Settings) (s : RagLibrary) (a : RagAction) (documentId : Uuid)
    (document : RagDocument) : RagDocument → Prop
  | same : DocumentStep S s a documentId document document
  | status {k : ℕ} {run : IndexRun} {stage : RunStage} {status : DocumentStatus} {now : DateTime}
      (hrun : s.runs[k]? = some run) (hid : run.document.id = documentId)
      (hcommit : RunCommit S s k run a stage status) :
      DocumentStep S s a documentId document (updateDocumentStatus run.document.status status now document)
  | deleted {k : ℕ} {now : DateTime} {jobs : List Uuid} (ha : a = .commitDelete k now)
      (hx : s.transactions[k]? = some (.delete documentId jobs)) :
      DocumentStep S s a documentId document (softDeleteDocument now document)
  | scrubbed {k : ℕ} {now : DateTime} {chunks : List ChunkRow} {jobs : List Uuid}
      (ha : a = .commitCleanup k now)
      (hx : s.transactions[k]? = some (.cleanupJobs documentId chunks jobs)) :
      DocumentStep S s a documentId document (scrubDeletedDocument now document)

/-- **Documents along a step.** -/
theorem RagStep.document_step (h : RagStep S s a t) {document : RagDocument}
    (hdoc : s.document documentId = some document) :
    ∃ document', t.document documentId = some document' ∧
      DocumentStep S s a documentId document document' := by
  have hcommitted {s' : RagLibrary} {k : ℕ} {run : IndexRun} {stage : RunStage}
      {status : DocumentStatus} {now : DateTime} (hs' : s'.documents = s.documents)
      (hrun : s.runs[k]? = some run) (hcommit : RunCommit S s k run a stage status) :
      ∃ document', (s'.commitStatus k run stage status now).document documentId = some document' ∧
        DocumentStep S s a documentId document document' := by
    have hdoc' : s'.document documentId = some document := by
      rw [RagLibrary.document, hs']
      exact hdoc
    rw [document_commitStatus, hdoc']
    split
    · next hid => exact ⟨_, rfl, .status hrun hid.symm hcommit⟩
    · exact ⟨_, rfl, .same⟩
  match h with
  | .uploaded hinsert _ _ => exact ⟨document, Table.find_of_insert_of_some hinsert hdoc, .same⟩
  | .loaded _ | .moved _ _ | .opened _ | .enqueued _ _ _ | .deadLettered _ _ | .cancelled _ _
  | .jobsDeleted _ _ | .rolledBack _ => exact ⟨document, hdoc, .same⟩
  | .refused _ _ hwith _ _ _ _ =>
    obtain ⟨J, rfl, -⟩ := withJob_eq_some hwith
    exact ⟨document, hdoc, .same⟩
  | .claimed hrun hstage hwith hjob _ hof _ hstart =>
    have hbegins := begins_of_started hwith hjob hof hstart
    obtain ⟨J, rfl, -⟩ := withJob_eq_some hwith
    exact hcommitted rfl hrun (.claimed _ hstage hbegins)
  | .advanced hrun hnext _ hs =>
    refine hcommitted ?_ hrun (.advanced _ hnext)
    rcases hs with rfl | ⟨job', -, rfl⟩ <;> rfl
  | .finished hrun hstage hwritable => exact hcommitted rfl hrun (.finished _ hstage hwritable)
  | .failed hrun htry hwritable => exact hcommitted rfl hrun (.failed _ _ htry hwritable)
  | @RagStep.deleted _ _ k now d jobs D hx hupdate =>
    have hfind := Table.find_of_update (q := byDocumentId documentId) hupdate fun _ _ ↦ rfl
    rw [RagLibrary.document] at hdoc
    rw [hdoc, Option.map_some] at hfind
    split at hfind
    · next hsel =>
      -- The row that is written is the row that is looked up.
      have hd : d = documentId := ((byDocumentId_ident _ _).1 hsel).symm.trans (id_of_document hdoc)
      subst hd
      exact ⟨_, hfind, .deleted rfl hx⟩
    · exact ⟨document, hfind, .same⟩
  | @RagStep.cleanedUp _ _ k now d chunks jobs hx =>
    have hdoc' : ({ s with
        chunks := s.chunks.filter fun c ↦ c ∉ chunks
        jobs := s.jobs.delete jobs.contains
        cleaned := s.cleaned ++ [d] } : RagLibrary).document documentId = some document := hdoc
    show ∃ document', RagLibrary.document (modifyDocument _ d (scrubDeletedDocument now))
      documentId = some document' ∧ _
    rw [document_modifyDocument (ident_scrubDeletedDocument now), hdoc']
    split
    · next hd =>
      subst hd
      exact ⟨_, rfl, .scrubbed rfl hx⟩
    · exact ⟨document, rfl, .same⟩

/-- A document that was not there before. -/
theorem RagStep.document_new (h : RagStep S s a t) {document : RagDocument}
    (hnone : s.document documentId = none) (hdoc : t.document documentId = some document) :
    ∃ (row : RagDocument) (jobId : Uuid) (now : DateTime), a = .upload row jobId now ∧
      document = { row with
        status := .uploaded, createdAt := now, updatedAt := now, deletedAt := none } := by
  have hcommitted {s' : RagLibrary} {k : ℕ} {run : IndexRun} {stage : RunStage}
      {status : DocumentStatus} {now : DateTime}
      (hdoc : (s'.commitStatus k run stage status now).document documentId = some document)
      (hs' : s'.documents = s.documents) : False := by
    have hnone' : s'.document documentId = none := by
      rw [RagLibrary.document, hs']
      exact hnone
    rw [document_commitStatus, hnone', Option.map_none, ite_self] at hdoc
    exact nomatch hdoc
  match h with
  | @RagStep.uploaded _ _ row jobId now D J hinsert _ _ =>
    rw [RagLibrary.document] at hnone
    have hfind := Table.find_of_insert hinsert (byDocumentId documentId)
    rw [hnone, Option.none_or] at hfind
    rw [RagLibrary.document, hfind] at hdoc
    split at hdoc
    · exact ⟨row, jobId, now, rfl, (Option.some.inj hdoc).symm⟩
    · exact nomatch hdoc
  | .loaded _ | .moved _ _ | .opened _ | .enqueued _ _ _ | .deadLettered _ _ | .cancelled _ _
  | .jobsDeleted _ _ | .rolledBack _ => exact nomatch hnone.symm.trans hdoc
  | .refused _ _ hwith _ _ _ _ =>
    obtain ⟨J, rfl, -⟩ := withJob_eq_some hwith
    exact nomatch hnone.symm.trans hdoc
  | .claimed hrun hstage hwith _ _ _ _ _ =>
    obtain ⟨J, rfl, -⟩ := withJob_eq_some hwith
    exact (hcommitted hdoc rfl).elim
  | .advanced hrun hnext _ hs =>
    refine (hcommitted hdoc ?_).elim
    rcases hs with rfl | ⟨job', -, rfl⟩ <;> rfl
  | .finished hrun hstage _ => exact (hcommitted hdoc rfl).elim
  | .failed hrun htry _ => exact (hcommitted hdoc rfl).elim
  | @RagStep.deleted _ _ k now d jobs D hx hupdate =>
    have hfind := Table.find_of_update (q := byDocumentId documentId) hupdate fun _ _ ↦ rfl
    rw [RagLibrary.document] at hnone
    rw [hnone] at hfind
    exact nomatch hfind.symm.trans hdoc
  | @RagStep.cleanedUp _ _ k now d chunks jobs hx =>
    have hnone' : ({ s with
        chunks := s.chunks.filter fun c ↦ c ∉ chunks
        jobs := s.jobs.delete jobs.contains
        cleaned := s.cleaned ++ [d] } : RagLibrary).document documentId = none := hnone
    have hdoc' : RagLibrary.document (modifyDocument _ d (scrubDeletedDocument now)) documentId =
      some document := hdoc
    rw [document_modifyDocument (ident_scrubDeletedDocument now), hnone', Option.map_none,
      ite_self] at hdoc'
    exact nomatch hdoc'

/-! ### Runs along a step -/

/-- How a run moves along a step. -/
inductive RunChange (S : Settings) (s : RagLibrary) (a : RagAction) (k : ℕ) (run : IndexRun) :
    IndexRun → Prop
  | same : RunChange S s a k run run
  | moved {run' : IndexRun} (hmove : RunMove s k run a run') : RunChange S s a k run run'
  | committed {stage : RunStage} {status : DocumentStatus}
      (hcommit : RunCommit S s k run a stage status) : RunChange S s a k run (run.moved stage status)

/-- Where a run after a step comes from. -/
inductive RunStep (S : Settings) (s : RagLibrary) (a : RagAction) (k : ℕ) : IndexRun → Prop
  | changed {run run' : IndexRun} (hrun : s.runs[k]? = some run)
      (hchange : RunChange S s a k run run') : RunStep S s a k run'
  | loaded {documentId jobId : Uuid} {createsJob : Bool} {userId : String} {document : RagDocument}
      (ha : a = .load documentId jobId createsJob userId)
      (hdoc : s.liveDocument documentId = some document) :
      RunStep S s a k ⟨document, jobId, createsJob, userId, .loaded, 0, [], []⟩

/-- What a step does to the runs: nothing, a new one, or one that changes. -/
inductive RunsStep (S : Settings) (s : RagLibrary) (a : RagAction) : List IndexRun → Prop
  | same : RunsStep S s a s.runs
  | loaded {documentId jobId : Uuid} {createsJob : Bool} {userId : String} {document : RagDocument}
      (ha : a = .load documentId jobId createsJob userId)
      (hdoc : s.liveDocument documentId = some document) :
      RunsStep S s a (s.runs ++ [⟨document, jobId, createsJob, userId, .loaded, 0, [], []⟩])
  | changed {k : ℕ} {run run' : IndexRun} (hrun : s.runs[k]? = some run)
      (hchange : RunChange S s a k run run') : RunsStep S s a (s.runs.set k run')

/-- **Runs along a step.** -/
theorem RagStep.runs_step (h : RagStep S s a t) : RunsStep S s a t.runs := by
  match h with
  | .uploaded _ _ _ | .opened _ | .enqueued _ _ _ | .deadLettered _ _ | .cancelled _ _ | .deleted _ _
  | .jobsDeleted _ _ | .cleanedUp _ | .rolledBack _ => exact .same
  | .loaded hdoc => exact .loaded rfl hdoc
  | .moved hrun hmove => exact .changed hrun (.moved hmove)
  | .refused hrun hstage hwith _ _ _ _ =>
    obtain ⟨J, rfl, -⟩ := withJob_eq_some hwith
    exact .changed hrun (.moved (.unclaimed _ _ hstage (.inl rfl)))
  | .claimed hrun hstage hwith hjob _ hof _ hstart =>
    have hbegins := begins_of_started hwith hjob hof hstart
    obtain ⟨J, rfl, -⟩ := withJob_eq_some hwith
    exact .changed hrun (.committed (.claimed _ hstage hbegins))
  | .advanced hrun hnext _ hs =>
    rcases hs with rfl | ⟨job', -, rfl⟩ <;> exact .changed hrun (.committed (.advanced _ hnext))
  | .finished hrun hstage hwritable =>
    exact .changed hrun (.committed (.finished _ hstage hwritable))
  | .failed hrun htry hwritable =>
    exact .changed hrun (.committed (.failed _ _ htry hwritable))

/-- Where the runs come from. -/
theorem RagStep.run_step (h : RagStep S s a t) (hrun : t.runs[k]? = some run) : RunStep S s a k run := by
  match t.runs, h.runs_step, hrun with
  | _, .same, hrun => exact .changed hrun .same
  | _, .loaded ha hdoc, hrun =>
    rcases slot_of_append hrun with ⟨-, rfl⟩ | ⟨-, hrun⟩
    · exact .loaded ha hdoc
    · exact .changed hrun .same
  | _, .changed hrun₀ hchange, hrun =>
    rcases slot_of_set hrun with ⟨rfl, rfl⟩ | ⟨-, hrun⟩
    · exact .changed hrun₀ hchange
    · exact .changed hrun .same

/-- Where the runs go to. -/
theorem RagStep.run_after (h : RagStep S s a t) (hrun : s.runs[k]? = some run) :
    ∃ run', t.runs[k]? = some run' ∧ RunChange S s a k run run' := by
  match t.runs, h.runs_step with
  | _, .same => exact ⟨run, hrun, .same⟩
  | _, .loaded _ _ => exact ⟨run, List.getElem?_append_left (List.getElem?_eq_some_iff.1 hrun).1 ▸ hrun, .same⟩
  | _, @RunsStep.changed _ _ _ j run₀ run' hrun₀ hchange =>
    rcases eq_or_ne k j with rfl | hne
    · obtain rfl := Option.some.inj (hrun₀.symm.trans hrun)
      exact ⟨run', List.getElem?_set_self (List.getElem?_eq_some_iff.1 hrun).1, hchange⟩
    · exact ⟨run, (List.getElem?_set_ne hne.symm).trans hrun, .same⟩

/-! ### Jobs along a step -/

/-- How a job moves along a step. -/
inductive JobMove (S : Settings) (s : RagLibrary) (a : RagAction) (job : RagIngestionJob) :
    RagIngestionJob → Prop
  | same : JobMove S s a job job
  | started {k : ℕ} {now : DateTime} {run : IndexRun} {job' : RagIngestionJob} (ha : a = .claim k now)
      (hrun : s.runs[k]? = some run) (hid : job.id = run.jobId) (hof : job.documentId = run.document.id)
      (hstart : startIndexing S now job = .started job') : JobMove S s a job job'
  | refused {k : ℕ} {now : DateTime} {run : IndexRun} {job' : RagIngestionJob} {detail : String}
      (ha : a = .claim k now) (hrun : s.runs[k]? = some run) (hid : job.id = run.jobId)
      (hof : job.documentId = run.document.id)
      (hstart : startIndexing S now job = .refused job' detail) : JobMove S s a job job'
  | touched {k : ℕ} {now : DateTime} {run : IndexRun} {job' : RagIngestionJob}
      (ha : a = .advance k now) (hrun : s.runs[k]? = some run) (hid : job.id = run.jobId)
      (htouch : touchJob now job = some job') : JobMove S s a job job'
  | completed {k : ℕ} {now : DateTime} {run : IndexRun} (ha : a = .finish k now)
      (hrun : s.runs[k]? = some run) (hstage : run.stage = .stored) (hid : job.id = run.jobId) :
      JobMove S s a job (completeIndexing now job)
  | failed {k : ℕ} {message : String} {now : DateTime} {run : IndexRun} (ha : a = .fail k message now)
      (hrun : s.runs[k]? = some run) (htry : run.stage.inTry = true) (hid : job.id = run.jobId) :
      JobMove S s a job (failIndexing message now job)
  | deadLettered {k : ℕ} {reason : String} {now : DateTime} {memory : RagIngestionJob}
      (ha : a = .commitDeadLetter k reason now) (hx : s.transactions[k]? = some (.deadLetter memory))
      (hid : job.id = memory.id) : JobMove S s a job (deadLetterJob memory reason now job)
  | cancelled {k : ℕ} {now : DateTime} (ha : a = .commitCancel k now)
      (hx : s.transactions[k]? = some (.cancel job.id)) :
      JobMove S s a job
        (updateIngestionJob .cancelled (some "cancelled_by_operator") false true now job)

/-- How a job is removed. -/
inductive JobRemoval (s : RagLibrary) (a : RagAction) (jobId : Uuid) : Prop
  | deleted {k : ℕ} {now : DateTime} {documentId : Uuid} {jobs : List Uuid} (ha : a = .commitDelete k now)
      (hx : s.transactions[k]? = some (.delete documentId jobs)) (hmem : jobId ∈ jobs)
  | cleanedUp {k : ℕ} {now : DateTime} {documentId : Uuid} {chunks : List ChunkRow} {jobs : List Uuid}
      (ha : a = .commitCleanup k now)
      (hx : s.transactions[k]? = some (.cleanupJobs documentId chunks jobs)) (hmem : jobId ∈ jobs)

/-- How a job comes about. -/
inductive JobCreation (S : Settings) (s : RagLibrary) (a : RagAction) (jobId : Uuid) :
    RagIngestionJob → Prop
  | uploaded {document : RagDocument} {now : DateTime} (ha : a = .upload document jobId now)
      (hnew : s.document document.id = none) :
      JobCreation S s a jobId (createIngestionJob S jobId document.id document.userId now)
  | enqueued {k : ℕ} {userId : String} {now : DateTime} {document : RagDocument}
      (ha : a = .commitEnqueue k jobId userId now)
      (hx : s.transactions[k]? = some (.enqueue document)) :
      JobCreation S s a jobId (createIngestionJob S jobId document.id userId now)
  | started {k : ℕ} {now : DateTime} {run : IndexRun} {job : RagIngestionJob} (ha : a = .claim k now)
      (hrun : s.runs[k]? = some run) (hcreates : run.createsJob = true) (hid : run.jobId = jobId)
      (hstart : startIndexing S now (createIngestionJob S jobId run.document.id run.userId now) =
        .started job) : JobCreation S s a jobId job
  | refused {k : ℕ} {now : DateTime} {run : IndexRun} {job : RagIngestionJob} {detail : String}
      (ha : a = .claim k now) (hrun : s.runs[k]? = some run) (hcreates : run.createsJob = true)
      (hid : run.jobId = jobId)
      (hstart : startIndexing S now (createIngestionJob S jobId run.document.id run.userId now) =
        .refused job detail) : JobCreation S s a jobId job

/-- What becomes of a job along a step. -/
inductive JobFate (S : Settings) (s : RagLibrary) (a : RagAction) (jobId : Uuid) :
    Option RagIngestionJob → Option RagIngestionJob → Prop
  | absent : JobFate S s a jobId none none
  | kept {job job' : RagIngestionJob} (hstep : JobMove S s a job job') :
      JobFate S s a jobId (some job) (some job')
  | deleted {job : RagIngestionJob} (hdeleted : JobRemoval s a jobId) :
      JobFate S s a jobId (some job) none
  | created {job : RagIngestionJob} (hnew : s.newJobId jobId = true)
      (hcreated : JobCreation S s a jobId job) : JobFate S s a jobId none (some job)

/-- The identifier of an inserted job is new. -/
theorem job_eq_none_of_insert {row : RagIngestionJob} {J : IngestionJobTable}
    (h : s.jobs.insert row = some J) : s.job row.id = none := by
  refine Table.find_eq_none_iff.2 fun r hr ↦ ?_
  exact decide_eq_false (Table.compat_of_insert h hr)

theorem job_insert {row : RagIngestionJob} {J : IngestionJobTable} (h : s.jobs.insert row = some J) :
    ({ s with jobs := J } : RagLibrary).job jobId = if jobId = row.id then some row else s.job jobId := by
  show J.find (byIngestionJobId jobId) = _
  rw [Table.find_of_insert h]
  by_cases hid : jobId = row.id
  · subst hid
    have hnone : s.jobs.find (byIngestionJobId row.id) = none := job_eq_none_of_insert h
    rw [hnone, Option.none_or, if_pos rfl, if_pos ((byIngestionJobId_ident _ _).2 rfl)]
  · rw [if_neg hid, if_neg fun hsel ↦ hid ((byIngestionJobId_ident _ _).1 hsel).symm, Option.or_none]
    rfl

theorem job_delete (jobs : List Uuid) :
    (s.jobs.delete jobs.contains).find (byIngestionJobId jobId) =
      if jobId ∈ jobs then none else s.job jobId := by
  rw [Table.find_delete (single_byIngestionJobId jobId)]
  show (s.job jobId).filter _ = _
  rcases hjob : s.job jobId with - | job
  · rw [Option.filter_none, ite_self]
  · have hid : ingestionJobSchema.ident job = jobId := id_of_job hjob
    rw [Option.filter_some, hid]
    by_cases hmem : jobId ∈ jobs
    · rw [if_pos hmem, if_neg]
      rw [List.contains_iff_mem.2 hmem]
      exact Bool.false_ne_true
    · rw [if_neg hmem, if_pos]
      rw [Bool.not_eq_true', Bool.eq_false_iff]
      exact fun hcontains ↦ hmem (List.contains_iff_mem.1 hcontains)

/-- The job that a run claims, and how it got there. -/
theorem job_withJob (h : s.withJob S run now = some s') {job : RagIngestionJob}
    (hjob : s'.job run.jobId = some job) :
    (∀ j, j ≠ run.jobId → s'.job j = s.job j) ∧
      (s.job run.jobId = some job ∨ s.job run.jobId = none ∧ s.newJobId run.jobId = true ∧
        run.createsJob = true ∧
          job = createIngestionJob S run.jobId run.document.id run.userId now) := by
  obtain ⟨J, rfl, rfl | ⟨hcreates, hnew, hinsert⟩⟩ := withJob_eq_some h
  · exact ⟨fun _ _ ↦ rfl, .inl hjob⟩
  · refine ⟨fun j hj ↦ ?_, .inr ⟨job_eq_none_of_insert hinsert, hnew, hcreates, ?_⟩⟩
    · rw [job_insert hinsert]
      exact if_neg hj
    · rw [job_insert hinsert] at hjob
      exact ((if_pos rfl).symm.trans hjob |> Option.some.inj).symm

section Fate

theorem JobFate.of_same (jobId : Uuid) (h : t.job jobId = s.job jobId) :
    JobFate S s a jobId (s.job jobId) (t.job jobId) := by
  rw [h]
  rcases s.job jobId with - | job
  · exact .absent
  · exact .kept .same

/-- A write to one job. -/
theorem JobFate.of_modify {f : RagIngestionJob → RagIngestionJob} {j : Uuid} (jobId : Uuid)
    (hs' : ∀ i, s'.job i = s.job i) (hf : ∀ row, s.job j = some row → (f row).id = row.id)
    (hstep : ∀ job, s.job j = some job → JobMove S s a job (f job)) :
    JobFate S s a jobId (s.job jobId) ((s'.modifyJob j f).job jobId) := by
  rw [job_modifyJob j fun row hrow ↦ hf row (hs' j ▸ hrow), hs']
  split
  · next heq =>
    subst heq
    rcases hjob : s.job jobId with - | job
    · exact .absent
    · exact .kept (hstep job hjob)
  · rcases s.job jobId with - | job
    · exact .absent
    · exact .kept .same

/-- An insertion. -/
theorem JobFate.of_insert {row : RagIngestionJob} {J : IngestionJobTable} (jobId : Uuid)
    (h : s.jobs.insert row = some J) (hnew : s.newJobId row.id = true)
    (hcreated : JobCreation S s a row.id row) :
    JobFate S s a jobId (s.job jobId) (({ s with jobs := J } : RagLibrary).job jobId) := by
  rw [job_insert h]
  split
  · next heq =>
    subst heq
    rw [job_eq_none_of_insert h]
    exact .created hnew hcreated
  · rcases s.job jobId with - | job
    · exact .absent
    · exact .kept .same

/-- A deletion. -/
theorem JobFate.of_delete {jobs : List Uuid} (jobId : Uuid)
    (hdeleted : jobId ∈ jobs → JobRemoval s a jobId) :
    JobFate S s a jobId (s.job jobId) ((s.jobs.delete jobs.contains).find (byIngestionJobId jobId)) := by
  rw [job_delete]
  split
  · next hmem =>
    rcases s.job jobId with - | job
    · exact .absent
    · exact .deleted (hdeleted hmem)
  · rcases s.job jobId with - | job
    · exact .absent
    · exact .kept .same

/-- A claim, with the job that it may have created. -/
theorem JobFate.of_claim {job job' : RagIngestionJob} (jobId : Uuid)
    (hwith : s.withJob S run now = some s') (hjob : s'.job run.jobId = some job)
    (hid : job'.id = job.id)
    (hstep : s.job run.jobId = some job → JobMove S s a job job')
    (hcreated : run.createsJob = true →
      job = createIngestionJob S run.jobId run.document.id run.userId now →
      JobCreation S s a run.jobId job') :
    JobFate S s a jobId (s.job jobId) ((s'.modifyJob run.jobId fun _ ↦ job').job jobId) := by
  obtain ⟨hother, hold⟩ := job_withJob hwith hjob
  have hf : ∀ row, s'.job run.jobId = some row → job'.id = row.id := fun row hrow ↦ by
    obtain rfl := Option.some.inj (hjob.symm.trans hrow)
    exact hid
  rw [job_modifyJob run.jobId hf]
  split
  · next heq =>
    subst heq
    rw [hjob]
    rcases hold with hold | ⟨hnone, hnew, hcreates, hcreate⟩
    · rw [hold]
      exact .kept (hstep hold)
    · rw [hnone]
      exact .created hnew (hcreated hcreates hcreate)
  · next hne =>
    rw [hother jobId hne]
    rcases s.job jobId with - | row
    · exact .absent
    · exact .kept .same

end Fate

/-- **Jobs along a step.** -/
theorem RagStep.job_step (h : RagStep S s a t) (jobId : Uuid) :
    JobFate S s a jobId (s.job jobId) (t.job jobId) := by
  match h with
  | @RagStep.uploaded _ _ row j now D J hdoc hnew hjob =>
    refine JobFate.of_insert jobId hjob hnew (.uploaded rfl ?_)
    refine Table.find_eq_none_iff.2 fun r hr ↦ decide_eq_false ?_
    exact (Table.compat_of_insert hdoc hr).1
  | .loaded _ | .moved _ _ | .opened _ | .jobsDeleted _ _ | .rolledBack _ =>
    exact JobFate.of_same jobId rfl
  | @RagStep.refused _ _ k now run s' job job' detail hrun hstage hwith hjob hfree hof hstart =>
    have hid := id_of_job hjob
    have hjob' := (startIndexing_refused hstart).2
    refine JobFate.of_claim jobId hwith hjob (by rw [hjob']; rfl)
      (fun _ ↦ .refused rfl hrun hid hof hstart) fun hcreates hcreate ↦ ?_
    subst hcreate
    exact .refused rfl hrun hcreates rfl hstart
  | @RagStep.claimed _ _ k now run s' job job' hrun hstage hwith hjob hfree hof hdoc hstart =>
    have hid := id_of_job hjob
    have hjob' := (startIndexing_started hstart).2
    refine JobFate.of_claim jobId hwith hjob (by rw [hjob']; rfl)
      (fun _ ↦ .started rfl hrun hid hof hstart) fun hcreates hcreate ↦ ?_
    subst hcreate
    exact .started rfl hrun hcreates rfl hstart
  | @RagStep.advanced _ _ k now run s' stage status touch hrun hnext hdoc hs =>
    rcases hs with rfl | ⟨job', htouch, rfl⟩
    · exact JobFate.of_same jobId rfl
    · rw [touches] at htouch
      split at htouch
      · obtain ⟨job, hjob, htouch⟩ := Option.bind_eq_some_iff.1 htouch
        refine JobFate.of_modify jobId (fun _ ↦ rfl) (fun row hrow ↦ ?_) fun row hrow ↦ ?_ <;>
          obtain rfl := Option.some.inj (hjob.symm.trans hrow)
        · rw [touchJob_eq_some htouch]
        · exact .touched rfl hrun (id_of_job hjob) htouch
      · exact nomatch htouch
  | @RagStep.finished _ _ k now run hrun hstage _ =>
    exact JobFate.of_modify jobId (fun _ ↦ rfl) (fun _ _ ↦ rfl)
      fun job hjob ↦ .completed rfl hrun hstage (id_of_job hjob)
  | @RagStep.failed _ _ k message now run hrun htry _ =>
    exact JobFate.of_modify jobId (fun _ ↦ rfl) (fun _ _ ↦ rfl)
      fun job hjob ↦ .failed rfl hrun htry (id_of_job hjob)
  | @RagStep.enqueued _ _ k j userId now document J hx hnew hjob =>
    exact JobFate.of_insert jobId hjob hnew (.enqueued rfl hx)
  | .deadLettered hx _ =>
    exact JobFate.of_modify jobId (fun _ ↦ rfl) (fun _ _ ↦ rfl)
      fun job hjob ↦ .deadLettered rfl hx (id_of_job hjob)
  | .cancelled hx _ =>
    refine JobFate.of_modify jobId (fun _ ↦ rfl) (fun _ _ ↦ rfl) fun job hjob ↦ .cancelled rfl ?_
    rw [id_of_job hjob]
    exact hx
  | .deleted hx _ => exact JobFate.of_delete jobId fun hmem ↦ .deleted rfl hx hmem
  | .cleanedUp hx => exact JobFate.of_delete jobId fun hmem ↦ .cleanedUp rfl hx hmem

/-- Where a job after a step comes from. -/
theorem RagStep.job_before (h : RagStep S s a t) {job' : RagIngestionJob}
    (hjob' : t.job jobId = some job') :
    (∃ job, s.job jobId = some job ∧ JobMove S s a job job') ∨
      (s.job jobId = none ∧ s.newJobId jobId = true ∧ JobCreation S s a jobId job') := by
  have hfate := h.job_step jobId
  rw [hjob'] at hfate
  rcases hjob : s.job jobId with - | job <;> rw [hjob] at hfate
  · obtain ⟨hnew, hcreated⟩ : s.newJobId jobId = true ∧ JobCreation S s a jobId job' := by
      match hfate with
      | .created hnew hcreated => exact ⟨hnew, hcreated⟩
    exact .inr ⟨rfl, hnew, hcreated⟩
  · refine .inl ⟨job, rfl, ?_⟩
    match hfate with
    | .kept hmove => exact hmove

/-- Where a job before a step goes to. -/
theorem RagStep.job_after (h : RagStep S s a t) {job : RagIngestionJob}
    (hjob : s.job jobId = some job) :
    (∃ job', t.job jobId = some job' ∧ JobMove S s a job job') ∨
      (t.job jobId = none ∧ JobRemoval s a jobId) := by
  have hfate := h.job_step jobId
  rw [hjob] at hfate
  rcases hjob' : t.job jobId with - | job' <;> rw [hjob'] at hfate
  · refine .inr ⟨rfl, ?_⟩
    match hfate with
    | .deleted hdeleted => exact hdeleted
  · refine .inl ⟨job', rfl, ?_⟩
    match hfate with
    | .kept hmove => exact hmove

/-! ### Chunks and transactions along a step -/

/-- The chunks after a step. -/
inductive ChunksStep (S : Settings) (s : RagLibrary) (a : RagAction) : List ChunkRow → Prop
  | same : ChunksStep S s a s.chunks
  | committed {k : ℕ} {run : IndexRun} {stage : RunStage} {status : DocumentStatus}
      (hrun : s.runs[k]? = some run) (hcommit : RunCommit S s k run a stage status) :
      ChunksStep S s a (run.applied s.chunks)
  | cleaned {k : ℕ} {now : DateTime} {documentId : Uuid} {chunks : List ChunkRow} {jobs : List Uuid}
      (ha : a = .commitCleanup k now)
      (hx : s.transactions[k]? = some (.cleanupJobs documentId chunks jobs)) :
      ChunksStep S s a (s.chunks.filter fun c ↦ c ∉ chunks)

/-- **Chunks along a step.** -/
theorem RagStep.chunks_step (h : RagStep S s a t) : ChunksStep S s a t.chunks := by
  match h with
  | .uploaded _ _ _ | .loaded _ | .moved _ _ | .opened _ | .enqueued _ _ _ | .deadLettered _ _
  | .cancelled _ _ | .deleted _ _ | .jobsDeleted _ _ | .rolledBack _ => exact .same
  | .refused _ _ hwith _ _ _ _ | .claimed _ _ hwith _ _ _ _ _ =>
    obtain ⟨J, rfl, -⟩ := withJob_eq_some hwith
    exact .same
  | .advanced _ _ _ hs =>
    rcases hs with rfl | ⟨job', -, rfl⟩ <;> exact .same
  | .finished hrun hstage hwritable => exact .committed hrun (.finished _ hstage hwritable)
  | .failed hrun htry hwritable => exact .committed hrun (.failed _ _ htry hwritable)
  | .cleanedUp hx => exact .cleaned rfl hx

/-- Where a transaction after a step comes from. -/
inductive TransactionStep (s : RagLibrary) (a : RagAction) (t : RagLibrary) (k : ℕ) : Transaction → Prop
  | same {x : Transaction} (hx : s.transactions[k]? = some x) : TransactionStep s a t k x
  | closed : TransactionStep s a t k .closed
  | opened {x : Transaction} (hopen : Opens s a x)
      (hsame : t.documents = s.documents ∧ t.jobs = s.jobs) : TransactionStep s a t k x
  | jobsDeleted {documentId : Uuid} {chunks : List ChunkRow} (ha : a = .cleanupJobs k)
      (hx : s.transactions[k]? = some (.cleanup documentId chunks))
      (hsame : t.documents = s.documents ∧ t.jobs = s.jobs) :
      TransactionStep s a t k (.cleanupJobs documentId chunks (s.jobsOf documentId))

/-- **Transactions along a step.** -/
theorem RagStep.transaction_step (h : RagStep S s a t) {x : Transaction}
    (hx : t.transactions[k]? = some x) : TransactionStep s a t k x := by
  have hclosed {s' : RagLibrary} {j : ℕ} (hx : (s'.setTransaction j .closed).transactions[k]? = some x)
      (hs' : s'.transactions = s.transactions) : TransactionStep s a t k x := by
    rcases slot_of_set hx with ⟨-, rfl⟩ | ⟨-, hx⟩
    · exact .closed
    · exact .same (hs' ▸ hx)
  match h with
  | .uploaded _ _ _ | .loaded _ | .moved _ _ | .finished _ _ _ | .failed _ _ _ => exact .same hx
  | .refused _ _ hwith _ _ _ _ | .claimed _ _ hwith _ _ _ _ _ =>
    obtain ⟨J, rfl, -⟩ := withJob_eq_some hwith
    exact .same hx
  | .advanced _ _ _ hs =>
    rcases hs with rfl | ⟨job', -, rfl⟩ <;> exact .same hx
  | .opened hopen =>
    rcases slot_of_append hx with ⟨-, rfl⟩ | ⟨-, hx⟩
    · exact .opened hopen ⟨rfl, rfl⟩
    · exact .same hx
  | .enqueued _ _ _ | .deadLettered _ _ | .cancelled _ _ | .deleted _ _ | .cleanedUp _
  | .rolledBack _ => exact hclosed hx rfl
  | .jobsDeleted hx' _ =>
    rcases slot_of_set hx with ⟨rfl, rfl⟩ | ⟨-, hx⟩
    · exact .jobsDeleted rfl hx' ⟨rfl, rfl⟩
    · exact .same hx

/-- A document whose cleanup has just committed. -/
theorem RagStep.cleaned_step (h : RagStep S s a t) (hcleaned : documentId ∈ t.cleaned) :
    documentId ∈ s.cleaned ∨ ∃ k now chunks jobs, a = .commitCleanup k now ∧
      s.transactions[k]? = some (.cleanupJobs documentId chunks jobs) := by
  match h with
  | .uploaded _ _ _ | .loaded _ | .moved _ _ | .finished _ _ _ | .failed _ _ _ | .opened _
  | .enqueued _ _ _ | .deadLettered _ _ | .cancelled _ _ | .deleted _ _ | .jobsDeleted _ _
  | .rolledBack _ => exact .inl hcleaned
  | .refused _ _ hwith _ _ _ _ | .claimed _ _ hwith _ _ _ _ _ =>
    obtain ⟨J, rfl, -⟩ := withJob_eq_some hwith
    exact .inl hcleaned
  | .advanced _ _ _ hs =>
    rcases hs with rfl | ⟨job', -, rfl⟩ <;> exact .inl hcleaned
  | @RagStep.cleanedUp _ _ k now d chunks jobs hx =>
    rcases List.mem_append.1 hcleaned with hmem | hmem
    · exact .inl hmem
    · obtain rfl := List.mem_singleton.1 hmem
      exact .inr ⟨k, now, chunks, jobs, rfl, hx⟩

end Rows

end GenericApp
