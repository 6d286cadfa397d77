import GenericApp.Rag.IndexSteps

/-!
# What holds in every state

A run writes only rows of its own document and version and remembers the status that it has committed
last; its job, once claimed, is a job of its document; a transaction is about rows of its own document,
and a cleanup about a deleted one. All of it is one invariant, `RagLibrary.WellFormed`.
-/

namespace GenericApp

open Machine Py RagLibrary

/-- The document status that a run has committed last, while it is inside its `try` block. -/
def RunStage.memory : RunStage → Option DocumentStatus
  | claimed => some .validating
  | extracting => some .extracting
  | chunking => some .chunking
  | embedding | replaced | stored => some .embedding
  | committed => some .indexed
  | loaded | returned | skipped | refused | failed | abandoned => none

/-- The rows of a run are its own, and it remembers the status that it has committed last. -/
structure IndexRun.WellFormed (k : ℕ) (run : IndexRun) : Prop where
  rows : ∃ contents, run.rows = newRows k run.document run.versionId contents
  doomed : ∀ c ∈ run.doomed, c.isOf run.document.id run.versionId = true
  memory : ∀ status ∈ run.stage.memory, run.document.status = status

/-- The document is there, and is deleted. -/
def RagLibrary.Deleted (s : RagLibrary) (documentId : Uuid) : Prop :=
  ∃ document, s.document documentId = some document ∧ document.deletedAt ≠ none

/-- The jobs are the document's, those that are still there. -/
def RagLibrary.OfDocument (s : RagLibrary) (documentId : Uuid) (jobs : List Uuid) : Prop :=
  ∀ j ∈ jobs, ∀ job, s.job j = some job → job.documentId = documentId

/-- A transaction is about rows of its own document, and a cleanup is about a deleted one. -/
def Transaction.WellFormed (s : RagLibrary) : Transaction → Prop
  | closed | deadLetter _ | cancel _ => True
  | enqueue document => ∃ row, s.document document.id = some row
  | delete documentId jobs => s.OfDocument documentId jobs
  | cleanup documentId chunks => s.Deleted documentId ∧ ∀ c ∈ chunks, c.documentId = documentId
  | cleanupJobs documentId chunks jobs =>
    (s.Deleted documentId ∧ ∀ c ∈ chunks, c.documentId = documentId) ∧ s.OfDocument documentId jobs

/-- What holds in every state. -/
structure RagLibrary.WellFormed (s : RagLibrary) : Prop where
  run : ∀ (k : ℕ) run, s.runs[k]? = some run → run.WellFormed k
  document : ∀ (k : ℕ) run, s.runs[k]? = some run → ∃ row, s.document run.document.id = some row
  job : ∀ (k : ℕ) run, s.runs[k]? = some run → run.stage.inTry = true →
    s.OfDocument run.document.id [run.jobId]
  transaction : ∀ (k : ℕ) x, s.transactions[k]? = some x → x.WellFormed s

section WellFormed

variable {S : Settings} {s t : RagLibrary} {a : RagAction} {documentId jobId : Uuid} {k : ℕ}
  {run run' : IndexRun} {document document' : RagDocument} {job job' : RagIngestionJob}

/-! #### Single rows -/

/-- A document stays deleted. -/
theorem DocumentStep.deletedAt (h : DocumentStep S s a documentId document document')
    (hdeleted : document.deletedAt ≠ none) : document'.deletedAt ≠ none := by
  match h with
  | .same | .status _ _ _ => exact hdeleted
  | .deleted _ _ => exact Option.some_ne_none _
  | .scrubbed _ _ =>
    rw [scrubDeletedDocument, if_neg hdeleted]
    exact hdeleted

theorem JobMove.keepsDocument (h : JobMove S s a job job') : job'.documentId = job.documentId := by
  match h with
  | .same | .completed _ _ _ _ | .failed _ _ _ _ | .deadLettered _ _ _ | .cancelled _ _ => rfl
  | .started _ _ _ _ hstart => rw [(startIndexing_started hstart).2]; rfl
  | .refused _ _ _ _ hstart => rw [(startIndexing_refused hstart).2]; rfl
  | .touched _ _ _ htouch => rw [touchJob_eq_some htouch]

theorem RagStep.document_stays (h : RagStep S s a t)
    (hdoc : ∃ row, s.document documentId = some row) : ∃ row, t.document documentId = some row := by
  obtain ⟨row, hrow⟩ := hdoc
  obtain ⟨row', hrow', -⟩ := h.document_step hrow
  exact ⟨row', hrow'⟩

theorem RagStep.deleted_stays (h : RagStep S s a t) (hdeleted : s.Deleted documentId) :
    t.Deleted documentId := by
  obtain ⟨row, hrow, hdel⟩ := hdeleted
  obtain ⟨row', hrow', hstep⟩ := h.document_step hrow
  exact ⟨row', hrow', hstep.deletedAt hdel⟩

/-- Jobs whose identifiers are taken stay the document's. -/
theorem RagStep.ofDocument_stays (h : RagStep S s a t) {jobs : List Uuid}
    (hof : s.OfDocument documentId jobs) (htaken : ∀ j ∈ jobs, s.newJobId j = false) :
    t.OfDocument documentId jobs := by
  intro j hj job' hjob'
  rcases h.job_before hjob' with ⟨job, hjob, hmove⟩ | ⟨-, hnew, -⟩
  · rw [hmove.keepsDocument]
    exact hof j hj job hjob
  · rw [htaken j hj] at hnew
    exact nomatch hnew

/-! #### Runs -/

theorem memory_of_next {stage stage' : RunStage} {status : DocumentStatus} {touch : Bool}
    (h : stage.next = some (stage', status, touch)) : stage'.memory = some status := by
  match stage, h with
  | .claimed, rfl | .extracting, rfl | .chunking, rfl => rfl

/-- A commit of a run leads to the stage that remembers the status, or to its end. -/
theorem RunCommit.memory {stage : RunStage} {status : DocumentStatus}
    (h : RunCommit S s k run a stage status) :
    stage.memory = some status ∨ stage.memory = none := by
  match h with
  | .claimed .. | .finished .. => exact .inl rfl
  | .advanced _ hnext => exact .inl (memory_of_next hnext)
  | .failed .. => exact .inr rfl

theorem IndexRun.WellFormed.moved (h : run.WellFormed k) {stage : RunStage} {status : DocumentStatus}
    (hmemory : stage.memory = some status ∨ stage.memory = none) :
    (run.moved stage status).WellFormed k where
  rows := h.rows
  doomed := h.doomed
  memory := fun status' hstatus ↦ by
    have hstatus : stage.memory = some status' := hstatus
    rcases hmemory with hmemory | hmemory <;> rw [hmemory] at hstatus
    · exact Option.some.inj hstatus
    · exact nomatch hstatus

/-- A run moves to a stage whose status it remembers already. -/
theorem IndexRun.WellFormed.setStage (h : run.WellFormed k) {stage : RunStage}
    (hmemory : ∀ status ∈ stage.memory, status ∈ run.stage.memory) :
    { run with stage := stage }.WellFormed k where
  rows := h.rows
  doomed := h.doomed
  memory := fun status hstatus ↦ h.memory status (hmemory status hstatus)

theorem RunMove.wellFormed (h : RunMove s k run a run') (hrun : run.WellFormed k) :
    run'.WellFormed k := by
  match h with
  | .unclaimed _ stage _ hend =>
    refine hrun.setStage fun status hstatus ↦ ?_
    rcases hend with rfl | rfl <;> exact nomatch hstatus
  | .replaced versionId contents now hstage _ =>
    refine ⟨⟨contents, rfl⟩, fun c hc ↦ (List.mem_filter.1 hc).2, fun status hstatus ↦ ?_⟩
    refine hrun.memory status ?_
    rw [hstage]
    exact hstatus
  | .stored hstage _ =>
    refine hrun.setStage fun status hstatus ↦ ?_
    rw [hstage]
    exact hstatus
  | .returned _ | .abandoned _ => exact hrun.setStage fun status hstatus ↦ nomatch hstatus

/-- A run stays about its document and its job. -/
theorem RunMove.keeps (h : RunMove s k run a run') :
    run'.document = run.document ∧ run'.jobId = run.jobId := by
  match h with
  | .unclaimed .. | .replaced .. | .stored .. | .returned .. | .abandoned .. => exact ⟨rfl, rfl⟩

/-- A run that is inside its `try` block without a commit was there before. -/
theorem RunMove.inTry (h : RunMove s k run a run') (htry : run'.stage.inTry = true) :
    run.stage.inTry = true := by
  match h with
  | .unclaimed _ stage _ hend =>
    rcases hend with rfl | rfl <;> exact nomatch htry
  | .replaced _ _ _ hstage _ | .stored hstage _ =>
    rw [hstage]
    rfl
  | .returned _ | .abandoned _ => exact nomatch htry

theorem inTry_of_next {stage : RunStage} {next : RunStage × DocumentStatus × Bool}
    (h : stage.next = some next) : stage.inTry = true := by
  match stage, h with
  | .claimed, _ | .extracting, _ | .chunking, _ => rfl

theorem RunCommit.inTry {stage : RunStage} {status : DocumentStatus}
    (h : RunCommit S s k run a stage status) : run.stage.inTry = true ∨ ∃ now, a = .claim k now := by
  match h with
  | .claimed now _ _ => exact .inr ⟨now, rfl⟩
  | .advanced _ hnext => exact .inl (inTry_of_next hnext)
  | .finished _ hstage _ =>
    rw [hstage]
    exact .inl rfl
  | .failed _ _ htry _ => exact .inl htry

/-- The job of a run that has just claimed it. -/
theorem RagStep.claimed_job {now : DateTime} (h : RagStep S s a t) (ha : a = .claim k now)
    (hrun : t.runs[k]? = some run') (htry : run'.stage.inTry = true) :
    ∃ job job', startIndexing S now job = .started job' ∧ job.documentId = run'.document.id ∧
      t.job run'.jobId = some job' := by
  match h with
  | .uploaded .. | .loaded .. | .advanced .. | .finished .. | .failed .. | .enqueued ..
  | .deadLettered .. | .cancelled .. | .deleted .. | .jobsDeleted .. | .cleanedUp .. | .rolledBack .. =>
    exact nomatch ha
  | .opened hopen =>
    subst ha
    exact nomatch hopen
  | .moved _ hmove =>
    subst ha
    match hmove with
    | .unclaimed _ stage _ hend =>
      rcases slot_of_set hrun with ⟨-, rfl⟩ | ⟨hne, -⟩
      · rcases hend with rfl | rfl <;> exact nomatch htry
      · exact absurd rfl hne
  | .refused .. =>
    obtain ⟨rfl, rfl⟩ := RagAction.claim.inj ha
    rcases slot_of_set hrun with ⟨-, rfl⟩ | ⟨hne, -⟩
    · exact nomatch htry
    · exact absurd rfl hne
  | @RagStep.claimed _ _ _ _ run s' job job' _ _ hwith hjob _ hof _ hstart =>
    obtain ⟨rfl, rfl⟩ := RagAction.claim.inj ha
    rcases slot_of_set hrun with ⟨-, rfl⟩ | ⟨hne, -⟩
    · refine ⟨job, job', hstart, hof, ?_⟩
      have hid : ∀ row, s'.job run.jobId = some row → job'.id = row.id := fun row hrow ↦ by
        obtain rfl := Option.some.inj (hjob.symm.trans hrow)
        rw [(startIndexing_started hstart).2]
        rfl
      show (s'.modifyJob run.jobId fun _ ↦ job').job run.jobId = some job'
      rw [job_modifyJob run.jobId hid, if_pos rfl, hjob]
      rfl
    · exact absurd rfl hne

/-- A failure is never what the run remembers. -/
theorem memory_ne_failed (hrun : run.WellFormed k) (htry : run.stage.inTry = true) :
    run.document.status ≠ .failed := by
  have hmemory := hrun.memory
  match hstage : run.stage, htry with
  | .claimed, _ | .extracting, _ | .chunking, _ | .embedding, _ | .replaced, _ | .stored, _
  | .committed, _ =>
    rw [hstage] at hmemory
    rw [hmemory _ rfl]
    exact fun h ↦ nomatch h

/-! #### The whole state -/

/-- The job of a run that has begun is not a new one. -/
theorem newJobId_of_run (hrun : s.runs[k]? = some run) (hstage : run.stage ≠ .loaded) :
    s.newJobId run.jobId = false := by
  refine Bool.eq_false_iff.2 fun hnew ↦ ?_
  rw [newJobId, Bool.and_eq_true, List.all_eq_true] at hnew
  have hrun' := hnew.2 run (List.mem_of_getElem? hrun)
  rw [Bool.or_eq_true, decide_eq_true_eq, decide_eq_true_eq] at hrun'
  exact hrun'.elim (fun h ↦ h rfl) hstage

/-- Nor is one that a transaction has deleted. -/
theorem newJobId_of_transaction {x : Transaction} (hx : s.transactions[k]? = some x)
    (hlocks : x.locksJob jobId = true) : s.newJobId jobId = false := by
  refine Bool.eq_false_iff.2 fun hnew ↦ ?_
  rw [newJobId, Bool.and_eq_true, jobFree, List.all_eq_true] at hnew
  have hfree := hnew.1 x (List.mem_of_getElem? hx)
  rw [hlocks] at hfree
  exact nomatch hfree

theorem jobsOf_ofDocument (d : Uuid) : s.OfDocument d (s.jobsOf d) := by
  intro j hj job hjob
  obtain ⟨row, hrow, rfl⟩ := List.mem_map.1 hj
  obtain ⟨hmem, hof⟩ := List.mem_filter.1 hrow
  have hfind := Table.find_eq_some_of_mem (single_byIngestionJobId row.id) hmem
    ((byIngestionJobId_ident _ _).2 rfl)
  obtain rfl : row = job := Option.some.inj (hfind.symm.trans hjob)
  exact of_decide_eq_true hof

theorem mem_jobsOf (hjob : s.job jobId = some job) : jobId ∈ s.jobsOf job.documentId := by
  refine List.mem_map.2 ⟨job, List.mem_filter.2 ⟨Table.mem_of_find hjob, decide_eq_true rfl⟩, ?_⟩
  exact id_of_job hjob

theorem Opens.wellFormed {x : Transaction} (h : Opens s a x) : x.WellFormed s := by
  match h with
  | .enqueue hdoc =>
    obtain ⟨hdoc, -⟩ := Option.filter_eq_some_iff.1 hdoc
    have hid := id_of_document hdoc
    exact ⟨_, hid ▸ hdoc⟩
  | .deadLetter _ _ | .cancel _ _ => trivial
  | .delete _ _ => exact jobsOf_ofDocument _
  | .cleanup hdoc hdeleted =>
    exact ⟨⟨_, hdoc, hdeleted⟩, fun c hc ↦ of_decide_eq_true (List.mem_filter.1 hc).2⟩

/-- Only the documents and the jobs matter. -/
theorem Transaction.WellFormed.congr {x : Transaction}
    (hsame : t.documents = s.documents ∧ t.jobs = s.jobs) (h : x.WellFormed s) : x.WellFormed t := by
  have hdoc : t.document = s.document := by
    funext d
    rw [RagLibrary.document, RagLibrary.document, hsame.1]
  have hjob : t.job = s.job := by
    funext j
    rw [RagLibrary.job, RagLibrary.job, hsame.2]
  cases x with
  | closed | deadLetter | cancel => trivial
  | enqueue document =>
    show ∃ row, t.document document.id = some row
    rw [hdoc]
    exact h
  | delete d jobs =>
    show t.OfDocument d jobs
    rw [OfDocument, hjob]
    exact h
  | cleanup d chunks =>
    show t.Deleted d ∧ _
    rw [Deleted, hdoc]
    exact h
  | cleanupJobs d chunks jobs =>
    show (t.Deleted d ∧ _) ∧ t.OfDocument d jobs
    rw [Deleted, OfDocument, hdoc, hjob]
    exact h

/-- A transaction that does not move stays about rows of its own document. -/
theorem RagStep.transaction_stays (h : RagStep S s a t) {x : Transaction}
    (hx : s.transactions[k]? = some x) (hwell : x.WellFormed s) : x.WellFormed t := by
  have hjobs {d : Uuid} {jobs : List Uuid} (hof : s.OfDocument d jobs)
      (hlocks : ∀ j ∈ jobs, x.locksJob j = true) : t.OfDocument d jobs :=
    h.ofDocument_stays hof fun j hj ↦ newJobId_of_transaction hx (hlocks j hj)
  match x, hwell with
  | .closed, _ | .deadLetter _, _ | .cancel _, _ => trivial
  | .enqueue _, hrow => exact h.document_stays hrow
  | .delete _ _, hof => exact hjobs hof fun j hj ↦ List.contains_iff_mem.2 hj
  | .cleanup _ _, ⟨hdeleted, hchunks⟩ => exact ⟨h.deleted_stays hdeleted, hchunks⟩
  | .cleanupJobs _ _ _, ⟨⟨hdeleted, hchunks⟩, hof⟩ =>
    exact ⟨⟨h.deleted_stays hdeleted, hchunks⟩, hjobs hof fun j hj ↦ List.contains_iff_mem.2 hj⟩

theorem RagLibrary.WellFormed.initial : RagLibrary.initial.WellFormed where
  run := fun _ _ h ↦ nomatch h
  document := fun _ _ h ↦ nomatch h
  job := fun _ _ h ↦ nomatch h
  transaction := fun _ _ h ↦ nomatch h

/-- **Every step keeps the invariant.** -/
theorem RagLibrary.WellFormed.step (hs : s.WellFormed) (h : RagStep S s a t) : t.WellFormed where
  run := fun k run' hrun' ↦ by
    match h.run_step hrun' with
    | .changed hrun .same => exact hs.run k run' hrun
    | .loaded _ _ => exact ⟨⟨[], rfl⟩, fun _ hc ↦ (nomatch hc), fun _ hstatus ↦ (nomatch hstatus)⟩
    | .changed hrun (.moved hmove) => exact hmove.wellFormed (hs.run k _ hrun)
    | .changed hrun (.committed hcommit) => exact (hs.run k _ hrun).moved hcommit.memory
  document := fun k run' hrun' ↦ by
    refine h.document_stays ?_
    match h.run_step hrun' with
    | .changed hrun .same => exact hs.document k run' hrun
    | .loaded _ hdoc =>
      obtain ⟨hdoc, -⟩ := Option.filter_eq_some_iff.1 hdoc
      exact ⟨_, (id_of_document hdoc).symm ▸ hdoc⟩
    | .changed hrun (.moved hmove) =>
      rw [hmove.keeps.1]
      exact hs.document k _ hrun
    | @RunStep.changed _ _ _ _ run _ hrun (.committed hcommit) =>
      show ∃ row, s.document run.document.id = some row
      exact hs.document k run hrun
  job := fun k run' hrun' htry ↦ by
    have hstays {run : IndexRun} (hrun : s.runs[k]? = some run) (htry : run.stage.inTry = true) :
        t.OfDocument run.document.id [run.jobId] :=
      h.ofDocument_stays (hs.job k run hrun htry) fun j hj ↦ by
        obtain rfl := List.mem_singleton.1 hj
        refine newJobId_of_run hrun fun hloaded ↦ ?_
        rw [hloaded] at htry
        exact nomatch htry
    match h.run_step hrun' with
    | .changed hrun .same => exact hstays hrun htry
    | .loaded _ _ => exact nomatch htry
    | .changed hrun (.moved hmove) =>
      rw [hmove.keeps.1, hmove.keeps.2]
      exact hstays hrun (hmove.inTry htry)
    | @RunStep.changed _ _ _ _ run _ hrun (.committed hcommit) =>
      rcases hcommit.inTry with htry' | ⟨now, ha⟩
      · show t.OfDocument run.document.id [run.jobId]
        exact hstays hrun htry'
      · intro j hj row hrow
        obtain rfl := List.mem_singleton.1 hj
        obtain ⟨job, job', hstart, hof, hjob'⟩ := h.claimed_job ha hrun' htry
        obtain rfl := Option.some.inj (hjob'.symm.trans hrow)
        rw [(startIndexing_started hstart).2]
        exact hof
  transaction := fun k x hx' ↦ by
    match h.transaction_step hx' with
    | .same hx => exact h.transaction_stays hx (hs.transaction k x hx)
    | .closed => trivial
    | .opened hopen hsame => exact hopen.wellFormed.congr hsame
    | .jobsDeleted _ hx hsame =>
      have hcleanup := hs.transaction k _ hx
      exact Transaction.WellFormed.congr hsame ⟨hcleanup, jobsOf_ofDocument _⟩

/-- **The invariant of all runs.** -/
theorem wellFormed_of_reachable {C : RagLibrary → RagAction → Prop}
    (h : (ragMachine S).Reachable C s) : s.WellFormed := by
  refine h.invariant (fun s hinit ↦ ?_) fun _ _ _ hs _ hstep ↦ hs.step (ragStep_sound hstep)
  obtain rfl : s = .initial := hinit
  exact .initial

/-! #### The chunks of a document under a version -/

theorem isOf_newRows {document : RagDocument} {versionId : Uuid} {contents : List (String × String)}
    {c : ChunkRow} (hc : c ∈ newRows k document versionId contents) :
    c.isOf document.id versionId = true := by
  obtain ⟨i, hi, rfl⟩ := List.mem_mapIdx.1 hc
  exact decide_eq_true ⟨rfl, rfl⟩

theorem writer_of_newRows {document : RagDocument} {versionId : Uuid}
    {contents : List (String × String)} {c : ChunkRow}
    (hc : c ∈ newRows k document versionId contents) : c.writer = k := by
  obtain ⟨i, hi, rfl⟩ := List.mem_mapIdx.1 hc
  rfl

theorem IndexRun.WellFormed.isOf_rows (h : run.WellFormed k) {c : ChunkRow} (hc : c ∈ run.rows) :
    c.isOf run.document.id run.versionId = true := by
  obtain ⟨contents, hrows⟩ := h.rows
  exact isOf_newRows (hrows ▸ hc)

theorem eq_of_isOf {c : ChunkRow} {d v d' v' : Uuid} (h : c.isOf d v = true) (h' : c.isOf d' v' = true) :
    d = d' ∧ v = v' := by
  obtain ⟨rfl, rfl⟩ := of_decide_eq_true h
  exact of_decide_eq_true h'

/-- Before its last transaction a run has no chunks to commit. -/
theorem applied_of_next {next : RunStage × DocumentStatus × Bool} (h : run.stage.next = some next)
    (chunks : List ChunkRow) : run.applied chunks = chunks := by
  rw [IndexRun.applied]
  match hstage : run.stage, h with
  | .claimed, _ | .extracting, _ | .chunking, _ => rfl

/-- A commit of a run touches the chunks of its own document and version only. -/
theorem IndexRun.WellFormed.applied_elsewhere (h : run.WellFormed k) {d v : Uuid}
    (hne : ¬(run.document.id = d ∧ run.versionId = v)) (chunks : List ChunkRow) :
    (run.applied chunks).filter (ChunkRow.isOf d v) = chunks.filter (ChunkRow.isOf d v) := by
  have hdoomed : (chunks.filter fun c ↦ c ∉ run.doomed).filter (ChunkRow.isOf d v) =
      chunks.filter (ChunkRow.isOf d v) := by
    rw [List.filter_filter]
    refine List.filter_congr fun c _ ↦ ?_
    by_cases hc : c.isOf d v = true
    · rw [hc, Bool.true_and]
      exact decide_eq_true fun hmem ↦ hne (eq_of_isOf (h.doomed c hmem) hc)
    · rw [Bool.eq_false_iff.2 hc, Bool.false_and]
  have hrows : run.rows.filter (ChunkRow.isOf d v) = [] :=
    List.filter_eq_nil_iff.2 fun c hc hisOf ↦ hne (eq_of_isOf (h.isOf_rows hc) hisOf)
  rw [IndexRun.applied]
  split
  · exact hdoomed
  · rw [List.filter_append, hdoomed, hrows, List.append_nil]
  · rfl

end WellFormed

end GenericApp
