import GenericApp.Rag.Serving

/-!
# Whether deletion is final

`delete_document` sets `deleted_at` and deletes the jobs, `cleanup_deleted_document` deletes the chunks and
once more the jobs. Nothing ever clears `deleted_at`, and `_scope_filters` requires it to be null, so no
search returns a chunk of the document from then on.

That nothing of the document is stored after its cleanup rests on the jobs: the last commit of a run
updates its job, and fails if a deletion has taken the job away. But `enqueue_document_indexing` and a
call of `index_document` without a job insert one for a document that they have read before the deletion,
and no constraint and no second look at `deleted_at` stops them.

* `deletion_is_final`: as long as nobody inserts a job for a document after a cleanup has deleted its
  jobs, nor commits chunks between the two `DELETE` statements of a cleanup, nothing is left.
* `deletion_is_not_final`: a run that has read the document in time stores its chunks afterwards.
-/

namespace GenericApp

open Machine Py RagLibrary

/-! ### Cleanups -/

namespace Transaction

/-- The transaction is a cleanup that has deleted the chunks of the document, and not yet its jobs. -/
def cleansChunks (documentId : Uuid) : Transaction → Bool
  | cleanup documentId' _ => documentId' = documentId
  | closed | enqueue _ | deadLetter _ | cancel _ | delete _ _ | cleanupJobs _ _ _ => false

/-- The transaction is a cleanup that has deleted the jobs of the document. -/
def cleansJobs (documentId : Uuid) : Transaction → Bool
  | cleanupJobs documentId' _ _ => documentId' = documentId
  | closed | enqueue _ | deadLetter _ | cancel _ | delete _ _ | cleanup _ _ => false

/-- The document that a job is to be made for. -/
def enqueued : Transaction → Option RagDocument
  | enqueue document => some document
  | closed | deadLetter _ | cancel _ | delete _ _ | cleanup _ _ | cleanupJobs _ _ _ => none

end Transaction

namespace RagLibrary

/-- A cleanup of the document is between its two deletions. -/
def BetweenDeletes (s : RagLibrary) (documentId : Uuid) : Prop :=
  ∃ x ∈ s.transactions, x.cleansChunks documentId = true

/-- A cleanup of the document has deleted its jobs. -/
def JobsGone (s : RagLibrary) (documentId : Uuid) : Prop :=
  documentId ∈ s.cleaned ∨ ∃ x ∈ s.transactions, x.cleansJobs documentId = true

end RagLibrary

instance (s : RagLibrary) (documentId : Uuid) : Decidable (s.BetweenDeletes documentId) :=
  inferInstanceAs (Decidable (∃ x ∈ s.transactions, _))

instance (s : RagLibrary) (documentId : Uuid) : Decidable (s.JobsGone documentId) :=
  inferInstanceAs (Decidable (_ ∨ ∃ x ∈ s.transactions, _))

/-- The step does not insert a job for a document whose jobs a cleanup has deleted, nor commit chunks of a
document between the two deletions of its cleanup. -/
def KeepsDeleted (s : RagLibrary) : RagAction → Prop
  | .claim k _ => ∀ run ∈ s.runs[k]?, run.createsJob = true → ¬s.JobsGone run.document.id
  | .commitEnqueue k _ _ _ =>
    ∀ document ∈ (s.transactions[k]?).bind Transaction.enqueued, ¬s.JobsGone document.id
  | .finish k _ | .fail k _ _ => ∀ run ∈ s.runs[k]?, run.stage = .stored → run.rows ≠ [] →
    ¬s.BetweenDeletes run.document.id
  | _ => True

instance (s : RagLibrary) (a : RagAction) : Decidable (KeepsDeleted s a) :=
  match a with
  | .claim k _ =>
    inferInstanceAs (Decidable (∀ run ∈ s.runs[k]?, run.createsJob = true → ¬s.JobsGone run.document.id))
  | .commitEnqueue k _ _ _ =>
    inferInstanceAs (Decidable (∀ document ∈ (s.transactions[k]?).bind Transaction.enqueued,
      ¬s.JobsGone document.id))
  | .finish k _ | .fail k _ _ =>
    inferInstanceAs (Decidable (∀ run ∈ s.runs[k]?, run.stage = .stored → run.rows ≠ [] →
      ¬s.BetweenDeletes run.document.id))
  | .upload .. | .load .. | .advance .. | .replace .. | .store _ | .report _ | .abandon _ | .enqueue _
  | .deadLetter _ | .commitDeadLetter .. | .cancel _ | .commitCancel .. | .delete _ | .commitDelete ..
  | .cleanup _ | .cleanupJobs _ | .commitCleanup .. | .rollback _ => isTrue trivial

namespace RagLibrary

/-- The document has no other chunks. -/
def NoChunksBut (s : RagLibrary) (documentId : Uuid) (chunks : List ChunkRow) : Prop :=
  ∀ c ∈ s.chunks, c.documentId = documentId → c ∈ chunks

/-- The document has no other jobs. -/
def NoJobsBut (s : RagLibrary) (documentId : Uuid) (jobs : List Uuid) : Prop :=
  ∀ j job, s.job j = some job → job.documentId = documentId → j ∈ jobs

/-- A cleanup deletes all there is. -/
structure Cleaning (s : RagLibrary) : Prop where
  well : s.WellFormed
  cleanup : ∀ (k : ℕ) d chunks, s.transactions[k]? = some (.cleanup d chunks) → s.NoChunksBut d chunks
  cleanupJobs : ∀ (k : ℕ) d chunks jobs, s.transactions[k]? = some (.cleanupJobs d chunks jobs) →
    s.NoChunksBut d chunks ∧ s.NoJobsBut d jobs
  cleaned : ∀ d ∈ s.cleaned, s.Deleted d ∧ s.NoChunksBut d [] ∧ s.NoJobsBut d []

end RagLibrary

section Steps

variable {S : Settings} {s t : RagLibrary} {a : RagAction} {d : Uuid} {k : ℕ} {chunks : List ChunkRow}
  {jobs : List Uuid}

/-- A chunk is there already, or is committed by the end of a run. -/
theorem chunk_before (h : RagStep S s a t) {c : ChunkRow} (hc : c ∈ t.chunks) :
    c ∈ s.chunks ∨ ∃ (k : ℕ) (run : IndexRun), s.runs[k]? = some run ∧ run.stage = .stored ∧
      c ∈ run.rows ∧ s.writable run = true ∧
        ((∃ now, a = .finish k now) ∨ ∃ message now, a = .fail k message now) := by
  match t.chunks, h.chunks_step, hc with
  | _, .same, hc => exact .inl hc
  | _, .cleaned _ _, hc => exact .inl (List.mem_filter.1 hc).1
  | _, @ChunksStep.committed _ _ _ k run _ _ hrun hcommit, hc =>
    match hcommit with
    | .claimed _ hstage _ =>
      rw [IndexRun.applied, hstage] at hc
      exact .inl hc
    | .advanced _ hnext =>
      rw [applied_of_next hnext] at hc
      exact .inl hc
    | .finished now hstage hwritable =>
      rw [IndexRun.applied, hstage] at hc
      rcases List.mem_append.1 hc with hc | hc
      · exact .inl (List.mem_filter.1 hc).1
      · exact .inr ⟨k, run, hrun, hstage, hc, hwritable, .inl ⟨now, rfl⟩⟩
    | .failed message now htry hwritable =>
      rw [IndexRun.applied] at hc
      split at hc
      · exact .inl (List.mem_filter.1 hc).1
      · next hstage =>
        rcases List.mem_append.1 hc with hc | hc
        · exact .inl (List.mem_filter.1 hc).1
        · exact .inr ⟨k, run, hrun, hstage, hc, hwritable, .inr ⟨message, now, rfl⟩⟩
      · exact .inl hc

/-- The job of a run that can commit its chunks is one of the document's. -/
theorem writable_job (hs : s.WellFormed) {run : IndexRun} (hrun : s.runs[k]? = some run)
    (hstage : run.stage = .stored) (hwritable : s.writable run = true) :
    s.jobFree run.jobId = true ∧
      ∃ job, s.job run.jobId = some job ∧ job.documentId = run.document.id := by
  simp only [writable, Bool.and_eq_true] at hwritable
  obtain ⟨⟨hjob, hfree⟩, -⟩ := hwritable
  obtain ⟨job, hjob⟩ := Option.isSome_iff_exists.1 hjob
  have htry : run.stage.inTry = true := by
    rw [hstage]
    rfl
  exact ⟨hfree, job, hjob, hs.job k run hrun htry run.jobId List.mem_cons_self job hjob⟩

/-- No chunks come back to a document on which no run can commit any. -/
theorem noChunksBut_step (hs : s.WellFormed) (h : RagStep S s a t) (hchunks : s.NoChunksBut d chunks)
    (hblocked : ∀ (k : ℕ) run, s.runs[k]? = some run → run.stage = .stored → run.rows ≠ [] →
      s.writable run = true → ((∃ now, a = .finish k now) ∨ ∃ message now, a = .fail k message now) →
      run.document.id ≠ d) : t.NoChunksBut d chunks := by
  intro c hc hd
  rcases chunk_before h hc with hc | ⟨k, run, hrun, hstage, hc, hwritable, ha⟩
  · exact hchunks c hc hd
  · have hid := (of_decide_eq_true ((hs.run k run hrun).isOf_rows hc)).1
    exact absurd (hid.symm.trans hd) (hblocked k run hrun hstage (List.ne_nil_of_mem hc) hwritable ha)

/-- No run can commit chunks of a document whose jobs are all deleted. -/
theorem blocked_of_jobs (hs : s.WellFormed)
    (hjobs : ∀ j job, s.job j = some job → job.documentId = d → s.jobFree j = false) :
    ∀ (k : ℕ) run, s.runs[k]? = some run → run.stage = .stored → run.rows ≠ [] →
      s.writable run = true → ((∃ now, a = .finish k now) ∨ ∃ message now, a = .fail k message now) →
      run.document.id ≠ d := by
  intro k run hrun hstage _ hwritable _ hid
  obtain ⟨hfree, job, hjob, hof⟩ := writable_job hs hrun hstage hwritable
  exact nomatch (hjobs _ job hjob (hof.trans hid)).symm.trans hfree

theorem jobFree_of_transaction {x : Transaction} (hx : s.transactions[k]? = some x) {j : Uuid}
    (hlocks : x.locksJob j = true) : s.jobFree j = false := by
  refine Bool.eq_false_iff.2 fun hfree ↦ ?_
  have hx' := List.all_eq_true.1 hfree x (List.mem_of_getElem? hx)
  rw [hlocks] at hx'
  exact nomatch hx'

/-- **No jobs come back** to a deleted document. -/
theorem noJobsBut_step (h : RagStep S s a t) (hC : KeepsDeleted s a) (hd : s.Deleted d)
    (hgone : s.JobsGone d) (hjobs : s.NoJobsBut d jobs) : t.NoJobsBut d jobs := by
  intro j job' hjob' hof
  rcases h.job_before hjob' with ⟨job, hjob, hmove⟩ | ⟨-, -, hcreation⟩
  · exact hjobs j job hjob (hmove.keepsDocument.symm.trans hof)
  · match hcreation with
    | .uploaded _ hnew =>
      obtain ⟨row, hrow, -⟩ := hd
      rw [← hof] at hrow
      exact nomatch hnew.symm.trans hrow
    | .enqueued ha hx =>
      subst ha
      refine absurd (hof ▸ hgone) (hC _ ?_)
      rw [hx]
      rfl
    | @JobCreation.started _ _ _ _ k now run _ ha hrun hcreates _ hstart =>
      subst ha
      rw [(startIndexing_started hstart).2] at hof
      have hof : run.document.id = d := hof
      exact absurd (hof ▸ hgone) (hC run hrun hcreates)
    | @JobCreation.refused _ _ _ _ k now run _ _ ha hrun hcreates _ hstart =>
      subst ha
      rw [(startIndexing_refused hstart).2] at hof
      have hof : run.document.id = d := hof
      exact absurd (hof ▸ hgone) (hC run hrun hcreates)

/-- What a cleanup that has deleted all jobs has found stays all there is. -/
theorem gone_step (hs : s.WellFormed) (h : RagStep S s a t) (hC : KeepsDeleted s a) (hd : s.Deleted d)
    (hgone : s.JobsGone d) (hchunks : s.NoChunksBut d chunks) (hjobs : s.NoJobsBut d jobs)
    (hlocked : ∀ j ∈ jobs, s.jobFree j = false) : t.NoChunksBut d chunks ∧ t.NoJobsBut d jobs := by
  have hblocked := blocked_of_jobs (a := a) hs fun j job hjob hof ↦ hlocked j (hjobs j job hjob hof)
  exact ⟨noChunksBut_step hs h hchunks hblocked, noJobsBut_step h hC hd hgone hjobs⟩

/-- A step that opens a transaction adds no chunks. -/
theorem Opens.mem_chunks {x : Transaction} (hopen : Opens s a x) (h : RagStep S s a t) {c : ChunkRow}
    (hc : c ∈ t.chunks) : c ∈ s.chunks := by
  rcases chunk_before h hc with hc | ⟨k, run, -, -, -, -, ⟨now, rfl⟩ | ⟨message, now, rfl⟩⟩
  · exact hc
  · exact nomatch hopen
  · exact nomatch hopen

/-- A cleanup between its two deletions. -/
theorem RagLibrary.Cleaning.cleanup_step (hs : s.Cleaning) (h : RagStep S s a t) (hC : KeepsDeleted s a)
    (hx : t.transactions[k]? = some (.cleanup d chunks)) : t.NoChunksBut d chunks := by
  match h.transaction_step hx with
  | .same hx =>
    refine noChunksBut_step hs.well h (hs.cleanup k d chunks hx) fun j run hrun hstage hne _ ha hid ↦ ?_
    have hbetween : s.BetweenDeletes run.document.id :=
      ⟨_, List.mem_of_getElem? hx, decide_eq_true hid.symm⟩
    rcases ha with ⟨now, rfl⟩ | ⟨message, now, rfl⟩ <;> exact hC run hrun hstage hne hbetween
  | .opened hopen _ =>
    match hopen with
    | .cleanup hdoc hdeleted =>
      intro c hc hid
      exact List.mem_filter.2 ⟨Opens.mem_chunks (.cleanup hdoc hdeleted) h hc, decide_eq_true hid⟩

/-- A cleanup that has deleted the jobs. -/
theorem RagLibrary.Cleaning.cleanupJobs_step (hs : s.Cleaning) (h : RagStep S s a t)
    (hC : KeepsDeleted s a) (hx : t.transactions[k]? = some (.cleanupJobs d chunks jobs)) :
    t.NoChunksBut d chunks ∧ t.NoJobsBut d jobs := by
  match h.transaction_step hx with
  | .same hx =>
    obtain ⟨hchunks, hjobs⟩ := hs.cleanupJobs k d chunks jobs hx
    have hgone : s.JobsGone d := .inr ⟨_, List.mem_of_getElem? hx, decide_eq_true rfl⟩
    exact gone_step hs.well h hC (hs.well.transaction k _ hx).1.1 hgone hchunks hjobs
      fun j hj ↦ jobFree_of_transaction hx (List.contains_iff_mem.2 hj)
  | .opened hopen _ => exact nomatch hopen
  | .jobsDeleted ha hx hsame =>
    subst ha
    refine ⟨noChunksBut_step hs.well h (hs.cleanup k d chunks hx) fun j run _ _ _ _ ha ↦ ?_,
      fun j job hjob hof ↦ ?_⟩
    · rcases ha with ⟨now, ha⟩ | ⟨message, now, ha⟩ <;> exact nomatch ha
    · rw [RagLibrary.job, hsame.2] at hjob
      exact hof ▸ mem_jobsOf hjob

/-- A cleanup that commits. -/
theorem RagLibrary.Cleaning.cleaned_step (hs : s.Cleaning) (hstep : ragStep S s a = some t)
    (hC : KeepsDeleted s a) (hd : d ∈ t.cleaned) :
    t.Deleted d ∧ t.NoChunksBut d [] ∧ t.NoJobsBut d [] := by
  have h := ragStep_sound hstep
  rcases h.cleaned_step hd with hd | ⟨k, now, chunks, jobs, rfl, hx⟩
  · obtain ⟨hdeleted, hchunks, hjobs⟩ := hs.cleaned d hd
    exact ⟨h.deleted_stays hdeleted, gone_step hs.well h hC hdeleted (.inl hd) hchunks hjobs
      fun _ hj ↦ by cases hj⟩
  · obtain ⟨hchunks, hjobs⟩ := hs.cleanupJobs k d chunks jobs hx
    refine ⟨h.deleted_stays (hs.well.transaction k _ hx).1.1, ?_, ?_⟩
    · rw [ragStep, hx] at hstep
      obtain rfl := Option.some.inj hstep
      intro c hc hid
      obtain ⟨hc, hnot⟩ := List.mem_filter.1 hc
      exact absurd (hchunks c hc hid) (of_decide_eq_true hnot)
    · rw [ragStep, hx] at hstep
      obtain rfl := Option.some.inj hstep
      intro j job hjob hof
      have hjob : (s.jobs.delete jobs.contains).find (byIngestionJobId j) = some job := hjob
      rw [job_delete] at hjob
      split at hjob
      · cases hjob
      · next hnot => exact absurd (hjobs j job hjob hof) hnot

theorem RagLibrary.Cleaning.initial : RagLibrary.initial.Cleaning where
  well := .initial
  cleanup := fun _ _ _ h ↦ nomatch h
  cleanupJobs := fun _ _ _ _ h ↦ nomatch h
  cleaned := fun _ h ↦ nomatch h

theorem RagLibrary.Cleaning.step (hs : s.Cleaning) (hstep : ragStep S s a = some t)
    (hC : KeepsDeleted s a) : t.Cleaning where
  well := hs.well.step (ragStep_sound hstep)
  cleanup := fun _ _ _ hx ↦ hs.cleanup_step (ragStep_sound hstep) hC hx
  cleanupJobs := fun _ _ _ _ hx ↦ hs.cleanupJobs_step (ragStep_sound hstep) hC hx
  cleaned := fun _ hd ↦ hs.cleaned_step hstep hC hd

end Steps

/-! ### The results -/

/-- No search returns a chunk of a deleted document. -/
theorem RagLibrary.Deleted.not_retrieves {s : RagLibrary} {d : Uuid} (hd : s.Deleted d)
    {scope : SearchScope} {chunk : ChunkRow} (hof : chunk.documentId = d) : ¬s.Retrieves scope chunk := by
  rintro ⟨-, row, hrow, hfilter⟩
  obtain ⟨row', hrow', hdeleted⟩ := hd
  obtain rfl := Option.some.inj (hrow'.symm.trans (hof ▸ hrow))
  exact hdeleted (of_decide_eq_true hfilter).2.2.1

/-- Nothing of the document is stored but its row, which is deleted. -/
def RagLibrary.Gone (s : RagLibrary) (d : Uuid) : Prop :=
  (∀ c ∈ s.chunks, c.documentId ≠ d) ∧ (∀ job ∈ s.jobs.rows, job.documentId ≠ d) ∧ s.Deleted d

/-- **Deletion is final.** A deleted document is hidden for good, whatever happens; and its cleanup leaves
nothing, as long as no job is inserted after it and no chunks are committed inside it. -/
theorem deletion_is_final (S : Settings) :
    (∀ s t, (ragMachine S).Later anyStep s t → ∀ d, s.Deleted d → ∀ scope chunk,
      chunk.documentId = d → ¬t.Retrieves scope chunk) ∧
    ∀ s, (ragMachine S).Reachable KeepsDeleted s → ∀ d ∈ s.cleaned, s.Gone d := by
  refine ⟨fun s t hlater d hd scope chunk hof ↦ ?_, fun s hs d hd ↦ ?_⟩
  · have hd := hlater.stable (P := fun u ↦ u.Deleted d)
      (fun u a u' hu _ hstep ↦ (ragStep_sound hstep).deleted_stays hu) hd
    exact hd.not_retrieves hof
  · have hcleaning : s.Cleaning := by
      refine hs.invariant (fun u hinit ↦ ?_) fun u a u' hu hC hstep ↦ hu.step hstep hC
      obtain rfl : u = .initial := hinit
      exact .initial
    obtain ⟨hdeleted, hchunks, hjobs⟩ := hcleaning.cleaned d hd
    refine ⟨fun c hc hof ↦ List.not_mem_nil (hchunks c hc hof), fun job hmem hof ↦ ?_, hdeleted⟩
    have hjob := Table.find_eq_some_of_mem (single_byIngestionJobId job.id) hmem
      ((byIngestionJobId_ident _ _).2 rfl)
    exact nomatch hjobs job.id job hjob hof

/-! ### Runs across a deletion -/

/-- A run is at work when the document is deleted and cleaned up, and it dies without its job. -/
def cleanedRun : List RagAction :=
  [.upload handbook 11 0, .load 1 11 false "ana", .claim 0 1, .delete 1, .commitDelete 0 2, .cleanup 1,
    .cleanupJobs 1, .commitCleanup 1 3, .abandon 0]

theorem cleanedRun_isSome :
    ((ragMachine .default).run KeepsDeleted .initial cleanedRun).isSome = true := by decide

theorem deletion_is_final_cleaned : Gone (Option.get _ cleanedRun_isSome) 1 :=
  (deletion_is_final .default).2 _ (reachable_run rfl cleanedRun_isSome) 1 (by decide)

/-- A run without a job has read the document before it is deleted, and claims after the cleanup. -/
def revivedRun : List RagAction :=
  [.upload handbook 11 0, .load 1 12 true "ana", .delete 1, .commitDelete 0 1, .cleanup 1, .cleanupJobs 1,
    .commitCleanup 1 2, .claim 0 3, .advance 0 4, .advance 0 5, .advance 0 6,
    .replace 0 21 [("Holidays are on page 7.", "child")] 7, .store 0, .finish 0 8, .report 0]

theorem revivedRun_isSome : ((ragMachine .default).run anyStep .initial revivedRun).isSome = true := by
  decide

/-- **Deletion is not final**: the chunks and the job of that run stay stored. -/
theorem deletion_is_not_final :
    ¬∀ S s, (ragMachine S).Reachable anyStep s → (∀ run ∈ s.runs, run.stage.isLive = false) →
      ∀ d ∈ s.cleaned, s.Gone d := by
  intro h
  have hgone := h .default _ (reachable_run rfl revivedRun_isSome) (by decide) 1 (by decide)
  have hstored : ∃ c ∈ chunks (Option.get _ revivedRun_isSome), c.documentId = 1 := by decide
  obtain ⟨c, hc, hof⟩ := hstored
  exact hgone.1 c hc hof

end GenericApp
