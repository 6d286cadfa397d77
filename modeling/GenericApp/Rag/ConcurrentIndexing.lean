import GenericApp.Rag.IndexInvariants

/-!
# Any number of runs on one document

Runs of `index_document`, interleaved commit by commit, with the uploads and the requests that make their
jobs, and nothing else. The unique index on the chunks of a document and version keeps two runs from
mixing their rows: a run that has deleted what was committed before it and not what is committed now
cannot insert. So the chunks under a version are always those of one run.

What is not protected is the end of a run. Its handlers write `failed` to the document and the job from
what the run has in memory, whatever has been committed meanwhile, its own chunks included, and they
commit what the last transaction has done so far. A run that dies leaves the document in the status of
its last commit.

* `indexing_is_orderly`: as long as no run fails on a document with committed chunks, or with rows of its
  own inserted, and no run dies right after its commit or as the last one at work on such a document, all
  is well when the runs have ended, and completed jobs stay completed.
* `indexing_is_disorderly`: a run that fails after another one has completed the same job.
-/

namespace GenericApp

open Machine Py RagLibrary

/-! ### Runs at work -/

/-- The run has committed its chunks. -/
def RunStage.hasCommitted : RunStage → Bool
  | committed | returned => true
  | loaded | claimed | extracting | chunking | embedding | replaced | stored | skipped | refused
  | failed | abandoned => false

/-- The run has claimed its job, and its chunks are still to come. -/
def RunStage.isWorking : RunStage → Bool
  | claimed | extracting | chunking | embedding | replaced | stored => true
  | loaded | committed | returned | skipped | refused | failed | abandoned => false

namespace RagLibrary

/-- There is such a run on the document. -/
def HasRun (s : RagLibrary) (documentId : Uuid) (P : RunStage → Bool) : Prop :=
  ∃ run ∈ s.runs, run.document.id = documentId ∧ P run.stage = true

/-- A run on the document has committed its chunks. -/
def Committed (s : RagLibrary) (documentId : Uuid) : Prop := s.HasRun documentId RunStage.hasCommitted

/-- A run is at work on the document. -/
def Working (s : RagLibrary) (documentId : Uuid) : Prop := s.HasRun documentId RunStage.isWorking

/-- Another run is at work on the document. -/
def WorkingBut (s : RagLibrary) (k : ℕ) (documentId : Uuid) : Prop :=
  ∃ j < s.runs.length, j ≠ k ∧
    ∃ run ∈ s.runs[j]?, run.document.id = documentId ∧ run.stage.isWorking = true

/-- These are the rows of a run that has committed them. -/
def CommittedRows (s : RagLibrary) (documentId versionId : Uuid) (rows : List ChunkRow) : Prop :=
  ∃ (k : ℕ) (run : IndexRun), s.runs[k]? = some run ∧ run.stage.hasCommitted = true ∧
    run.document.id = documentId ∧ run.versionId = versionId ∧ run.rows = rows

end RagLibrary

instance (s : RagLibrary) (documentId : Uuid) (P : RunStage → Bool) : Decidable (s.HasRun documentId P) :=
  inferInstanceAs (Decidable (∃ run ∈ s.runs, _))

instance (s : RagLibrary) (documentId : Uuid) : Decidable (s.Committed documentId) :=
  inferInstanceAs (Decidable (s.HasRun documentId _))

instance (s : RagLibrary) (k : ℕ) (documentId : Uuid) : Decidable (s.WorkingBut k documentId) :=
  inferInstanceAs (Decidable (∃ j < s.runs.length, j ≠ k ∧ ∃ run ∈ s.runs[j]?, _))

/-- The steps of indexing, and of what makes its jobs. -/
def RagAction.isIndexing : RagAction → Bool
  | upload .. | load .. | claim .. | advance .. | replace .. | store _ | finish .. | report _ | fail ..
  | abandon _ | enqueue _ | commitEnqueue .. | rollback _ => true
  | deadLetter _ | commitDeadLetter .. | cancel _ | commitCancel .. | delete _ | commitDelete ..
  | cleanup _ | cleanupJobs _ | commitCleanup .. => false

/-- A run does not fail on a document with committed chunks, nor with rows of its own inserted; it does
not die between the commit of its chunks and its return, nor, on such a document, as the last one at
work while the document is not `indexed`. -/
def Orderly (s : RagLibrary) : RagAction → Prop
  | .fail k _ _ => ∀ run ∈ s.runs[k]?, ¬s.Committed run.document.id ∧
    (run.stage = .stored → run.rows = [])
  | .abandon k => ∀ run ∈ s.runs[k]?, run.stage ≠ .committed ∧
    (run.stage.inTry = true → s.Committed run.document.id →
      (∀ document ∈ s.document run.document.id, document.status = .indexed) ∨
        s.WorkingBut k run.document.id)
  | _ => True

instance (s : RagLibrary) (a : RagAction) : Decidable (Orderly s a) :=
  match a with
  | .fail k _ _ =>
    inferInstanceAs (Decidable (∀ run ∈ s.runs[k]?, ¬s.Committed run.document.id ∧
      (run.stage = .stored → run.rows = [])))
  | .abandon k =>
    inferInstanceAs (Decidable (∀ run ∈ s.runs[k]?, run.stage ≠ .committed ∧
      (run.stage.inTry = true → s.Committed run.document.id →
        (∀ document ∈ s.document run.document.id, document.status = .indexed) ∨
          s.WorkingBut k run.document.id)))
  | .upload .. | .load .. | .claim .. | .advance .. | .replace .. | .store _ | .finish .. | .report _
  | .enqueue _ | .commitEnqueue .. | .deadLetter _ | .commitDeadLetter .. | .cancel _
  | .commitCancel .. | .delete _ | .commitDelete .. | .cleanup _ | .cleanupJobs _ | .commitCleanup ..
  | .rollback _ => isTrue trivial

/-- What the induction carries. -/
structure RagLibrary.Ordered (s : RagLibrary) : Prop where
  well : s.WellFormed
  /-- The chunks of a document under a version are those of one run. -/
  chunks : ∀ d v, s.chunksOf d v = [] ∧
    (∀ (k : ℕ) run, s.runs[k]? = some run → run.stage.hasCommitted = true →
      ¬(run.document.id = d ∧ run.versionId = v)) ∨
    s.CommittedRows d v (s.chunksOf d v)
  /-- What a run has deleted are the rows of one run. -/
  doomed : ∀ (k : ℕ) run, s.runs[k]? = some run → run.locksJob = true → run.doomed = [] ∨
    s.CommittedRows run.document.id run.versionId run.doomed
  /-- A run that has inserted its rows has deleted all others. -/
  replaced : ∀ (k : ℕ) run, s.runs[k]? = some run → run.stage = .stored → run.rows = [] ∨
    ∀ c ∈ s.chunksOf run.document.id run.versionId, c ∈ run.doomed
  /-- No two runs have inserted rows in the same place. -/
  exclusive : ∀ (j k : ℕ) run run', s.runs[j]? = some run → s.runs[k]? = some run' → j ≠ k →
    run.stage = .stored → run'.stage = .stored → run.document.id = run'.document.id →
    run.versionId = run'.versionId → run.rows = [] ∨ run'.rows = []
  /-- A document with committed chunks is indexed, or is being indexed again. -/
  indexed : ∀ d row, s.document d = some row → s.Committed d → row.status = .indexed ∨ s.Working d
  /-- The document of a completed job has committed chunks. -/
  completed : ∀ j job, s.job j = some job → job.status = .completed → s.Committed job.documentId

section Ordered

variable {S : Settings} {s t : RagLibrary} {a : RagAction} {d v : Uuid} {k : ℕ} {run run' : IndexRun}
  {P : RunStage → Bool} {rows : List ChunkRow}

/-! ### Runs along a step -/

theorem hasRun_of_getElem? (hrun : s.runs[k]? = some run) (hid : run.document.id = d)
    (hP : P run.stage = true) : s.HasRun d P :=
  ⟨run, List.mem_of_getElem? hrun, hid, hP⟩

/-- A run on the document before a step, if it is not the one that has changed. -/
theorem hasRun_of_set (ht : t.runs = s.runs.set k run') (h : t.HasRun d P) :
    (run'.document.id = d ∧ P run'.stage = true) ∨ s.HasRun d P := by
  obtain ⟨r, hr, hid, hP⟩ := h
  obtain ⟨j, hj⟩ := List.mem_iff_getElem?.1 hr
  rw [ht] at hj
  rcases slot_of_set hj with ⟨-, rfl⟩ | ⟨-, hj⟩
  · exact .inl ⟨hid, hP⟩
  · exact .inr (hasRun_of_getElem? hj hid hP)

/-- A run on the document after a step. -/
theorem hasRun_set (hrun : s.runs[k]? = some run) (ht : t.runs = s.runs.set k run') (h : s.HasRun d P)
    (hchange : run.document.id = d → P run.stage = true →
      run'.document.id = d ∧ P run'.stage = true) : t.HasRun d P := by
  obtain ⟨r, hr, hid, hP⟩ := h
  obtain ⟨j, hj⟩ := List.mem_iff_getElem?.1 hr
  rcases eq_or_ne j k with rfl | hne
  · obtain rfl := Option.some.inj (hrun.symm.trans hj)
    obtain ⟨hid', hP'⟩ := hchange hid hP
    have hj' : t.runs[j]? = some run' := by
      rw [ht]
      exact List.getElem?_set_self (List.getElem?_eq_some_iff.1 hrun).1
    exact hasRun_of_getElem? hj' hid' hP'
  · have hj' : t.runs[j]? = some r := by
      rw [ht]
      exact (List.getElem?_set_ne hne.symm).trans hj
    exact hasRun_of_getElem? hj' hid hP

/-- A run that has committed its chunks may return, or die. -/
theorem RunMove.of_committed (h : RunMove s k run a run') (hcommitted : run.stage.hasCommitted = true) :
    run' = { run with stage := .returned } ∨ a = .abandon k ∧ run.stage = .committed := by
  match h with
  | .unclaimed _ _ hstage _ | .replaced _ _ _ hstage _ | .stored hstage _ =>
    rw [hstage] at hcommitted
    exact nomatch hcommitted
  | .returned _ => exact .inl rfl
  | .abandoned hlive =>
    refine .inr ⟨rfl, ?_⟩
    match hstage : run.stage, hcommitted, hlive with
    | .committed, _, _ => rfl
    | .returned, _, hlive => exact nomatch hlive

/-- Or it may fail. -/
theorem RunCommit.of_committed {stage : RunStage} {status : DocumentStatus}
    (h : RunCommit S s k run a stage status) (hcommitted : run.stage.hasCommitted = true) :
    ∃ message now, a = .fail k message now := by
  match h with
  | .claimed _ hstage _ | .finished _ hstage _ =>
    rw [hstage] at hcommitted
    exact nomatch hcommitted
  | .advanced _ hnext =>
    match hstage : run.stage, hcommitted, hnext with
    | .committed, _, hnext | .returned, _, hnext => exact nomatch hnext
  | .failed message now _ _ => exact ⟨message, now, rfl⟩

theorem RunMove.committed_before (h : RunMove s k run a run')
    (hcommitted : run'.stage.hasCommitted = true) : run.stage.hasCommitted = true ∧
      run'.document = run.document ∧ run'.versionId = run.versionId ∧ run'.rows = run.rows := by
  match h with
  | .unclaimed _ _ _ hend => rcases hend with rfl | rfl <;> exact nomatch hcommitted
  | .replaced _ _ _ _ _ | .stored _ _ | .abandoned _ => exact nomatch hcommitted
  | .returned hstage =>
    rw [hstage]
    exact ⟨rfl, rfl, rfl, rfl⟩

theorem RunCommit.committed_before {stage : RunStage} {status : DocumentStatus}
    (h : RunCommit S s k run a stage status) (hcommitted : stage.hasCommitted = true) :
    ∃ now, a = .finish k now := by
  match h with
  | .claimed .. | .failed .. => exact nomatch hcommitted
  | .advanced _ hnext =>
    match hstage : run.stage, hnext with
    | .claimed, rfl | .extracting, rfl | .chunking, rfl => exact nomatch hcommitted
  | .finished now _ _ => exact ⟨now, rfl⟩

/-- **A run that has committed its chunks stays so.** -/
theorem committed_stays (h : RagStep S s a t) (hC : Orderly s a) (hrun : s.runs[k]? = some run)
    (hcommitted : run.stage.hasCommitted = true) :
    ∃ run', t.runs[k]? = some run' ∧ run'.stage.hasCommitted = true ∧
      run'.document.id = run.document.id ∧ run'.versionId = run.versionId ∧ run'.rows = run.rows := by
  obtain ⟨run', hrun', hchange⟩ := h.run_after hrun
  refine ⟨run', hrun', ?_⟩
  match hchange with
  | .same => exact ⟨hcommitted, rfl, rfl, rfl⟩
  | .moved hmove =>
    rcases hmove.of_committed hcommitted with rfl | ⟨rfl, hstage⟩
    · exact ⟨rfl, rfl, rfl, rfl⟩
    · exact absurd hstage (hC run hrun).1
  | .committed hcommit =>
    obtain ⟨message, now, rfl⟩ := hcommit.of_committed hcommitted
    exact absurd (hasRun_of_getElem? hrun rfl hcommitted) (hC run hrun).1

/-- A run that has committed its chunks had done so before, or does it now. -/
theorem committed_before (h : RagStep S s a t) (hrun' : t.runs[k]? = some run')
    (hcommitted : run'.stage.hasCommitted = true) :
    (∃ run, s.runs[k]? = some run ∧ run.stage.hasCommitted = true ∧
      run'.document = run.document ∧ run'.versionId = run.versionId ∧ run'.rows = run.rows) ∨
      ∃ now, a = .finish k now := by
  match h.run_step hrun' with
  | .changed hrun .same => exact .inl ⟨_, hrun, hcommitted, rfl, rfl, rfl⟩
  | .changed hrun (.moved hmove) => exact .inl ⟨_, hrun, hmove.committed_before hcommitted⟩
  | .changed _ (.committed hcommit) => exact .inr (hcommit.committed_before hcommitted)
  | .loaded _ _ => exact nomatch hcommitted

theorem RagLibrary.CommittedRows.stays (h : RagStep S s a t) (hC : Orderly s a) (hrows : s.CommittedRows d v rows) :
    t.CommittedRows d v rows := by
  obtain ⟨j, r, hr, hcommitted, hid, hversion, hrows⟩ := hrows
  obtain ⟨r', hr', hcommitted', hid', hversion', hrows'⟩ := committed_stays h hC hr hcommitted
  exact ⟨j, r', hr', hcommitted', hid'.trans hid, hversion'.trans hversion, hrows'.trans hrows⟩

theorem RagLibrary.Committed.stays (h : RagStep S s a t) (hC : Orderly s a) (hd : s.Committed d) :
    t.Committed d := by
  obtain ⟨r, hr, hid, hcommitted⟩ := hd
  obtain ⟨j, hj⟩ := List.mem_iff_getElem?.1 hr
  obtain ⟨r', hr', hcommitted', hid', -⟩ := committed_stays h hC hj hcommitted
  exact hasRun_of_getElem? hr' (hid'.trans hid) hcommitted'

/-! ### The chunks -/

/-- Two sets of rows of one run each are the same rows, or have none in common. -/
theorem RagLibrary.CommittedRows.disjoint (hs : s.WellFormed) {rows' : List ChunkRow}
    (h : s.CommittedRows d v rows) (h' : s.CommittedRows d v rows') :
    rows = rows' ∨ ∀ c ∈ rows, c ∉ rows' := by
  obtain ⟨j, r, hr, -, -, -, rfl⟩ := h
  obtain ⟨k, r', hr', -, -, -, rfl⟩ := h'
  rcases eq_or_ne j k with rfl | hne
  · obtain rfl := Option.some.inj (hr.symm.trans hr')
    exact .inl rfl
  · right
    intro c hc hc'
    obtain ⟨contents, hrows⟩ := (hs.run j r hr).rows
    obtain ⟨contents', hrows'⟩ := (hs.run k r' hr').rows
    rw [hrows] at hc
    rw [hrows'] at hc'
    exact hne ((writer_of_newRows hc).symm.trans (writer_of_newRows hc'))

/-- A run that fails in an orderly way commits no change to the chunks. -/
theorem RagLibrary.Ordered.applied_of_fail (hs : s.Ordered) (hrun : s.runs[k]? = some run)
    (hnone : ¬s.Committed run.document.id) (hrows : run.stage = .stored → run.rows = []) :
    run.applied s.chunks = s.chunks := by
  have hdoomed (hlocks : run.locksJob = true) : run.doomed = [] := by
    rcases hs.doomed k run hrun hlocks with hnil | ⟨j, r, hr, hcommitted, hid, -⟩
    · exact hnil
    · exact absurd (hasRun_of_getElem? hr hid hcommitted) hnone
  rw [IndexRun.applied]
  cases hstage : run.stage with
  | replaced => simp [hdoomed (decide_eq_true (.inl hstage))]
  | stored => simp [hdoomed (decide_eq_true (.inr hstage)), hrows hstage]
  | _ => rfl

/-- Only the end of a run changes the chunks. -/
theorem RagLibrary.Ordered.chunks_step (hs : s.Ordered) (h : RagStep S s a t) (hI : a.isIndexing = true)
    (hC : Orderly s a) (ha : ∀ k now, a ≠ .finish k now) : t.chunks = s.chunks := by
  have hstep := h.chunks_step
  generalize t.chunks = chunks at hstep ⊢
  cases hstep with
  | same => rfl
  | committed hrun hcommit =>
    cases hcommit with
    | claimed _ hstage _ => rw [IndexRun.applied, hstage]
    | advanced _ hnext => exact applied_of_next hnext _
    | finished now _ _ => exact absurd rfl (ha _ now)
    | failed _ _ _ _ =>
      obtain ⟨hnone, hrows⟩ := hC _ hrun
      exact hs.applied_of_fail hrun hnone hrows
  | cleaned hclean _ =>
    subst hclean
    cases hI

/-- The chunks that a run leaves under its document and version: its own, or, if it has none, those that
were there. -/
theorem RagLibrary.Ordered.chunks_of_stored (hs : s.Ordered) (hrun : s.runs[k]? = some run)
    (hstage : run.stage = .stored) :
    let left := (run.applied s.chunks).filter (ChunkRow.isOf run.document.id run.versionId)
    left = run.rows ∨
      left = s.chunksOf run.document.id run.versionId ∧
        s.CommittedRows run.document.id run.versionId left := by
  intro left
  have hleft : left = (s.chunksOf run.document.id run.versionId).filter (fun c ↦ c ∉ run.doomed) ++
      run.rows := by
    have hrows : run.rows.filter (ChunkRow.isOf run.document.id run.versionId) = run.rows :=
      List.filter_eq_self.2 fun c hc ↦ (hs.well.run k run hrun).isOf_rows hc
    show (run.applied s.chunks).filter _ = _
    rw [IndexRun.applied, hstage]
    show (_ ++ run.rows).filter _ = _
    rw [List.filter_append, hrows, chunksOf, List.filter_comm]
  have hgone (hall : ∀ c ∈ s.chunksOf run.document.id run.versionId, c ∈ run.doomed) :
      left = run.rows := by
    rw [hleft, List.filter_eq_nil_iff.2 fun c hc hnot ↦ of_decide_eq_true (p := c ∉ run.doomed) hnot (hall c hc),
      List.nil_append]
  rcases hs.replaced k run hrun hstage with hnone | hall
  · rw [hnone, List.append_nil] at hleft
    rcases hs.chunks run.document.id run.versionId with ⟨hempty, -⟩ | hold
    · left
      rw [hleft, hempty, hnone]
      rfl
    · have hkept (hkeep : ∀ c ∈ s.chunksOf run.document.id run.versionId, c ∉ run.doomed) :
          left = s.chunksOf run.document.id run.versionId := by
        rw [hleft]
        exact List.filter_eq_self.2 fun c hc ↦ decide_eq_true (hkeep c hc)
      rcases hs.doomed k run hrun (decide_eq_true (.inr hstage)) with hnil | hdoomed
      · have heq := hkept fun c _ ↦ by rw [hnil]; exact List.not_mem_nil
        exact .inr ⟨heq, heq ▸ hold⟩
      · -- The run has deleted either all that is there now, or nothing of it.
        rcases hold.disjoint hs.well hdoomed with heq | hdisjoint
        · exact .inl (hgone fun c hc ↦ heq ▸ hc)
        · have heq := hkept hdisjoint
          exact .inr ⟨heq, heq ▸ hold⟩
  · exact .inl (hgone hall)

/-- The chunks are those of one run after the end of a run. -/
theorem RagLibrary.Ordered.chunks_finished (hs : s.Ordered) (h : RagStep S s a t) (hC : Orderly s a)
    (hrun : s.runs[k]? = some run) (hstage : run.stage = .stored)
    (hchunks : t.chunks = run.applied s.chunks)
    (hruns : t.runs = s.runs.set k (run.moved .committed .indexed)) (d v : Uuid) :
    t.chunksOf d v = [] ∧
      (∀ (j : ℕ) r, t.runs[j]? = some r → r.stage.hasCommitted = true →
        ¬(r.document.id = d ∧ r.versionId = v)) ∨
      t.CommittedRows d v (t.chunksOf d v) := by
  have hk : t.runs[k]? = some (run.moved .committed .indexed) := by
    rw [hruns]
    exact List.getElem?_set_self (List.getElem?_eq_some_iff.1 hrun).1
  by_cases hof : run.document.id = d ∧ run.versionId = v
  · right
    obtain ⟨rfl, rfl⟩ := hof
    have hleft := hs.chunks_of_stored hrun hstage
    simp only [← hchunks] at hleft
    rcases hleft with hleft | ⟨-, hrows⟩
    · exact ⟨k, _, hk, rfl, rfl, rfl, hleft.symm⟩
    · exact hrows.stays h hC
  · have hsame : t.chunksOf d v = s.chunksOf d v := by
      rw [chunksOf, hchunks]
      exact (hs.well.run k run hrun).applied_elsewhere hof _
    rw [hsame]
    rcases hs.chunks d v with ⟨hempty, hnone⟩ | hold
    · refine .inl ⟨hempty, fun j r hr hcommitted ↦ ?_⟩
      rw [hruns] at hr
      rcases slot_of_set hr with ⟨-, rfl⟩ | ⟨-, hr⟩
      · exact hof
      · exact hnone j r hr hcommitted
    · exact .inr (hold.stays h hC)

/-- The chunks are those of one run after any other step. -/
theorem RagLibrary.Ordered.chunks_quiet (hs : s.Ordered) (h : RagStep S s a t) (hC : Orderly s a)
    (ha : ∀ k now, a ≠ .finish k now) (hchunks : t.chunks = s.chunks) (d v : Uuid) :
    t.chunksOf d v = [] ∧
      (∀ (j : ℕ) r, t.runs[j]? = some r → r.stage.hasCommitted = true →
        ¬(r.document.id = d ∧ r.versionId = v)) ∨
      t.CommittedRows d v (t.chunksOf d v) := by
  rw [chunksOf, hchunks]
  rcases hs.chunks d v with ⟨hempty, hnone⟩ | hold
  · refine .inl ⟨hempty, fun j r hr hcommitted ↦ ?_⟩
    rcases committed_before h hr hcommitted with ⟨r₀, hr₀, hcommitted₀, hdoc, hversion, -⟩ | ⟨now, rfl⟩
    · rw [hdoc, hversion]
      exact hnone j r₀ hr₀ hcommitted₀
    · exact absurd rfl (ha j now)
  · exact .inr (hold.stays h hC)

/-! ### What the open transactions have deleted and inserted -/

theorem RunCommit.not_locksJob {stage : RunStage} {status : DocumentStatus}
    (h : RunCommit S s k run a stage status) : (run.moved stage status).locksJob = false := by
  match h with
  | .claimed .. | .finished .. | .failed .. => rfl
  | .advanced _ hnext =>
    match hstage : run.stage, hnext with
    | .claimed, rfl | .extracting, rfl | .chunking, rfl => rfl

theorem locksJob_of_stored (hstage : run.stage = .stored) : run.locksJob = true :=
  decide_eq_true (.inr hstage)

theorem mem_newRows_cons {document : RagDocument} {x : String × String} {xs : List (String × String)} :
    (⟨k, document.id, v, document.userId, document.organizationId, document.projectId, 0, x.1, x.2⟩ :
      ChunkRow) ∈ newRows k document v (x :: xs) := by
  rw [newRows, List.mapIdx_cons]
  exact List.mem_cons_self

/-- Two non-empty sets of new rows in one place collide, at index 0. -/
theorem collides_of_ne_nil {j : ℕ} (hrun : run.WellFormed j) (hrun' : run'.WellFormed k)
    (hid : run.document.id = run'.document.id) (hversion : run.versionId = run'.versionId)
    (hne : run.rows ≠ []) (hne' : run'.rows ≠ []) :
    ∃ c ∈ run.rows, ∃ r ∈ run'.rows, c.collides r = true := by
  obtain ⟨contents, hrows⟩ := hrun.rows
  obtain ⟨contents', hrows'⟩ := hrun'.rows
  match contents, contents' with
  | [], _ => exact absurd hrows hne
  | _, [] => exact absurd hrows' hne'
  | x :: xs, y :: ys =>
    refine ⟨_, by rw [hrows]; exact mem_newRows_cons, _, by rw [hrows']; exact mem_newRows_cons, ?_⟩
    exact decide_eq_true ⟨hid, hversion, rfl⟩

/-- What runs have deleted are the rows of one run each. -/
theorem RagLibrary.Ordered.doomed_step (hs : s.Ordered) (h : RagStep S s a t) (hC : Orderly s a)
    (hrun' : t.runs[k]? = some run') (hlocks : run'.locksJob = true) :
    run'.doomed = [] ∨ t.CommittedRows run'.document.id run'.versionId run'.doomed := by
  match h.run_step hrun' with
  | .changed hrun .same => exact (hs.doomed k run' hrun hlocks).imp id fun hrows ↦ hrows.stays h hC
  | .changed hrun (.moved hmove) =>
    match hmove with
    | .replaced versionId contents now _ _ =>
      rcases hs.chunks _ versionId with ⟨hempty, -⟩ | hold
      · exact .inl hempty
      · exact .inr (hold.stays h hC)
    | .stored hstage _ =>
      exact (hs.doomed k _ hrun (decide_eq_true (.inl hstage))).imp id fun hrows ↦ hrows.stays h hC
    | .unclaimed _ _ _ hend => rcases hend with rfl | rfl <;> exact nomatch hlocks
    | .returned _ | .abandoned _ => exact nomatch hlocks
  | .changed _ (.committed hcommit) =>
    rw [hcommit.not_locksJob] at hlocks
    exact nomatch hlocks
  | .loaded _ _ => exact nomatch hlocks

/-- A run that has inserted its rows had done so before, or does it now. -/
theorem stored_before (h : RagStep S s a t) (hrun' : t.runs[k]? = some run')
    (hstage : run'.stage = .stored) :
    s.runs[k]? = some run' ∨ a = .store k ∧ ∃ run, s.runs[k]? = some run ∧ run.stage = .replaced ∧
      s.storable run = true ∧ run' = { run with stage := .stored } := by
  match h.run_step hrun' with
  | .changed hrun .same => exact .inl hrun
  | .changed hrun (.moved hmove) =>
    match hmove with
    | .stored hreplaced hstorable => exact .inr ⟨rfl, _, hrun, hreplaced, hstorable, rfl⟩
    | .unclaimed _ _ _ hend => rcases hend with rfl | rfl <;> exact nomatch hstage
    | .replaced .. | .returned _ | .abandoned _ => exact nomatch hstage
  | .changed _ (.committed hcommit) =>
    have hlocks := hcommit.not_locksJob
    rw [locksJob_of_stored hstage] at hlocks
    exact nomatch hlocks
  | .loaded _ _ => exact nomatch hstage

/-- A run that can insert its rows has deleted all that is committed in their place. -/
theorem RagLibrary.Ordered.replaced_of_storable (hs : s.Ordered) (hrun : s.runs[k]? = some run)
    (hstage : run.stage = .replaced) (hstorable : s.storable run = true) :
    run.rows = [] ∨ ∀ c ∈ s.chunksOf run.document.id run.versionId, c ∈ run.doomed := by
  rw [or_iff_not_imp_left]
  intro hne c hc
  rw [storable, Bool.and_eq_true, List.all_eq_true] at hstorable
  rcases hs.chunks run.document.id run.versionId with ⟨hempty, -⟩ | hold
  · rw [hempty] at hc
    exact nomatch hc
  · -- The committed rows are all deleted, or none is, and then that with the index 0 is in the way.
    have hcontra (hkeep : ∀ c ∈ s.chunksOf run.document.id run.versionId, c ∉ run.doomed) :
        c ∈ run.doomed := by
      obtain ⟨j, r, hr, -, hid, hversion, hrows⟩ := hold
      have hne' : r.rows ≠ [] := hrows ▸ List.ne_nil_of_mem hc
      obtain ⟨x, hx, y, hy, hcollides⟩ := collides_of_ne_nil (hs.well.run j r hr)
        (hs.well.run k run hrun) hid hversion hne' hne
      rw [hrows] at hx
      have hleft : x ∈ s.chunks.filter fun c ↦ c ∉ run.doomed :=
        List.mem_filter.2 ⟨(List.mem_filter.1 hx).1, decide_eq_true (hkeep x hx)⟩
      have hfree := List.all_eq_true.1 (hstorable.1 x hleft) y hy
      rw [hcollides] at hfree
      exact nomatch hfree
    rcases hs.doomed k run hrun (decide_eq_true (.inl hstage)) with hnil | hdoomed
    · exact hcontra fun c _ ↦ by rw [hnil]; exact List.not_mem_nil
    · rcases hold.disjoint hs.well hdoomed with heq | hdisjoint
      · rw [← heq]
        exact hc
      · exact hcontra hdisjoint

/-- Nor has another run inserted rows there. -/
theorem RagLibrary.Ordered.exclusive_of_storable (hs : s.Ordered) {j : ℕ}
    (hrun : s.runs[j]? = some run) (hrun' : s.runs[k]? = some run') (hstorable : s.storable run = true)
    (hstage' : run'.stage = .stored) (hid : run.document.id = run'.document.id)
    (hversion : run.versionId = run'.versionId) : run.rows = [] ∨ run'.rows = [] := by
  by_contra hne
  rw [not_or] at hne
  obtain ⟨c, hc, r, hr, hcollides⟩ := collides_of_ne_nil (hs.well.run k run' hrun')
    (hs.well.run j run hrun) hid.symm hversion.symm hne.2 hne.1
  rw [storable, Bool.and_eq_true] at hstorable
  have hall := List.all_eq_true.1 hstorable.2 run' (List.mem_of_getElem? hrun')
  rw [hstage'] at hall
  have hfree := List.all_eq_true.1 (List.all_eq_true.1 hall c hc) r hr
  rw [hcollides] at hfree
  exact nomatch hfree

/-- No two runs have inserted rows in the same place. -/
theorem RagLibrary.Ordered.exclusive_step (hs : s.Ordered) (h : RagStep S s a t) {j : ℕ}
    (hrun : t.runs[j]? = some run) (hrun' : t.runs[k]? = some run') (hne : j ≠ k)
    (hstage : run.stage = .stored) (hstage' : run'.stage = .stored)
    (hid : run.document.id = run'.document.id) (hversion : run.versionId = run'.versionId) :
    run.rows = [] ∨ run'.rows = [] := by
  rcases stored_before h hrun hstage with hr | ⟨ha, r, hr, -, hstorable, rfl⟩ <;>
    rcases stored_before h hrun' hstage' with hr' | ⟨ha', r', hr', -, hstorable', rfl⟩
  · exact hs.exclusive j k run run' hr hr' hne hstage hstage' hid hversion
  · have hempty := hs.exclusive_of_storable hr' hr hstorable' hstage hid.symm hversion.symm
    exact hempty.symm
  · have hempty := hs.exclusive_of_storable hr hr' hstorable hstage' hid hversion
    exact hempty
  · exact absurd (RagAction.store.inj (ha.symm.trans ha')) hne

/-- A run that has inserted its rows has deleted all others: the chunks are as they were, or another run
has ended. -/
theorem RagLibrary.Ordered.replaced_step (hs : s.Ordered) (h : RagStep S s a t) {j : ℕ}
    (hend : t.chunks = s.chunks ∨ ∃ (k : ℕ) (run : IndexRun), s.runs[k]? = some run ∧
      run.stage = .stored ∧ t.chunks = run.applied s.chunks ∧
        t.runs = s.runs.set k (run.moved .committed .indexed))
    (hrun' : t.runs[j]? = some run') (hstage' : run'.stage = .stored) :
    run'.rows = [] ∨ ∀ c ∈ t.chunksOf run'.document.id run'.versionId, c ∈ run'.doomed := by
  have hbefore : run'.rows = [] ∨ ∀ c ∈ s.chunksOf run'.document.id run'.versionId, c ∈ run'.doomed := by
    rcases stored_before h hrun' hstage' with hr | ⟨-, r, hr, hreplaced, hstorable, rfl⟩
    · exact hs.replaced j run' hr hstage'
    · have hreplaced := hs.replaced_of_storable hr hreplaced hstorable
      exact hreplaced
  rcases hend with hchunks | ⟨k, run, hrun, hstage, hchunks, hruns⟩
  · rw [chunksOf, hchunks]
    exact hbefore
  · rw [hruns] at hrun'
    rcases slot_of_set hrun' with ⟨-, rfl⟩ | ⟨hne, hr⟩
    · exact nomatch hstage'
    by_cases hof : run.document.id = run'.document.id ∧ run.versionId = run'.versionId
    · rcases hs.exclusive j k run' run hr hrun hne hstage' hstage hof.1.symm hof.2.symm with
        hempty | hempty
      · exact .inl hempty
      · -- The run that has ended had no rows, so it has only deleted some.
        refine hbefore.imp id fun hall c hc ↦ ?_
        have hleft := hs.chunks_of_stored hrun hstage
        simp only [← hchunks, hof.1, hof.2] at hleft
        have hc : c ∈ t.chunks.filter (ChunkRow.isOf run'.document.id run'.versionId) := hc
        rcases hleft with hleft | ⟨hleft, -⟩
        · rw [hleft, hempty] at hc
          exact nomatch hc
        · exact hall c (hleft ▸ hc)
    · rw [chunksOf, hchunks, (hs.well.run k run hrun).applied_elsewhere hof]
      exact hbefore

/-! ### The status of the document -/

theorem RunMove.working (h : RunMove s k run a run') (hworking : run.stage.isWorking = true) :
    run'.stage.isWorking = true ∨ a = .abandon k := by
  match h with
  | .unclaimed _ _ hstage _ | .returned hstage =>
    rw [hstage] at hworking
    exact nomatch hworking
  | .replaced .. | .stored .. => exact .inl rfl
  | .abandoned _ => exact .inr rfl

theorem isWorking_of_next {stage stage' : RunStage} {status : DocumentStatus} {touch : Bool}
    (h : stage.next = some (stage', status, touch)) : stage'.isWorking = true := by
  match stage, h with
  | .claimed, rfl | .extracting, rfl | .chunking, rfl => rfl

/-- What the document of a run is after the run has committed a status. -/
theorem RagLibrary.Ordered.indexed_commit (hs : s.Ordered) {s' : RagLibrary} {stage : RunStage}
    {status : DocumentStatus} {now : DateTime} {row : RagDocument} (hrun : s.runs[k]? = some run)
    (hrow : (s'.commitStatus k run stage status now).document d = some row)
    (hd : (s'.commitStatus k run stage status now).Committed d)
    (hs' : s'.documents = s.documents ∧ s'.runs = s.runs)
    (hself : stage.isWorking = true ∨ status = .indexed ∧ run.document.status ≠ .indexed ∨
      stage.hasCommitted = false ∧ ¬s.Committed run.document.id) :
    row.status = .indexed ∨ (s'.commitStatus k run stage status now).Working d := by
  have hruns : (s'.commitStatus k run stage status now).runs = s.runs.set k (run.moved stage status) := by
    rw [← hs'.2]
    rfl
  have hk : (s'.commitStatus k run stage status now).runs[k]? = some (run.moved stage status) := by
    rw [hruns]
    exact List.getElem?_set_self (List.getElem?_eq_some_iff.1 hrun).1
  rw [document_commitStatus] at hrow
  by_cases hid : run.document.id = d
  · rcases hself with hworking | ⟨rfl, hmemory⟩ | ⟨hstage, hnone⟩
    · exact .inr (hasRun_of_getElem? hk hid hworking)
    · rw [if_pos hid.symm] at hrow
      obtain ⟨row₀, -, rfl⟩ := Option.map_eq_some_iff.1 hrow
      left
      rw [updateDocumentStatus, if_neg hmemory.symm]
    · rcases hasRun_of_set hruns hd with ⟨-, hcommitted⟩ | hd
      · exact nomatch hstage.symm.trans hcommitted
      · exact absurd (hid ▸ hd) hnone
  · rw [if_neg fun h ↦ hid h.symm] at hrow
    have hrow : s.document d = some row := by
      rw [RagLibrary.document, ← hs'.1]
      exact hrow
    rcases hasRun_of_set hruns hd with ⟨hid', -⟩ | hd
    · exact absurd hid' hid
    · exact (hs.indexed d row hrow hd).imp id fun hworking ↦
        hasRun_set hrun hruns hworking fun hid' ↦ absurd hid' hid

/-- What a document is after a run has moved without a commit. -/
theorem RagLibrary.Ordered.indexed_move (hs : s.Ordered) {row : RagDocument} (hC : Orderly s a)
    (hrun : s.runs[k]? = some run) (hmove : RunMove s k run a run')
    (hdocs : t.documents = s.documents) (hruns : t.runs = s.runs.set k run')
    (hrow : t.document d = some row) (hd : t.Committed d) : row.status = .indexed ∨ t.Working d := by
  have hrow : s.document d = some row := by
    rw [RagLibrary.document, ← hdocs]
    exact hrow
  have hd : s.Committed d := by
    rcases hasRun_of_set hruns hd with ⟨hid, hcommitted⟩ | hd
    · obtain ⟨hcommitted, hdoc, -⟩ := hmove.committed_before hcommitted
      exact hasRun_of_getElem? hrun (hdoc ▸ hid) hcommitted
    · exact hd
  by_cases hworking : run.document.id = d ∧ run.stage.isWorking = true ∧ a = .abandon k
  · obtain ⟨rfl, hworking, rfl⟩ := hworking
    have htry : run.stage.inTry = true := by
      cases hstage : run.stage <;> rw [hstage] at hworking <;> first | rfl | cases hworking
    rcases (hC run hrun).2 htry hd with hindexed | ⟨j, -, hne, r, hr, hid, hr'⟩
    · exact .inl (hindexed row hrow)
    · have hj : t.runs[j]? = some r := by
        rw [hruns]
        exact (List.getElem?_set_ne hne.symm).trans hr
      exact .inr (hasRun_of_getElem? hj hid hr')
  · refine (hs.indexed d row hrow hd).imp id fun h ↦ hasRun_set hrun hruns h fun hid hstage ↦ ?_
    rcases hmove.working hstage with hstage' | ha
    · exact ⟨hmove.keeps.1 ▸ hid, hstage'⟩
    · exact absurd ⟨hid, hstage, ha⟩ hworking

/-- **A document with committed chunks is indexed, or is being indexed again.** -/
theorem RagLibrary.Ordered.indexed_step (hs : s.Ordered) (h : RagStep S s a t)
    (hI : a.isIndexing = true) (hC : Orderly s a) {row : RagDocument}
    (hrow : t.document d = some row) (hd : t.Committed d) : row.status = .indexed ∨ t.Working d := by
  match h with
  | .uploaded hinsert _ _ =>
    have hd : s.Committed d := hd
    obtain ⟨r, hr, rfl, -⟩ := id hd
    obtain ⟨j, hj⟩ := List.mem_iff_getElem?.1 hr
    -- The document of a run is there already.
    obtain ⟨row₀, hrow₀⟩ := hs.well.document j r hj
    have hfind := Table.find_of_insert_of_some hinsert hrow₀
    obtain rfl := Option.some.inj (hfind.symm.trans hrow)
    exact hs.indexed _ _ hrow₀ hd
  | .loaded _ =>
    have happend {P : RunStage → Bool} (hd : s.HasRun d P) {r : IndexRun} :
        ({ s with runs := s.runs ++ [r] } : RagLibrary).HasRun d P := by
      obtain ⟨r', hr', hP⟩ := hd
      exact ⟨r', List.mem_append_left _ hr', hP⟩
    obtain ⟨r, hr, hid, hcommitted⟩ := hd
    rcases List.mem_append.1 hr with hr | hr
    · exact (hs.indexed d row hrow ⟨r, hr, hid, hcommitted⟩).imp id fun hworking ↦ happend hworking
    · obtain rfl := List.mem_singleton.1 hr
      exact nomatch hcommitted
  | .moved hrun hmove => exact hs.indexed_move hC hrun hmove rfl rfl hrow hd
  | .refused hrun hstage hwith _ _ _ _ =>
    obtain ⟨J, rfl, -⟩ := withJob_eq_some hwith
    exact hs.indexed_move hC hrun (.unclaimed _ _ hstage (.inl rfl)) rfl rfl hrow hd
  | .claimed hrun _ hwith _ _ _ _ _ =>
    obtain ⟨J, rfl, -⟩ := withJob_eq_some hwith
    exact hs.indexed_commit hrun hrow hd ⟨rfl, rfl⟩ (.inl rfl)
  | .advanced hrun hnext _ hs' =>
    refine hs.indexed_commit hrun hrow hd ?_ (.inl (isWorking_of_next hnext))
    rcases hs' with rfl | ⟨job', -, rfl⟩ <;> exact ⟨rfl, rfl⟩
  | .finished hrun hstage _ =>
    refine hs.indexed_commit hrun hrow hd ⟨rfl, rfl⟩ (.inr (.inl ⟨rfl, ?_⟩))
    rw [(hs.well.run _ _ hrun).memory .embedding (by rw [hstage]; rfl)]
    exact fun h ↦ nomatch h
  | .failed hrun _ _ =>
    exact hs.indexed_commit hrun hrow hd ⟨rfl, rfl⟩ (.inr (.inr ⟨rfl, (hC _ hrun).1⟩))
  | .opened _ | .enqueued _ _ _ | .rolledBack _ => exact hs.indexed d row hrow hd
  | .deadLettered _ _ | .cancelled _ _ | .deleted _ _ | .jobsDeleted _ _ | .cleanedUp _ =>
    exact nomatch hI

/-! ### Completed jobs -/

/-- The job of a run at work, and its document. -/
theorem document_of_run (hs : s.WellFormed) (hrun : s.runs[k]? = some run)
    (htry : run.stage.inTry = true) {j : Uuid} {job : RagIngestionJob} (hjob : s.job j = some job)
    (hid : job.id = run.jobId) : job.documentId = run.document.id := by
  refine hs.job k run hrun htry run.jobId List.mem_cons_self job ?_
  rw [← hid, id_of_job hjob]
  exact hjob

/-- **A completed job stays completed.** -/
theorem RagLibrary.Ordered.completed_stays (hs : s.Ordered) (h : RagStep S s a t)
    (hI : a.isIndexing = true) (hC : Orderly s a) {j : Uuid} {job : RagIngestionJob}
    (hjob : s.job j = some job) (hcompleted : job.status = .completed) :
    ∃ job', t.job j = some job' ∧ job'.status = .completed := by
  rcases h.job_after hjob with ⟨job', hjob', hmove⟩ | ⟨-, hremoval⟩
  · refine ⟨job', hjob', ?_⟩
    match hmove with
    | .same => exact hcompleted
    | .started _ _ _ _ hstart => exact absurd hcompleted (startIndexing_started hstart).1
    | .refused _ _ _ _ hstart => exact absurd hcompleted (startIndexing_refused hstart).1
    | .touched _ _ _ htouch =>
      rw [touchJob_eq_some htouch]
      exact hcompleted
    | .completed _ _ _ _ => rfl
    | .failed ha hrun htry hid =>
      subst ha
      have hdoc := document_of_run hs.well hrun htry hjob hid
      exact absurd (hdoc ▸ hs.completed j job hjob hcompleted) (hC _ hrun).1
    | .deadLettered ha _ _ | .cancelled ha _ =>
      subst ha
      exact nomatch hI
  · match hremoval with
    | .deleted ha _ _ | .cleanedUp ha _ _ =>
      subst ha
      exact nomatch hI

/-- The document of a completed job has committed chunks. -/
theorem RagLibrary.Ordered.completed_step (hs : s.Ordered) (hstep : ragStep S s a = some t)
    (hI : a.isIndexing = true) (hC : Orderly s a) {j : Uuid} {job' : RagIngestionJob}
    (hjob' : t.job j = some job') (hcompleted : job'.status = .completed) :
    t.Committed job'.documentId := by
  have h := ragStep_sound hstep
  rcases h.job_before hjob' with ⟨job, hjob, hmove⟩ | ⟨-, -, hcreation⟩
  · have hstays (hstatus : job.status = .completed) : t.Committed job'.documentId := by
      rw [hmove.keepsDocument]
      exact (hs.completed j job hjob hstatus).stays h hC
    match hmove with
    | .same => exact hstays hcompleted
    | .started _ _ _ _ hstart =>
      rw [(startIndexing_started hstart).2] at hcompleted
      exact nomatch hcompleted
    | .refused _ _ _ _ hstart =>
      rw [(startIndexing_refused hstart).2] at hcompleted
      exact nomatch hcompleted
    | .touched _ _ _ htouch =>
      rw [touchJob_eq_some htouch] at hcompleted
      exact hstays hcompleted
    | .completed ha hrun hstage hid =>
      subst ha
      have hdoc := document_of_run hs.well hrun (by rw [hstage]; rfl) hjob hid
      rw [ragStep, hrun, Option.bind_some] at hstep
      obtain ⟨-, rfl⟩ := finish_eq_some hstep
      exact hasRun_of_getElem? (List.getElem?_set_self (List.getElem?_eq_some_iff.1 hrun).1) hdoc.symm rfl
    | .failed _ _ _ _ => exact nomatch hcompleted
    | .deadLettered ha _ _ | .cancelled ha _ =>
      subst ha
      exact nomatch hI
  · match hcreation with
    | .uploaded _ _ | .enqueued _ _ => exact nomatch hcompleted
    | .started _ _ _ _ hstart =>
      rw [(startIndexing_started hstart).2] at hcompleted
      exact nomatch hcompleted
    | .refused _ _ _ _ hstart =>
      rw [(startIndexing_refused hstart).2] at hcompleted
      exact nomatch hcompleted

/-! ### The invariant -/

theorem RagLibrary.Ordered.initial : RagLibrary.initial.Ordered where
  well := .initial
  chunks := fun _ _ ↦ .inl ⟨rfl, fun _ _ h ↦ nomatch h⟩
  doomed := fun _ _ h ↦ nomatch h
  replaced := fun _ _ h ↦ nomatch h
  exclusive := fun _ _ _ _ h ↦ nomatch h
  indexed := fun _ _ h ↦ nomatch h
  completed := fun _ _ h ↦ nomatch h

/-- What a step does to the chunks: nothing, or it is the end of a run. -/
theorem RagLibrary.Ordered.outcome (hs : s.Ordered) (hstep : ragStep S s a = some t)
    (hI : a.isIndexing = true) (hC : Orderly s a) :
    (t.chunks = s.chunks ∧ ∀ k now, a ≠ .finish k now) ∨
      ∃ (k : ℕ) (run : IndexRun), s.runs[k]? = some run ∧ run.stage = .stored ∧
        t.chunks = run.applied s.chunks ∧ t.runs = s.runs.set k (run.moved .committed .indexed) := by
  by_cases ha : ∃ k now, a = .finish k now
  · obtain ⟨k, now, rfl⟩ := ha
    obtain ⟨run, hrun, hstep⟩ := Option.bind_eq_some_iff.1 hstep
    obtain ⟨⟨hstage, -⟩, rfl⟩ := finish_eq_some hstep
    exact .inr ⟨k, run, hrun, hstage, rfl, rfl⟩
  · have ha : ∀ k now, a ≠ .finish k now := fun k now h ↦ ha ⟨k, now, h⟩
    exact .inl ⟨hs.chunks_step (ragStep_sound hstep) hI hC ha, ha⟩

/-- **Every orderly step of indexing keeps the invariant.** -/
theorem RagLibrary.Ordered.step (hs : s.Ordered) (hstep : ragStep S s a = some t)
    (hI : a.isIndexing = true) (hC : Orderly s a) : t.Ordered := by
  have h := ragStep_sound hstep
  have hend := hs.outcome hstep hI hC
  exact {
    well := hs.well.step h
    chunks := fun d v ↦ by
      rcases hend with ⟨hchunks, ha⟩ | ⟨k, run, hrun, hstage, hchunks, hruns⟩
      · exact hs.chunks_quiet h hC ha hchunks d v
      · exact hs.chunks_finished h hC hrun hstage hchunks hruns d v
    doomed := fun k run hrun hlocks ↦ hs.doomed_step h hC hrun hlocks
    replaced := fun k run hrun hstage ↦ hs.replaced_step h (hend.imp And.left id) hrun hstage
    exclusive := fun j k run run' hrun hrun' hne hstage hstage' hid hversion ↦
      hs.exclusive_step h hrun hrun' hne hstage hstage' hid hversion
    indexed := fun d row hrow hd ↦ hs.indexed_step h hI hC hrow hd
    completed := fun j job hjob hcompleted ↦ hs.completed_step hstep hI hC hjob hcompleted }

end Ordered

/-! ### The results -/

/-- When all runs have ended, the chunks of a document under a version are those of a run that has
reported success, none if there is no such run, and a document with committed chunks is indexed. -/
def RagLibrary.Settled (s : RagLibrary) : Prop :=
  (∀ run ∈ s.runs, run.stage.isLive = false) →
    (∀ d v, (∃ run ∈ s.runs, run.document.id = d ∧ run.versionId = v ∧ run.stage = .returned ∧
          s.chunksOf d v = run.rows) ∨
        s.chunksOf d v = [] ∧
          ∀ run ∈ s.runs, run.stage = .returned → ¬(run.document.id = d ∧ run.versionId = v)) ∧
      ∀ d, s.Committed d → ∀ document, s.document d = some document → document.status = .indexed

/-- **Concurrent runs settle as long as their ends are orderly**, and a completed job stays completed. -/
theorem indexing_is_orderly (S : Settings) (s : RagLibrary)
    (hs : (ragMachine S).Reachable (fun u a ↦ a.isIndexing = true ∧ Orderly u a) s) :
    s.Settled ∧ ∀ t, (ragMachine S).Later (fun u a ↦ a.isIndexing = true ∧ Orderly u a) s t →
      ∀ j job, s.job j = some job → job.status = .completed →
        ∃ job', t.job j = some job' ∧ job'.status = .completed := by
  have hordered : s.Ordered := by
    refine hs.invariant (fun u hinit ↦ ?_) fun u a u' hu hC hstep ↦ hu.step hstep hC.1 hC.2
    obtain rfl : u = .initial := hinit
    exact .initial
  refine ⟨fun hended ↦ ⟨fun d v ↦ ?_, fun d hd document hdoc ↦ ?_⟩, ?_⟩
  · rcases hordered.chunks d v with ⟨hempty, hnone⟩ | ⟨k, run, hrun, hcommitted, hid, hversion, hrows⟩
    · refine .inr ⟨hempty, fun run hmem hreturned ↦ ?_⟩
      obtain ⟨k, hrun⟩ := List.mem_iff_getElem?.1 hmem
      exact hnone k run hrun (by rw [hreturned]; rfl)
    · have hmem := List.mem_of_getElem? hrun
      refine .inl ⟨run, hmem, hid, hversion, ?_, hrows.symm⟩
      match hstage : run.stage, hcommitted with
      | .returned, _ => rfl
      | .committed, _ =>
        have hlive := hended run hmem
        rw [hstage] at hlive
        exact nomatch hlive
  · rcases hordered.indexed d document hdoc hd with hindexed | ⟨run, hmem, -, hworking⟩
    · exact hindexed
    · have hlive := hended run hmem
      match hstage : run.stage, hworking with
      | .claimed, _ | .extracting, _ | .chunking, _ | .embedding, _ | .replaced, _ | .stored, _ =>
        rw [hstage] at hlive
        exact nomatch hlive
  · intro t hlater j job hjob hcompleted
    exact (hlater.stable
      (P := fun u ↦ u.Ordered ∧ ∃ job', u.job j = some job' ∧ job'.status = .completed)
      (fun u a u' ⟨hu, job', hjob', hcompleted'⟩ hC hstep ↦ ⟨hu.step hstep hC.1 hC.2,
        hu.completed_stays (ragStep_sound hstep) hC.1 hC.2 hjob' hcompleted'⟩)
      ⟨hordered, job, hjob, hcompleted⟩).2

/-! ### Two runs of one job -/

/-- A run is at work on the job when the job is delivered again: its heartbeat has stopped for 700
seconds. -/
def twoRuns : List RagAction :=
  [.upload handbook 11 0, .load 1 11 false "ana", .claim 0 1, .load 1 11 false "ana",
    .claim 1 (timedelta 700), .advance 0 (timedelta 701), .advance 0 (timedelta 702),
    .advance 0 (timedelta 703), .advance 1 (timedelta 704), .advance 1 (timedelta 705),
    .advance 1 (timedelta 706)]

/-- Both delete what is there, the first one commits its chunks, and the second one runs into the unique
index and dies. -/
def lostRun : List RagAction :=
  twoRuns ++ [.replace 0 21 [("Holidays are on page 7.", "child")] (timedelta 707),
    .replace 1 21 [("Holidays are on page 7.", "child")] (timedelta 707), .store 0,
    .finish 0 (timedelta 708), .abandon 1, .report 0]

theorem lostRun_isSome : ((ragMachine .default).run (fun u a ↦ a.isIndexing = true ∧ Orderly u a)
    .initial lostRun).isSome = true := by decide

theorem indexing_is_orderly_lost : RagLibrary.Settled (Option.get _ lostRun_isSome) :=
  (indexing_is_orderly .default _ (reachable_run rfl lostRun_isSome)).1

/-- The first run completes the job and returns. -/
def firstRun : List RagAction :=
  twoRuns ++ [.replace 0 21 [("Holidays are on page 7.", "child")] (timedelta 707), .store 0,
    .finish 0 (timedelta 708), .report 0]

theorem firstRun_isSome : ((ragMachine .default).run (fun _ a ↦ a.isIndexing = true)
    .initial firstRun).isSome = true := by decide

/-- The library when the first run has returned. -/
def completedLibrary : RagLibrary := Option.get _ firstRun_isSome

theorem reachable_completedLibrary : (ragMachine .default).Reachable (fun _ a ↦ a.isIndexing = true)
    completedLibrary :=
  reachable_run rfl firstRun_isSome

theorem failedAgain_isSome : ((ragMachine .default).run (fun _ a ↦ a.isIndexing = true) completedLibrary
    [.fail 1 "Document indexing failed" (timedelta 709)]).isSome = true := by decide

/-- The library when the second run has failed. -/
def failedLibrary : RagLibrary := Option.get _ failedAgain_isSome

theorem later_failedLibrary : (ragMachine .default).Later (fun _ a ↦ a.isIndexing = true)
    completedLibrary failedLibrary :=
  later_run failedAgain_isSome

/-- **Concurrent runs do not settle** when the second one fails: the chunks of the first are there, the
document has failed, and so has the job that was completed. -/
theorem indexing_is_disorderly :
    (¬∀ S s, (ragMachine S).Reachable (fun _ a ↦ a.isIndexing = true) s → s.Settled) ∧
    ¬∀ S s t, (ragMachine S).Reachable (fun _ a ↦ a.isIndexing = true) s →
      (ragMachine S).Later (fun _ a ↦ a.isIndexing = true) s t →
      ∀ j job, s.job j = some job → job.status = .completed →
        ∃ job', t.job j = some job' ∧ job'.status = .completed := by
  refine ⟨fun h ↦ ?_, fun h ↦ ?_⟩
  · have hsettled := h .default _ (reachable_completedLibrary.later later_failedLibrary) (by decide)
    have hfailed : ∃ document ∈ failedLibrary.document 1, document.status = .failed := by decide
    obtain ⟨document, hdoc, hfailed⟩ := hfailed
    have hindexed := hsettled.2 1 (by decide) document hdoc
    rw [hfailed] at hindexed
    exact nomatch hindexed
  · have hcompleted : ∃ job ∈ completedLibrary.job 11, job.status = .completed := by decide
    obtain ⟨job, hjob, hcompleted⟩ := hcompleted
    obtain ⟨job', hjob', hcompleted'⟩ :=
      h .default _ _ reachable_completedLibrary later_failedLibrary 11 job hjob hcompleted
    have hfailed : ∀ job ∈ failedLibrary.job 11, job.status ≠ .completed := by decide
    exact hfailed job' hjob' hcompleted'

end GenericApp
