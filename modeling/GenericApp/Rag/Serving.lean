import GenericApp.Rag.IndexInvariants

/-!
# What keeps serving while a document is indexed again

A document is served under a version if it is indexed, is not deleted and has chunks there. Indexing it
again leaves these chunks alone until new ones are committed (`replace_chunks` is by document and
version). But `_scope_filters` reads the status of the document, which is one for all versions, and
`index_document` moves it away from `indexed` with its first commit.

* `serving_is_kept`: as long as no run on the document commits a status before its chunks, every search
  returns of these chunks what it returned before, until they are replaced or the document is deleted;
  and the first such commit makes all chunks of the document, under all versions, invisible.
* `serving_is_interrupted`: a document that is indexed a second time.
-/

namespace GenericApp

open Machine Py RagLibrary

/-! ### Serving -/

/-- A search with these arguments returns the chunk, if it ranks. -/
def RagLibrary.Retrieves (s : RagLibrary) (scope : SearchScope) (chunk : ChunkRow) : Prop :=
  chunk ∈ s.chunks ∧
    ∃ document ∈ s.document chunk.documentId, scopeFilters scope document chunk = true

instance (s : RagLibrary) (scope : SearchScope) (chunk : ChunkRow) :
    Decidable (s.Retrieves scope chunk) :=
  inferInstanceAs (Decidable (_ ∧ ∃ document ∈ s.document chunk.documentId, _))

/-- The document is retrievable from the version. -/
def RagLibrary.Serves (s : RagLibrary) (documentId versionId : Uuid) : Prop :=
  (∃ document ∈ s.document documentId, document.status = .indexed ∧ document.deletedAt = none) ∧
    s.chunksOf documentId versionId ≠ []

instance (s : RagLibrary) (documentId versionId : Uuid) : Decidable (s.Serves documentId versionId) :=
  inferInstanceAs (Decidable ((∃ document ∈ s.document documentId, _) ∧ _ ≠ []))

/-- The step replaces the chunks of the document under the version, or deletes the document. -/
def EndsServing (documentId versionId : Uuid) (s : RagLibrary) : RagAction → Prop
  | .finish k _ => ∃ run ∈ s.runs[k]?, run.document.id = documentId ∧ run.versionId = versionId
  | .commitDelete k _ => ∃ x ∈ s.transactions[k]?, x.locksDocument documentId = true
  | _ => False

instance (documentId versionId : Uuid) (s : RagLibrary) (a : RagAction) :
    Decidable (EndsServing documentId versionId s a) :=
  match a with
  | .finish k _ =>
    inferInstanceAs (Decidable (∃ run ∈ s.runs[k]?, run.document.id = documentId ∧
      run.versionId = versionId))
  | .commitDelete k _ =>
    inferInstanceAs (Decidable (∃ x ∈ s.transactions[k]?, x.locksDocument documentId = true))
  | .upload .. | .load .. | .claim .. | .advance .. | .replace .. | .store _ | .report _ | .fail ..
  | .abandon _ | .enqueue _ | .commitEnqueue .. | .deadLetter _ | .commitDeadLetter .. | .cancel _
  | .commitCancel .. | .delete _ | .cleanup _ | .cleanupJobs _ | .commitCleanup .. | .rollback _ =>
    inferInstanceAs (Decidable False)

/-- The step is no commit by which a run gives the document a status other than `indexed`: no claim that
goes through (but one that has read the document as `validating` writes nothing), no intermediate commit
and no failure. -/
def KeepsServing (S : Settings) (documentId : Uuid) (s : RagLibrary) : RagAction → Prop
  | .claim k now => ∀ run ∈ s.runs[k]?, run.stage = .loaded → run.document.id = documentId →
    s.begins S run now = true → run.document.status = .validating
  | .advance k _ | .fail k _ _ => ∀ run ∈ s.runs[k]?, run.document.id ≠ documentId
  | _ => True

instance (S : Settings) (documentId : Uuid) (s : RagLibrary) (a : RagAction) :
    Decidable (KeepsServing S documentId s a) :=
  match a with
  | .claim k now =>
    inferInstanceAs (Decidable (∀ run ∈ s.runs[k]?, run.stage = .loaded → run.document.id = documentId →
      s.begins S run now = true → run.document.status = .validating))
  | .advance k _ | .fail k _ _ =>
    inferInstanceAs (Decidable (∀ run ∈ s.runs[k]?, run.document.id ≠ documentId))
  | .upload .. | .load .. | .replace .. | .store _ | .finish .. | .report _ | .abandon _ | .enqueue _
  | .commitEnqueue .. | .deadLetter _ | .commitDeadLetter .. | .cancel _ | .commitCancel .. | .delete _
  | .commitDelete .. | .cleanup _ | .cleanupJobs _ | .commitCleanup .. | .rollback _ => isTrue trivial

section Kept

variable {S : Settings} {s t : RagLibrary} {a : RagAction} {documentId versionId : Uuid}
  {document document' : RagDocument} {k : ℕ} {run : IndexRun}

/-- What `_scope_filters` reads of a document. -/
theorem scopeFilters_congr (hstatus : document'.status = document.status)
    (hdeleted : document'.deletedAt = document.deletedAt)
    (hsource : document'.sourceType = document.sourceType) (scope : SearchScope) (chunk : ChunkRow) :
    scopeFilters scope document' chunk = scopeFilters scope document chunk := by
  rw [scopeFilters, scopeFilters, hstatus, hdeleted, hsource]

/-- What the document and its chunks under the version are as long as they are served. -/
structure Held (documentId versionId : Uuid) (chunks : List ChunkRow) (sourceType : String)
    (s : RagLibrary) : Prop where
  chunks : s.chunksOf documentId versionId = chunks
  document : ∃ row, s.document documentId = some row ∧ row.status = .indexed ∧
    row.deletedAt = none ∧ row.sourceType = sourceType

/-- An intermediate commit leads away from what the run remembers, and not to `indexed`. -/
theorem next_status {stage stage' : RunStage} {status : DocumentStatus} {touch : Bool}
    (h : stage.next = some (stage', status, touch)) :
    status ≠ .indexed ∧ ∃ memory, stage.memory = some memory ∧ status ≠ memory := by
  match stage, h with
  | .claimed, rfl | .extracting, rfl | .chunking, rfl =>
    exact ⟨by decide, _, rfl, by decide⟩

/-- The chunks stay as long as they are not replaced. -/
theorem chunksOf_step (hs : s.WellFormed) (hstep : RagStep S s a t) (hlive : ¬s.Deleted documentId)
    (hkeeps : KeepsServing S documentId s a) (hends : ¬EndsServing documentId versionId s a) :
    t.chunksOf documentId versionId = s.chunksOf documentId versionId := by
  rw [chunksOf, chunksOf]
  match t.chunks, hstep.chunks_step with
  | _, .same => rfl
  | _, .committed hrun hcommit =>
    match hcommit with
    | .claimed _ hstage _ => rw [IndexRun.applied, hstage]
    | .advanced _ hnext => rw [applied_of_next hnext]
    | .finished _ _ _ =>
      exact (hs.run _ _ hrun).applied_elsewhere (fun hof ↦ hends ⟨_, hrun, hof⟩) _
    | .failed _ _ _ _ =>
      exact (hs.run _ _ hrun).applied_elsewhere (fun hof ↦ hkeeps _ hrun hof.1) _
  | _, .cleaned _ hx =>
    -- A cleanup is at work on a deleted document, so on another one.
    obtain ⟨⟨hdeleted, hchunks⟩, -⟩ := hs.transaction _ _ hx
    rw [List.filter_filter]
    refine List.filter_congr fun c _ ↦ ?_
    by_cases hc : c.isOf documentId versionId = true
    · rw [hc, Bool.true_and]
      refine decide_eq_true fun hmem ↦ hlive ?_
      rw [← (of_decide_eq_true hc).1, hchunks c hmem]
      exact hdeleted
    · rw [Bool.eq_false_iff.2 hc, Bool.false_and]

/-- What is served stays as it is. -/
theorem Held.step {chunks : List ChunkRow} {sourceType : String} (hs : s.WellFormed)
    (h : Held documentId versionId chunks sourceType s) (hstep : RagStep S s a t)
    (hkeeps : KeepsServing S documentId s a) (hends : ¬EndsServing documentId versionId s a) :
    Held documentId versionId chunks sourceType t := by
  obtain ⟨row, hrow, hindexed, hlive, hsource⟩ := h.document
  have hnot : ¬s.Deleted documentId := by
    rintro ⟨row', hrow', hdeleted⟩
    obtain rfl := Option.some.inj (hrow.symm.trans hrow')
    exact hdeleted hlive
  refine ⟨(chunksOf_step hs hstep hnot hkeeps hends).trans h.chunks, ?_⟩
  obtain ⟨row', hrow', hmove⟩ := hstep.document_step hrow
  match hmove with
  | .same => exact ⟨row, hrow', hindexed, hlive, hsource⟩
  | .status hrun hid hcommit =>
    refine ⟨_, hrow', ?_, hlive, hsource⟩
    rw [updateDocumentStatus]
    match hcommit with
    | .claimed _ hstage hbegins =>
      -- What the run has read is what it would write.
      rw [hkeeps _ hrun hstage hid hbegins]
      exact hindexed
    | .finished _ hstage _ =>
      rw [(hs.run _ _ hrun).memory .embedding (by rw [hstage]; rfl)]
      rfl
    | .advanced _ _ | .failed _ _ _ _ => exact absurd hid (hkeeps _ hrun)
  | .deleted ha hx =>
    subst ha
    exact absurd ⟨_, hx, decide_eq_true rfl⟩ hends
  | .scrubbed _ hx => exact absurd (hs.transaction _ _ hx).1.1 hnot

/-- **A commit that is excluded hides the document.** -/
theorem hidden_of_not_keepsServing (hs : s.WellFormed) (hstep : ragStep S s a = some t)
    (hkeeps : ¬KeepsServing S documentId s a) :
    ∀ row, t.document documentId = some row → row.status ≠ .indexed := by
  have hcommitted {s' : RagLibrary} {k : ℕ} {run : IndexRun} {stage : RunStage} {status : DocumentStatus}
      {now : DateTime} (hid : run.document.id = documentId) (hmemory : status ≠ run.document.status)
      (hne : status ≠ .indexed) (ht : t = s'.commitStatus k run stage status now) :
      ∀ row, t.document documentId = some row → row.status ≠ .indexed := by
    intro row hrow
    rw [ht, document_commitStatus, if_pos hid.symm] at hrow
    obtain ⟨row₀, -, rfl⟩ := Option.map_eq_some_iff.1 hrow
    rw [updateDocumentStatus, if_neg hmemory]
    exact hne
  match a, hkeeps with
  | .claim k now, hkeeps =>
    simp only [KeepsServing, not_forall] at hkeeps
    obtain ⟨run, hrun, hstage, hid, hbegins, hstatus⟩ := hkeeps
    have hrun : s.runs[k]? = some run := hrun
    rw [ragStep, hrun, Option.bind_some, if_pos hstage] at hstep
    obtain ⟨s', -, -, ht⟩ := claim_of_begins hbegins hstep
    exact hcommitted hid (fun h ↦ hstatus h.symm) (by decide) ht
  | .advance k now, hkeeps =>
    simp only [KeepsServing, not_forall, not_not] at hkeeps
    obtain ⟨run, hrun, hid⟩ := hkeeps
    have hrun : s.runs[k]? = some run := hrun
    rw [ragStep, hrun, Option.bind_some] at hstep
    obtain ⟨stage, status, touch, s', hnext, -, -, ht⟩ := advance_eq_some hstep
    obtain ⟨hne, memory, hmemory, hstatus⟩ := next_status hnext
    rw [← (hs.run k run hrun).memory memory hmemory] at hstatus
    exact hcommitted hid hstatus hne ht
  | .fail k message now, hkeeps =>
    simp only [KeepsServing, not_forall, not_not] at hkeeps
    obtain ⟨run, hrun, hid⟩ := hkeeps
    have hrun : s.runs[k]? = some run := hrun
    rw [ragStep, hrun, Option.bind_some] at hstep
    obtain ⟨⟨htry, -⟩, ht⟩ := fail_eq_some hstep
    exact hcommitted hid (memory_ne_failed (hs.run k run hrun) htry).symm (by decide) ht
  | .upload .., h | .load .., h | .replace .., h | .store _, h | .finish .., h | .report _, h
  | .abandon _, h | .enqueue _, h | .commitEnqueue .., h | .deadLetter _, h | .commitDeadLetter .., h
  | .cancel _, h | .commitCancel .., h | .delete _, h | .commitDelete .., h | .cleanup _, h
  | .cleanupJobs _, h | .commitCleanup .., h | .rollback _, h => exact absurd trivial h

end Kept

/-! ### The results -/

/-- **Serving is kept by steps that commit no status on the document, until its chunks are replaced or it
is deleted; any other step hides the document.** -/
theorem serving_is_kept (S : Settings) (s : RagLibrary) (documentId versionId : Uuid)
    (hs : (ragMachine S).Reachable anyStep s) (hserves : s.Serves documentId versionId) :
    ∀ t, (ragMachine S).Later (fun u a ↦ KeepsServing S documentId u a ∧
        ¬EndsServing documentId versionId u a) s t →
      (∀ scope chunk, chunk.isOf documentId versionId = true →
        (t.Retrieves scope chunk ↔ s.Retrieves scope chunk)) ∧
      ∀ a u, ragStep S t a = some u → ¬KeepsServing S documentId t a →
        ∀ scope chunk, chunk.documentId = documentId → ¬u.Retrieves scope chunk := by
  intro t hlater
  have hwell := wellFormed_of_reachable hs
  obtain ⟨⟨row, hrow, hindexed, hlive⟩, -⟩ := hserves
  obtain ⟨hwell', hheld⟩ := hlater.stable
    (P := fun u ↦ u.WellFormed ∧
      Held documentId versionId (s.chunksOf documentId versionId) row.sourceType u)
    (fun u a u' hu hC hstep ↦ ⟨hu.1.step (ragStep_sound hstep),
      hu.2.step hu.1 (ragStep_sound hstep) hC.1 hC.2⟩)
    ⟨hwell, rfl, row, hrow, hindexed, hlive, rfl⟩
  refine ⟨fun scope chunk hof ↦ ?_, fun a u hstep hkeeps scope chunk hof ↦ ?_⟩
  · obtain ⟨row', hrow', hindexed', hlive', hsource⟩ := hheld.document
    have hchunks : chunk ∈ t.chunks ↔ chunk ∈ s.chunks := by
      have hmem := congrArg (chunk ∈ ·) hheld.chunks
      simpa only [chunksOf, List.mem_filter, hof, and_true, eq_iff_iff] using hmem
    have hdoc : chunk.documentId = documentId := (of_decide_eq_true hof).1
    have hrow : s.document documentId = some row := hrow
    rw [Retrieves, Retrieves, hchunks, hdoc, hrow, hrow']
    have hfilters := scopeFilters_congr (hindexed'.trans hindexed.symm) (hlive'.trans hlive.symm)
      hsource scope chunk
    simp only [Option.mem_some_iff, exists_eq_left', hfilters]
  · rintro ⟨-, row', hrow', hfilter⟩
    rw [hof] at hrow'
    exact hidden_of_not_keepsServing hwell' hstep hkeeps row' hrow' (of_decide_eq_true hfilter).2.1

/-! ### A document that is indexed twice -/

/-- The document is uploaded and indexed under the version 21. -/
def servedRun : List RagAction :=
  [.upload handbook 11 0, .load 1 11 false "ana", .claim 0 1, .advance 0 2, .advance 0 3, .advance 0 4,
    .replace 0 21 [("Holidays are on page 7.", "child")] 5, .store 0, .finish 0 6, .report 0]

theorem servedRun_isSome : ((ragMachine .default).run anyStep .initial servedRun).isSome = true := by decide

/-- The library where the document is served. -/
def served : RagLibrary := Option.get _ servedRun_isSome

theorem reachable_served : (ragMachine .default).Reachable anyStep served :=
  reachable_run rfl servedRun_isSome

/-- Somebody asks for the document to be indexed again, and a worker loads it. -/
def againRun : List RagAction := [.enqueue 1, .commitEnqueue 0 12 "ana" 7, .load 1 12 false "ana"]

/-- What `ana` searches in version 21. -/
def anaScope : SearchScope := ⟨"ana", none, [], none, none, some 21⟩

/-- The chunk of the document. -/
def holidays : ChunkRow := ⟨0, 1, 21, "ana", none, none, 0, "Holidays are on page 7.", "child"⟩

theorem againRun_isSome : ((ragMachine .default).run (fun u a ↦ KeepsServing .default 1 u a ∧
    ¬EndsServing 1 21 u a) served againRun).isSome = true := by decide

theorem serving_is_kept_again : Retrieves (Option.get _ againRun_isSome) anaScope holidays :=
  ((serving_is_kept .default served 1 21 reachable_served (by decide) _
    (later_run againRun_isSome)).1 anaScope holidays (by decide)).2 (by decide)

theorem claimedRun_isSome : ((ragMachine .default).run (fun u a ↦ ¬EndsServing 1 21 u a) served
    (againRun ++ [.claim 1 8])).isSome = true := by decide

/-- **Serving is interrupted** by the claim of the second run: the chunk is there, and no search returns
it. -/
theorem serving_is_interrupted :
    ¬∀ (S : Settings) (s t : RagLibrary) (documentId versionId : Uuid),
      (ragMachine S).Reachable anyStep s → s.Serves documentId versionId →
      (ragMachine S).Later (fun u a ↦ ¬EndsServing documentId versionId u a) s t →
      ∀ scope chunk, chunk.isOf documentId versionId = true → s.Retrieves scope chunk →
        t.Retrieves scope chunk := by
  intro h
  have hgone : ¬Retrieves (Option.get _ claimedRun_isSome) anaScope holidays := by decide
  exact hgone (h .default served _ 1 21 reachable_served (by decide) (later_run claimedRun_isSome)
    anaScope holidays (by decide) (by decide))

end GenericApp
