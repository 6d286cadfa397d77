import GenericApp.Rag.InjectionFilter

/-!
# The scope of an answer

A search looks only at the rows that `_scope_filters` passes. What is loaded for its hits afterwards is
read by document alone: the parent of a child is the last row that is listed at its `parent_chunk_index`
and is no child, and neighbours are what is listed at the next indexes and may be seen by the user. An
index occurs once in each index version of a document, so rows of other versions, parent rows, and rows
of other projects come into the answer.

* `answers_stay_in_scope`: in all runs of calls all chunks of all answers are in scope, with their own
  text or that of their parent in the same version, if that holds of what can be reached from the rows
  that the calls find. And only then, as long as no `top_k` is negative and the parent texts in the
  metadata of the store are texts.
* `answers_leave_scope`: a document with two index versions.
-/

namespace GenericApp

open Machine Py

/-- The row is in the scope, apart from the clause on the role. -/
def RetrievalStore.Admits (store : RetrievalStore) (scope : SearchScope) (row : StoredChunk) : Prop :=
  row ∈ store.chunks ∧ ∃ document ∈ store.document row.documentId, row.admitted scope document = true

/-- The row is the parent of the other one, in the same index version. -/
def StoredChunk.IsParentOf (parent row : StoredChunk) : Prop :=
  parent.documentId = row.documentId ∧ parent.indexVersionId = row.indexVersionId ∧
    parentIndex row.metadata = some (parent.chunkIndex : ℤ) ∧ parent.role = some "parent"

instance (parent row : StoredChunk) : Decidable (parent.IsParentOf row) :=
  inferInstanceAs (Decidable (_ ∧ _ ∧ _ ∧ _))

/-- The text is that of the row, or of its parent, which is in the scope apart from its role. -/
def RetrievalStore.MaySay (store : RetrievalStore) (scope : SearchScope) (row : StoredChunk)
    (text : String) : Prop :=
  text = row.content ∨ ∃ parent, store.Admits scope parent ∧ parent.IsParentOf row ∧ text = parent.content

/-- The chunk is a row in the scope, with a text that it may say. -/
def RetrievalStore.StaysIn (store : RetrievalStore) (scope : SearchScope) (chunk : RetrievedChunk) :
    Prop :=
  ∃ row, row.id = chunk.chunkId ∧ store.InScope scope row ∧ store.MaySay scope row chunk.content

/-- Every chunk of the answer stays in the scope of the request, which is that of the active version and
of the requested documents that the user has. -/
def AnswerStaysInScope (store : RetrievalStore) (request : RetrievalRequest) (outcome : RetrievalOutcome) :
    Prop :=
  ∀ chunk ∈ outcome.chunks, ∃ filters, store.callFilters request = some filters ∧
    store.StaysIn (searchScope request filters) chunk

/-- What is loaded for the rows that a call can find stays in its scope. -/
structure LoadsStayInScope (store : RetrievalStore) (config : RetrievalConfig)
    (request : RetrievalRequest) : Prop where
  /-- The parent text in the metadata of a row. -/
  legacy : config.parentChildRetrievalEnabled = true → ∀ ranker plan filters row,
    Searches store config request ranker plan filters → Found store config request plan filters row →
      ∀ text ∈ legacyParent row.metadata, store.MaySay (searchScope request filters) row text
  /-- The row that is listed at the index of the parent, which another row of the document may want as
  well. -/
  parents : config.parentChildRetrievalEnabled = true → ∀ ranker plan filters row child index parent,
    Searches store config request ranker plan filters → Found store config request plan filters row →
      legacyParent row.metadata = none → parentIndex row.metadata = some index →
      Found store config request plan filters child → child.documentId = row.documentId →
      wantedParent child.metadata = some index → parentRow store row.documentId index = some parent →
      nonblank parent.content = true →
        store.MaySay (searchScope request filters) row parent.content
  /-- The first rows that are listed beside a row. -/
  neighbors : config.neighborExpansionEnabled = true → ∀ ranker plan filters row,
    Searches store config request ranker plan filters → Found store config request plan filters row →
      ∀ neighbor ∈ (Beside store config request row).take (plan.finalTopK - 1).toNat,
        store.InScope (searchScope request filters) neighbor

/-- The parent texts in the metadata are texts that are not blank, which is what older versions wrote. -/
def RetrievalStore.LegacyTexts (store : RetrievalStore) : Prop :=
  ∀ row ∈ store.chunks, (Dict.get row.metadata "parent_content").truthy = true →
    (legacyParent row.metadata).isSome = true

section Scope

variable {store : RetrievalStore} {config : RetrievalConfig} {request : RetrievalRequest}
  {plan : CandidatePlan} {filters : RetrievalFilters} {ranker : Reranker}

/-- **What is loaded in scope is found in scope.** -/
theorem LoadsStayInScope.findsOnly (h : LoadsStayInScope store config request) :
    FindsOnly store store.StaysIn config request := by
  intro ranker plan filters chunk hsearches horigin
  cases horigin with
  | own row hfound hprimary hcontent =>
    exact ⟨row, hprimary.1.symm, hfound.scope, Or.inl hcontent⟩
  | legacy row hfound hprimary hexpand hcontent =>
    exact ⟨row, hprimary.1.symm, hfound.scope,
      h.legacy hexpand ranker plan filters row hsearches hfound _ hcontent⟩
  | parent row child index parent hfound hprimary hexpand hlegacy hindex hchild hdocument hwants hparent
      hnonblank hcontent =>
    refine ⟨row, hprimary.1.symm, hfound.scope, ?_⟩
    rw [hcontent]
    exact h.parents hexpand ranker plan filters row child index parent hsearches hfound hlegacy hindex
      hchild hdocument hwants hparent hnonblank
  | neighbor row neighbor hfound hexpand hbeside hchunk =>
    rw [hchunk]
    exact ⟨neighbor, rfl, h.neighbors hexpand ranker plan filters row hsearches hfound neighbor hbeside,
      Or.inl rfl⟩

/-- The chunk of a row stays in scope only with a text that the row may say. -/
theorem RetrievalStore.StaysIn.maySay {scope : SearchScope} {row : StoredChunk} {chunk : RetrievedChunk}
    (h : store.StaysIn scope chunk) (hstored : row ∈ store.chunks) (hid : chunk.chunkId = row.id) :
    store.InScope scope row ∧ store.MaySay scope row chunk.content := by
  obtain ⟨row', hid', hscope, hsays⟩ := h
  obtain rfl := store.eq_of_id_eq hscope.1 hstored (hid'.trans hid)
  exact ⟨hscope, hsays⟩

/-- What can be found is answered to some call. -/
theorem loadsStayInScope_of_answers (hlegacy : store.LegacyTexts)
    (htopK : 0 ≤ request.resolvedTopK config.toRagConfig)
    (h : ∀ engine run, retrieveFrom store engine emptyCache config request = .ok run →
      AnswerStaysInScope store request run.outcome) : LoadsStayInScope store config request := by
  -- The text of a row that is found alone.
  have hshown : ∀ {ranker plan filters row text}, config.parentChildRetrievalEnabled = true →
      Searches store config request ranker plan filters →
      Found store config request plan filters row → parentTextOf store row = some text →
        store.MaySay (searchScope request filters) row text := by
    intro ranker plan filters row text hexpand hsearches hfound htext
    obtain ⟨engine, run, hrun, ⟨chunk, hchunk, hprimary, hcontent⟩, -⟩ :=
      shows_found hsearches hfound (hfound.one_le_topK hsearches htopK)
    obtain ⟨filters', hfilters', hstays⟩ := h engine run hrun chunk hchunk
    obtain rfl := Option.some.inj (hsearches.filters.symm.trans hfilters')
    have htext' : chunk.content = text := by
      rw [hcontent, shownText, if_pos hexpand, htext, Option.getD_some]
    rw [← htext']
    exact (hstays.maySay hfound.scope.1 hprimary.1).2
  refine ⟨fun hexpand ranker plan filters row hsearches hfound text htext ↦ ?_,
    fun hexpand ranker plan filters row child index parent hsearches hfound hnone hindex _ _ _ hparent
      hnonblank ↦ ?_,
    fun hexpand ranker plan filters row hsearches hfound neighbor hneighbor ↦ ?_⟩
  · refine hshown hexpand hsearches hfound ?_
    rw [parentTextOf, htext, Option.some_or]
  · -- Where the metadata hold no text, the row wants the parent itself.
    have hwants : wantedParent row.metadata = some index := by
      rw [wantedParent, if_neg, hindex]
      intro htruthy
      have hsome := hlegacy row hfound.scope.1 htruthy
      rw [hnone] at hsome
      cases hsome
    exact hshown hexpand hsearches hfound (parentTextOf_of_wanted hwants hparent hnonblank)
  · obtain ⟨engine, run, hrun, -, hneighbors⟩ :=
      shows_found hsearches hfound (hfound.one_le_topK hsearches htopK)
    obtain ⟨filters', hfilters', hstays⟩ := h engine run hrun _ (hneighbors hexpand neighbor hneighbor)
    obtain rfl := Option.some.inj (hsearches.filters.symm.trans hfilters')
    have hlist := (List.mem_filter.1 (List.mem_of_mem_take hneighbor)).1
    exact (hstays.maySay (store.mem_of_mem_list hlist).1 rfl).1

end Scope

/-! ### The result -/

/-- **Every chunk of every answer stays in the scope of its request**, with its own text or that of its
parent, in all runs of calls whose loads stay in scope, and only in these as long as no `top_k` is
negative. -/
theorem answers_stay_in_scope (store : RetrievalStore)
    (calls : RetrievalConfig → RetrievalRequest → Prop) :
    ((∀ config request, calls config request → LoadsStayInScope store config request) →
      ∀ s, (sessionMachine store).Reachable (fun _ call ↦ calls call.config call.request) s →
        ∀ answer ∈ s.answers, AnswerStaysInScope store answer.1.request answer.2.outcome) ∧
    ((∀ s, (sessionMachine store).Reachable (fun _ call ↦ calls call.config call.request) s →
        ∀ answer ∈ s.answers, AnswerStaysInScope store answer.1.request answer.2.outcome) →
      store.LegacyTexts → ∀ config request, calls config request →
        0 ≤ request.resolvedTopK config.toRagConfig → LoadsStayInScope store config request) := by
  refine ⟨fun h s hs answer hanswer ↦ ?_, fun h hlegacy config request hcall htopK ↦ ?_⟩
  · exact answers_meet (fun config request hcall ↦ (h config request hcall).findsOnly) hs answer hanswer
  · refine loadsStayInScope_of_answers hlegacy htopK fun engine run hrun ↦ ?_
    obtain ⟨s, call, hs, -, rfl, hanswer⟩ := reachable_single hcall hrun
    exact h s hs _ hanswer

theorem answers_stay_in_scope_far :
    ∀ s, (sessionMachine farStore).Reachable
        (fun _ call ↦ call.config = neighborConfig ∧ call.request = plainRequest) s →
      ∀ answer ∈ s.answers, AnswerStaysInScope farStore answer.1.request answer.2.outcome := by
  refine (answers_stay_in_scope farStore
    fun config request ↦ config = neighborConfig ∧ request = plainRequest).1 ?_
  rintro config request ⟨rfl, rfl⟩
  refine ⟨(fun hexpand ↦ nomatch hexpand), (fun hexpand ↦ nomatch hexpand),
    fun _ ranker plan filters row hsearches _ neighbor hneighbor ↦ ?_⟩
  obtain rfl : (⟨[], none, some 11⟩ : RetrievalFilters) = filters :=
    Option.some.inj hsearches.filters
  have hstored := (farStore.mem_of_mem_list
    (List.mem_filter.1 (List.mem_of_mem_take hneighbor)).1).1
  have hmem : neighbor ∈ [holidaysRow, officeRow, farRow] := hstored
  simp only [List.mem_cons, List.not_mem_nil, or_false] at hmem
  rcases hmem with rfl | rfl | rfl
  · exact ⟨hstored, indexedHandbook, rfl, by decide⟩
  · exact ⟨hstored, indexedHandbook, rfl, by decide⟩
  · exact ⟨hstored, indexedHandbook, rfl, by decide⟩

/-! ### A second index version -/

/-- A row of the document in a version that is not active. -/
def formerRow : StoredChunk := handbookRow 2 10 1 "The office opens at ten." []

/-- The store with it and the row of the active version. -/
def formerStore : RetrievalStore where
  documents := ⟨[indexedHandbook], injectedStore.documents.compat⟩
  chunks := [holidaysRow, formerRow]
  versions := (Option.get _ bootstrapped_isSome).versions
  ids_nodup := by decide
  places_apart := by decide

/-- **An answer leaves its scope**: the row beside the one that is found is of another version. -/
theorem answers_leave_scope : ∃ engine run,
    retrieveFrom formerStore engine emptyCache neighborConfig plainRequest = .ok run ∧
      ¬AnswerStaysInScope formerStore plainRequest run.outcome := by
  obtain ⟨plan, hsearches, hstrategy, hvector, htopK, -⟩ := @searches_plain
    formerStore ⟨[], none, some 11⟩ neighborConfig rfl rfl
  have hfound : Found formerStore neighborConfig plainRequest plan ⟨[], none, some 11⟩ holidaysRow :=
    found_plain List.mem_cons_self rfl rfl hstrategy hvector htopK
  obtain ⟨engine, run, hrun, -, hneighbors⟩ := shows_found hsearches hfound (by omega)
  have hbeside : Beside formerStore neighborConfig plainRequest holidaysRow = [formerRow] := rfl
  refine ⟨engine, run, hrun, fun hanswer ↦ ?_⟩
  obtain ⟨filters, hfilters, hstays⟩ :=
    hanswer _ (hneighbors rfl formerRow (by rw [hbeside, htopK]; exact List.mem_cons_self))
  obtain rfl : (⟨[], none, some 11⟩ : RetrievalFilters) = filters := Option.some.inj hfilters
  obtain ⟨⟨-, document, hdocument, hscope⟩, -⟩ :=
    @RetrievalStore.StaysIn.maySay _ _ formerRow _ hstays (List.mem_cons_of_mem _ List.mem_cons_self) rfl
  obtain rfl : indexedHandbook = document := Option.some.inj hdocument
  exact absurd hscope (by decide)

end GenericApp
