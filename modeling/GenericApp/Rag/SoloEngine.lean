import GenericApp.Rag.RetrievalOrigins

/-!
# Engines that find one row

For each row that a call may find there is an engine with which it finds that row and no other. A single
chunk passes through reranking and all strategies, so the answer is the chunk, with the text that stands
for its parent, and what is listed beside it.

* `shows_found`: the call shows the row, and the first rows beside it.
-/

namespace GenericApp

open Py

/-! ### Engines that find one row -/

/-- The hits of one row, if the lane is the one that answers. -/
def soloHits (rowId : Uuid) (answers : Bool) (limit : ℤ) (rows : List SearchHit) :
    Option (List SearchHit) :=
  if limit < 0 then none
  else some (if answers then (rows.filter fun hit ↦ hit.row.id = rowId).take limit.toNat else [])

theorem soloHits_subperm (rowId : Uuid) (answers : Bool) (limit : ℤ) (rows hits : List SearchHit)
    (h : soloHits rowId answers limit rows = some hits) :
    hits.Subperm rows ∧ (hits.length : ℤ) ≤ limit := by
  rw [soloHits] at h
  split at h
  · exact nomatch h
  · next hlimit =>
    obtain rfl := Option.some.inj h
    split
    · refine ⟨((List.take_sublist _ _).trans List.filter_sublist).subperm, ?_⟩
      have hlength := List.length_take_le limit.toNat (rows.filter fun hit ↦ hit.row.id = rowId)
      omega
    · exact ⟨(List.nil_sublist rows).subperm, by simp only [List.length_nil]; omega⟩

/-- Everything works, and the one lane or the other finds a row of that id. -/
def soloEngine (threshold : ℚ) (rowId : Uuid) (onVector : Bool) : SearchEngine where
  catalogFails := false
  embedTexts _ _ := .ok [flatEmbedding]
  canIndexEmbedding embedding dimensions := decide ((embedding.length : ℤ) = dimensions)
  embeddingIsIndexable embedding := decide ((embedding.length : ℤ) = ragVectorDimensions)
  pgvectorUnready := none
  similarity _ _ := threshold
  nearest _ := soloHits rowId onVector
  textRank _ _ := 1
  textMatches _ := soloHits rowId !onVector
  listingFails := false
  documentOrder ids := ids
  sha256 text := text
  canIndexEmbedding_length := (openWorld []).canIndexEmbedding_length
  embeddingIsIndexable_length := (openWorld []).embeddingIsIndexable_length
  nearest_subperm _ := soloHits_subperm rowId onVector
  textMatches_subperm _ := soloHits_subperm rowId !onVector
  documentOrder_perm ids := List.Perm.refl ids

/-- An element is found alone by its key. -/
theorem filter_key_eq {α β : Type} [DecidableEq β] {key : α → β} :
    ∀ {xs : List α} {x : α}, (xs.map key).Nodup → x ∈ xs →
      (xs.filter fun y ↦ key y = key x) = [x] := by
  intro xs
  induction xs with
  | nil => exact fun _ h ↦ absurd h List.not_mem_nil
  | cons y ys ih =>
    intro x hnodup hmem
    rw [List.map_cons, List.nodup_cons] at hnodup
    rcases List.mem_cons.1 hmem with rfl | hmem
    · have hnone : (ys.filter fun z ↦ key z = key x) = [] :=
        List.filter_eq_nil_iff.2 fun z hz heq ↦
          hnodup.1 (of_decide_eq_true heq ▸ List.mem_map_of_mem hz)
      rw [List.filter_cons, if_pos (decide_eq_true rfl), hnone]
    · have hne : ¬decide (key y = key x) = true := fun heq ↦
        hnodup.1 (of_decide_eq_true heq ▸ List.mem_map_of_mem hmem)
      rw [List.filter_cons, if_neg hne, ih hnodup.2 hmem]

/-- Keys that a partial map keeps. -/
theorem map_filterMap_sublist {α β γ : Type} {f : α → Option β} {key : α → γ} {key' : β → γ}
    (h : ∀ x y, f x = some y → key' y = key x) :
    ∀ xs : List α, ((xs.filterMap f).map key').Sublist (xs.map key) := by
  intro xs
  induction xs with
  | nil => exact List.Sublist.refl []
  | cons x xs ih =>
    rw [List.map_cons, List.filterMap_cons]
    split
    · exact ih.cons _
    · next y hy =>
      rw [List.map_cons, h x y hy]
      exact ih.cons_cons _

section Solo

variable {store : RetrievalStore} {config : RetrievalConfig} {request : RetrievalRequest}
  {filters : RetrievalFilters} {plan : CandidatePlan} {ranker : Reranker} {row : StoredChunk}
  {document : RagDocument} {chunk : RetrievedChunk}

theorem ids_rowsInScope (scope : SearchScope) :
    ((store.rowsInScope scope).map fun pair ↦ pair.1.id).Sublist (store.chunks.map StoredChunk.id) := by
  refine map_filterMap_sublist (fun row pair h ↦ ?_) store.chunks
  obtain ⟨document, -, rfl⟩ := Option.map_eq_some_iff.1 h
  rfl

/-- The rows of the vector search have different ids. -/
theorem nodup_vectorCandidates (engine : SearchEngine) (threshold : ℚ) (scope : SearchScope)
    (embedding : Embedding) :
    ((vectorCandidates store engine threshold scope embedding).map fun hit ↦ hit.row.id).Nodup := by
  refine (store.ids_nodup.sublist (ids_rowsInScope _)).sublist
    (map_filterMap_sublist (fun pair hit h ↦ ?_) _)
  obtain ⟨stored, -, h⟩ := Option.bind_eq_some_iff.1 h
  dsimp only at h
  split at h
  · rw [← Option.some.inj h]
  · exact nomatch h

/-- And so have those of the full text search. -/
theorem nodup_lexicalCandidates (engine : SearchEngine) (scope : SearchScope) (query : String) :
    ((lexicalCandidates store engine scope query).map fun hit ↦ hit.row.id).Nodup := by
  rw [lexicalCandidates, List.map_map]
  exact store.ids_nodup.sublist (ids_rowsInScope _)

/-- The vector lane returns the row that it can find. -/
theorem vectorRows_solo (hscope : (row, document) ∈ store.rowsInScope (searchScope request filters))
    (hfinds : VectorFinds plan row) (threshold : ℚ) (embedding : Embedding) :
    vectorRows store (soloEngine threshold row.id true) threshold request filters embedding
      plan.vectorLimit = .ok [SearchHit.toChunk "vector" 0 ⟨row, document, threshold⟩] := by
  obtain ⟨hembedding, hlimit⟩ := hfinds
  have hnodup := @nodup_vectorCandidates store (soloEngine threshold row.id true) threshold
    (searchScope request filters) embedding
  have hmem : (⟨row, document, threshold⟩ : SearchHit) ∈ vectorCandidates store
      (soloEngine threshold row.id true) threshold (searchScope request filters) embedding := by
    obtain ⟨stored, hstored⟩ := Option.ne_none_iff_exists'.1 hembedding
    refine List.mem_filterMap.2 ⟨(row, document), hscope, Option.bind_eq_some_iff.2 ⟨stored, hstored, ?_⟩⟩
    exact if_pos (le_refl threshold)
  have hhits : (soloEngine threshold row.id true).nearest embedding plan.vectorLimit
      (vectorCandidates store (soloEngine threshold row.id true) threshold (searchScope request filters)
        embedding) = some [⟨row, document, threshold⟩] := by
    have hfilter := filter_key_eq hnodup hmem
    show soloHits row.id true plan.vectorLimit _ = _
    rw [soloHits, if_neg (by omega), if_pos rfl, hfilter,
      List.take_of_length_le (by simp only [List.length_singleton]; omega)]
  rw [vectorRows, hhits]
  rfl

/-- Where the other lane answers, the vector lane returns nothing. -/
theorem vectorRows_silent (hlimit : 0 ≤ plan.vectorLimit) (threshold : ℚ) (embedding : Embedding) :
    vectorRows store (soloEngine threshold row.id false) threshold request filters embedding
      plan.vectorLimit = .ok [] := by
  have hhits : ∀ rows, (soloEngine threshold row.id false).nearest embedding plan.vectorLimit rows =
      some [] := by
    intro rows
    show soloHits row.id false plan.vectorLimit rows = _
    rw [soloHits, if_neg (by omega)]
    rfl
  rw [vectorRows, hhits]
  rfl

/-- The lexical lane returns the row. -/
theorem lexicalRows_solo (hscope : (row, document) ∈ store.rowsInScope (searchScope request filters))
    (hfinds : LexicalFinds plan request) (threshold : ℚ) :
    lexicalRows store (soloEngine threshold row.id false) request filters plan.lexicalLimit =
      [SearchHit.toChunk "lexical" 1 ⟨row, document, 1⟩] := by
  obtain ⟨hquery, hlimit⟩ := hfinds
  have hnodup := @nodup_lexicalCandidates store (soloEngine threshold row.id false)
    (searchScope request filters) (strip request.query)
  have hmem : (⟨row, document, 1⟩ : SearchHit) ∈ lexicalCandidates store
      (soloEngine threshold row.id false) (searchScope request filters) (strip request.query) :=
    List.mem_map.2 ⟨(row, document), hscope, rfl⟩
  have hhits : (soloEngine threshold row.id false).textMatches (strip request.query) plan.lexicalLimit
      (lexicalCandidates store (soloEngine threshold row.id false) (searchScope request filters)
        (strip request.query)) = some [⟨row, document, 1⟩] := by
    have hfilter := filter_key_eq hnodup hmem
    show soloHits row.id true plan.lexicalLimit _ = _
    rw [soloHits, if_neg (by omega), if_pos rfl, hfilter,
      List.take_of_length_le (by simp only [List.length_singleton]; omega)]
  rw [lexicalRows, if_neg (by rw [not_or]; exact ⟨hquery, by omega⟩), hhits]
  rfl

/-- Where the other lane answers, the lexical lane returns nothing. -/
theorem lexicalRows_silent (threshold : ℚ) (limit : ℤ) :
    lexicalRows store (soloEngine threshold row.id true) request filters limit = [] := by
  rw [lexicalRows]
  split
  · rfl
  · next hgiven =>
    rw [not_or] at hgiven
    have hhits : ∀ rows, (soloEngine threshold row.id true).textMatches (strip request.query) limit
        rows = some [] := by
      intro rows
      show soloHits row.id false limit rows = _
      rw [soloHits, if_neg (by omega)]
      rfl
    rw [hhits]
    rfl

/-- A vector search with an embedding for the column, where nothing fails. -/
theorem similaritySearch_solo (rowId : Uuid) (onVector : Bool) (topK : ℤ) :
    similaritySearch (storeWorld store (soloEngine config.scoreThreshold rowId onVector) emptyCache
      config ranker) request filters (some flatEmbedding) topK =
      vectorRows store (soloEngine config.scoreThreshold rowId onVector) config.scoreThreshold request
        filters flatEmbedding topK := by
  have hfits : (soloEngine config.scoreThreshold rowId onVector).embeddingIsIndexable flatEmbedding =
      true := decide_eq_true length_flatEmbedding
  exact if_pos hfits

/-- The lane that answers can return the row, and the other one does not fail. -/
def LaneAnswers (plan : CandidatePlan) (request : RetrievalRequest) (row : StoredChunk) : Bool → Prop
  | true => plan.strategy ≠ .lexical ∧ VectorFinds plan row
  | false => plan.strategy ≠ .vector ∧ (plan.strategy = .hybridRrf → 0 ≤ plan.vectorLimit) ∧
      LexicalFinds plan request

theorem exists_laneAnswers (hlanes : LanesFind plan request row) :
    ∃ onVector, LaneAnswers plan request row onVector := by
  rw [LanesFind] at hlanes
  split at hlanes
  · next h => exact ⟨true, by rw [h]; decide, hlanes⟩
  · next h => exact ⟨false, by rw [h]; decide, (fun hhybrid ↦ by cases h.symm.trans hhybrid), hlanes⟩
  · next h =>
    rcases hlanes with ⟨hlimit, hlanes | hlanes⟩
    · exact ⟨true, by rw [h]; decide, hlanes⟩
    · exact ⟨false, by rw [h]; decide, (fun _ ↦ hlimit), hlanes⟩

/-- **A row that a call can find is found alone.** -/
theorem retrieveCandidates_solo {onVector : Bool}
    (hscope : (row, document) ∈ store.rowsInScope (searchScope request filters))
    (hlane : LaneAnswers plan request row onVector)
    (hfuse : max (max plan.vectorLimit plan.lexicalLimit) plan.finalTopK = plan.fuseLimit) :
    ∃ chunk, ShowsRow row chunk ∧
      ∀ embedding, (plan.strategy ≠ .lexical → embedding = some flatEmbedding) →
        retrieveCandidates (storeWorld store (soloEngine config.scoreThreshold row.id onVector) emptyCache
          config ranker) plan request filters embedding = .ok [chunk] := by
  cases onVector with
  | true =>
    obtain ⟨hstrategy, hfinds⟩ := hlane
    have hrows := vectorRows_solo hscope hfinds config.scoreThreshold flatEmbedding
    refine ⟨_, ShowsRow.toChunk "vector" 0 ⟨row, document, config.scoreThreshold⟩, ?_⟩
    intro embedding hembedding
    rw [hembedding hstrategy, retrieveCandidates]
    split
    · rw [similaritySearch_solo, hrows]
    · next h => exact absurd h hstrategy
    · rw [similaritySearch_solo, hrows]
      show (if (lexicalRows store _ request filters plan.lexicalLimit).isEmpty then _ else _) = _
      rw [lexicalRows_silent]
      have hlimit := hfinds.2
      show Except.ok (takeTo plan.fuseLimit [_]) = _
      rw [takeTo_singleton (by omega)]
  | false =>
    obtain ⟨hstrategy, hnonneg, hfinds⟩ := hlane
    have hrows := lexicalRows_solo hscope hfinds config.scoreThreshold
    have hshows := ShowsRow.toChunk "lexical" 1 ⟨row, document, 1⟩
    have hlimit := hfinds.2
    by_cases hhybrid : plan.strategy = .hybridRrf
    · obtain ⟨score, hfused⟩ := reciprocalRankFuse_singleton plan.rrfK
        (show 1 ≤ plan.fuseLimit by omega) (SearchHit.toChunk "lexical" 1 ⟨row, document, 1⟩)
      refine ⟨_, hshows.fused score, fun embedding hembedding ↦ ?_⟩
      rw [hembedding (by rw [hhybrid]; decide), retrieveCandidates, hhybrid, similaritySearch_solo,
        vectorRows_silent (hnonneg hhybrid)]
      show (if (lexicalRows store _ request filters plan.lexicalLimit).isEmpty then _ else
        Except.ok (reciprocalRankFuse [[], lexicalRows store _ request filters plan.lexicalLimit] _ _)) = _
      rw [hrows, hfused]
      rfl
    · refine ⟨_, hshows, fun embedding _ ↦ ?_⟩
      rw [retrieveCandidates]
      split
      · next h => exact absurd h hstrategy
      · exact congrArg Except.ok hrows
      · next h => exact absurd h hhybrid

/-! ### The answer -/

theorem finalTopK_of_searches (hsearches : Searches store config request ranker plan filters) :
    plan.finalTopK = request.resolvedTopK config.toRagConfig := by
  obtain ⟨strategy, -, rfl⟩ := eq_ok_of_map hsearches.plan
  rfl

/-- Where a row can be shown, and `top_k` is not negative, there is room for it. -/
theorem Found.one_le_topK (hfound : Found store config request plan filters row)
    (hsearches : Searches store config request ranker plan filters)
    (htopK : 0 ≤ request.resolvedTopK config.toRagConfig) : 1 ≤ plan.finalTopK := by
  have hplan := finalTopK_of_searches hsearches
  have hroom := hfound.room
  omega

/-- A window of nothing holds nothing. -/
theorem beside_eq_nil (h : ¬(qualityOptionsFromConfig config).neighborWindow > 0) :
    Beside store config request row = [] := by
  refine List.filter_eq_nil_iff.2 fun neighbor _ hbeside ↦ ?_
  obtain ⟨hne, hle, hge⟩ := of_decide_eq_true (Bool.and_eq_true_iff.1 hbeside).2
  omega

/-- Beside a single chunk stand the rows that are listed beside its row. -/
theorem neighborRows_singleton {engine : SearchEngine} (horder : ∀ ids, engine.documentOrder ids = ids)
    (hprimary : PrimaryOf row chunk) :
    neighborRows store engine request (qualityOptionsFromConfig config).neighborWindow [chunk] =
      Beside store config request row := by
  obtain ⟨-, hdocument, hindex⟩ := hprimary
  rw [neighborRows, horder, List.map_singleton, List.dedup_eq_self.2 (List.nodup_singleton _),
    List.flatMap_singleton, hdocument, Beside]
  refine List.filter_congr fun neighbor hneighbor ↦ ?_
  have hsame : decide (chunk.documentId = neighbor.documentId) = true :=
    decide_eq_true (hdocument.trans (store.mem_of_mem_list hneighbor).2.symm)
  rw [List.any_cons, List.any_nil, Bool.or_false, hsame, Bool.true_and, hindex]

/-- All of them are new. -/
theorem newStored_singleton (hstored : row ∈ store.chunks) (hprimary : PrimaryOf row chunk) :
    newStored [chunk] (Beside store config request row) = Beside store config request row := by
  refine List.filter_eq_self.2 fun neighbor hneighbor ↦ ?_
  obtain ⟨hlist, hbeside⟩ := List.mem_filter.1 hneighbor
  rw [List.any_cons, List.any_nil, Bool.or_false, hprimary.1, Bool.not_eq_true']
  refine decide_eq_false fun heq ↦ ?_
  obtain rfl := store.eq_of_id_eq hstored (store.mem_of_mem_list hlist).1 heq
  exact (of_decide_eq_true (Bool.and_eq_true_iff.1 hbeside).2).1 rfl

/-- The neighbours of a single chunk. -/
theorem withNeighbors_singleton {engine : SearchEngine} (horder : ∀ ids, engine.documentOrder ids = ids)
    (hlists : engine.listingFails = false) (hstored : row ∈ store.chunks)
    (hprimary : PrimaryOf row chunk) (htopK : 1 ≤ plan.finalTopK) :
    withNeighbors store engine (qualityOptionsFromConfig config) plan request [chunk] =
      .ok (chunk :: if config.neighborExpansionEnabled then
        ((Beside store config request row).take (plan.finalTopK - 1).toNat).map fun neighbor ↦
          asNeighbor neighbor.toNeighbor
      else []) := by
  rw [withNeighbors]
  split
  · next hexpand =>
    have hon : config.neighborExpansionEnabled = true := hexpand.1
    have hmerge := @mergeNeighborChunks_eq plan.finalTopK (by omega) [chunk] _
      (@nodup_neighbors store engine request
        (qualityOptionsFromConfig config).neighborWindow [chunk])
    rw [newNeighbors_map, neighborRows_singleton horder hprimary, newStored_singleton hstored hprimary]
      at hmerge
    rw [expandNeighbors, if_neg (by rw [not_or]; exact ⟨List.cons_ne_nil _ _, by omega⟩), hlists,
      neighborRows_singleton horder hprimary]
    simp only [Bool.false_eq_true, if_false, hmerge, hon, if_true]
    obtain ⟨room, hroom, hrest⟩ : ∃ room, plan.finalTopK.toNat = room + 1 ∧
        (plan.finalTopK - 1).toNat = room := ⟨(plan.finalTopK - 1).toNat, by omega, rfl⟩
    rw [hroom, hrest, List.singleton_append, List.take_succ_cons, List.map_map, List.map_take]
    rfl
  · next hexpand =>
    rw [not_and] at hexpand
    split
    · next hon =>
      rw [beside_eq_nil (hexpand hon), List.take_nil]
      rfl
    · rfl

/-- The pool of a single chunk. -/
theorem candidatePool_singleton (htopK : 1 ≤ plan.finalTopK) (chunk : RetrievedChunk) :
    candidatePool plan [chunk] = [chunk] := by
  have hdedup : deduplicateChunks [chunk] = [chunk] :=
    deduplicateChunks_of_nodup (List.nodup_singleton _)
  rw [candidatePool, hdedup]
  split
  · rfl
  · exact takeTo_singleton (by omega) chunk

/-- A single chunk with the text that stands for its parent. -/
theorem expanded_singleton (hshows : ShowsRow row chunk) :
    let shown := if config.parentChildRetrievalEnabled then
      expandChunk (parentTexts store [chunk]) chunk else chunk
    PrimaryOf row shown ∧ shown.content = shownText store config row := by
  dsimp only
  rw [shownText]
  split
  · refine ⟨?_, ?_⟩
    · rw [PrimaryOf, expandChunk_chunkId, expandChunk_documentId, expandChunk_chunkIndex]
      exact PrimaryOf.of_shows hshows
    · rw [expandChunk_content, hshows.content, parentText, parentTextOf, hshows.legacyParent,
        hshows.parentIndex, hshows.document]
      congr 2
      -- The parent of a chunk is there if the chunk wants it.
      rw [wantedParent]
      cases hindex : parentIndex row.metadata with
      | none =>
        split
        · rfl
        · rfl
      | some index =>
        have hany : ([chunk].any fun c ↦ c.documentId = row.documentId ∧
            wantedParent c.metadata = some index) = decide (wantedParent row.metadata = some index) := by
          rw [List.any_cons, List.any_nil, Bool.or_false, hshows.wantedParent, hshows.document]
          simp only [true_and]
        rw [Option.bind_some, parentTexts, hany, wantedParent, hindex]
        split
        · rfl
        · rw [decide_eq_true rfl, if_pos rfl, Option.bind_some]
  · exact ⟨PrimaryOf.of_shows hshows, hshows.content⟩

/-- What becomes of a single chunk. -/
theorem refineChunks_singleton {engine : SearchEngine} (horder : ∀ ids, engine.documentOrder ids = ids)
    (hlists : engine.listingFails = false) (hstored : row ∈ store.chunks) (hshows : ShowsRow row chunk)
    (htopK : 1 ≤ plan.finalTopK) :
    refineChunks store engine config ranker plan request [chunk] =
      .ok ((if config.parentChildRetrievalEnabled then expandChunk (parentTexts store [chunk]) chunk
        else chunk) :: if config.neighborExpansionEnabled then
          ((Beside store config request row).take (plan.finalTopK - 1).toNat).map fun neighbor ↦
            asNeighbor neighbor.toNeighbor
        else []) := by
  have hranked : rankedChunks ranker plan request [chunk] = [chunk] := by
    rw [rankedChunks]
    split
    · rw [ranker.rerank_singleton, takeTo_singleton (by omega)]
    · rfl
  have hexpand : (qualityOptionsFromConfig config).parentChildExpand =
      config.parentChildRetrievalEnabled := rfl
  have hprimary := (@expanded_singleton store config _ _ hshows).1
  have hloaded : ∃ parents, loadedParents store engine (qualityOptionsFromConfig config) [chunk] =
      .ok parents ∧ (config.parentChildRetrievalEnabled = true →
        parents = parentTexts store [chunk]) := by
    rw [loadedParents, hexpand, loadParentTexts, hlists]
    split
    · exact ⟨_, rfl, fun _ ↦ rfl⟩
    · next hoff => exact ⟨_, rfl, fun hon ↦ absurd hon hoff⟩
  obtain ⟨parents, hload, hparents⟩ := hloaded
  have hshown : (if config.parentChildRetrievalEnabled then expandChunk parents chunk else chunk) =
      if config.parentChildRetrievalEnabled then expandChunk (parentTexts store [chunk]) chunk
      else chunk := by
    split
    · next hon => rw [hparents hon]
    · rfl
  rw [refineChunks, hranked, hload]
  show withNeighbors store engine _ plan request _ = _
  rw [applyQualityStrategies_singleton _ _ htopK, hexpand, hshown,
    withNeighbors_singleton horder hlists hstored hprimary htopK]

/-- **A row that a call can find is all that it finds** with that engine. -/
theorem finds_solo {onVector : Bool} (hsearches : Searches store config request ranker plan filters)
    (hscope : store.InScope (searchScope request filters) row)
    (hfits : plan.needsEmbedding = true → config.embeddingDimensions = ragVectorDimensions)
    (hlane : LaneAnswers plan request row onVector) :
    ∃ chunk, ShowsRow row chunk ∧
      SearchFinds (storeWorld store (soloEngine config.scoreThreshold row.id onVector) emptyCache config
        ranker) config.toRagConfig plan request filters [chunk] := by
  obtain ⟨hstored, document, hdocument, hscope⟩ := hscope
  obtain ⟨hfuse, hneeds, -⟩ := hsearches.planned
  obtain ⟨chunk, hshows, hcandidates⟩ := @retrieveCandidates_solo _ config _ _ _ ranker _ _ _
    (store.mem_rowsInScope.2 ⟨hstored, hdocument, hscope⟩) hlane hfuse.symm
  refine ⟨chunk, hshows, ?_⟩
  by_cases hembeds : plan.needsEmbedding = true
  · refine ⟨some flatEmbedding, ⟨hembeds, ⟨[], rfl⟩, ?_⟩, hcandidates _ fun _ ↦ rfl⟩
    rw [hfits hembeds]
    exact decide_eq_true length_flatEmbedding
  · refine ⟨none, Bool.eq_false_iff.2 hembeds, hcandidates none fun hstrategy ↦ absurd ?_ hembeds⟩
    rw [hneeds, decide_eq_true hstrategy]

/-- **The answer of a call that finds one row**: the row, with the text that stands for its parent, and
the first rows beside it. -/
theorem retrieveFrom_solo {onVector : Bool}
    (hsearches : Searches store config request ranker plan filters)
    (hfound : Found store config request plan filters row)
    (hlane : LaneAnswers plan request row onVector) (htopK : 1 ≤ plan.finalTopK) :
    ∃ chunk shown run, PrimaryOf row shown ∧ shown.content = shownText store config row ∧
      retrieveFrom store (soloEngine config.scoreThreshold row.id onVector) emptyCache config request =
        .ok run ∧
      run.outcome = searchedOutcome [chunk] (shown :: if config.neighborExpansionEnabled then
        ((Beside store config request row).take (plan.finalTopK - 1).toNat).map fun neighbor ↦
          asNeighbor neighbor.toNeighbor
        else []) ∧
      (excludeInjectionFlaggedChunks [chunk]).2 = 0 := by
  obtain ⟨chunk, hshows, hfinds⟩ := finds_solo hsearches hfound.scope hfound.fits hlane
  set engine := soloEngine config.scoreThreshold row.id onVector
  have hrefine := @refineChunks_singleton store config request
    _ ranker _ _ engine (fun _ ↦ rfl) rfl hfound.scope.1 hshows htopK
  obtain ⟨hprimary, hcontent⟩ := @expanded_singleton store config _ _ hshows
  set shown := if config.parentChildRetrievalEnabled then
    expandChunk (parentTexts store [chunk]) chunk else chunk
  have hunflagged : excludeInjectionFlaggedChunks [chunk] = ([chunk], 0) := by
    have hflag : (Dict.get chunk.metadata "prompt_injection_suspected").truthy = false :=
      hshows.flagged.trans hfound.unflagged
    have hfilter : [chunk].filter (fun c ↦ !(Dict.get c.metadata "prompt_injection_suspected").truthy) =
        [chunk] := List.filter_eq_self.2 fun c hc ↦ by rw [List.mem_singleton.1 hc, hflag]; rfl
    rw [excludeInjectionFlaggedChunks, hfilter]
    rfl
  obtain ⟨run, hrun, houtcome⟩ := retrieveFrom_of_searches engine emptyCache hsearches
  refine ⟨chunk, shown, run, hprimary, hcontent, hrun, ?_, congrArg Prod.snd hunflagged⟩
  have hcomputed : run.outcome = computedOutcome (storeWorld store engine emptyCache config ranker)
      config.toRagConfig plan request filters := houtcome
  have hfinish : finishRetrieval (storeWorld store engine emptyCache config ranker) config.toRagConfig plan
      request filters [chunk] = .ok (searchedOutcome [chunk]
        (shown :: if config.neighborExpansionEnabled then
          ((Beside store config request row).take (plan.finalTopK - 1).toNat).map fun neighbor ↦
            asNeighbor neighbor.toNeighbor
        else [])) := by
    rw [finishRetrieval_eq, candidatePool_singleton htopK, hunflagged]
    show (refineChunks store engine config ranker plan request [chunk]).bind _ = _
    rw [hrefine]
    rfl
  rw [hcomputed, computedOutcome_of_finds hfinds, hfinish]

/-- **A call shows the row that it can find**, with the text that stands for its parent, and the first
rows beside it. -/
theorem shows_found (hsearches : Searches store config request ranker plan filters)
    (hfound : Found store config request plan filters row) (htopK : 1 ≤ plan.finalTopK) :
    ∃ engine run, retrieveFrom store engine emptyCache config request = .ok run ∧
      (∃ chunk ∈ run.outcome.chunks, PrimaryOf row chunk ∧
        chunk.content = shownText store config row) ∧
      (config.neighborExpansionEnabled = true →
        ∀ neighbor ∈ (Beside store config request row).take (plan.finalTopK - 1).toNat,
          asNeighbor neighbor.toNeighbor ∈ run.outcome.chunks) := by
  obtain ⟨onVector, hlane⟩ := exists_laneAnswers hfound.lanes
  obtain ⟨chunk, shown, run, hprimary, hcontent, hrun, houtcome, -⟩ :=
    retrieveFrom_solo hsearches hfound hlane htopK
  refine ⟨_, run, hrun, ?_, ?_⟩
  · rw [houtcome]
    exact ⟨shown, List.mem_cons_self, hprimary, hcontent⟩
  · intro hon neighbor hneighbor
    rw [houtcome]
    refine List.mem_cons_of_mem _ ?_
    rw [if_pos hon]
    exact List.mem_map_of_mem hneighbor

end Solo

end GenericApp
