import GenericApp.Rag.QueryAgreement
import GenericApp.Rag.RetrievalStore
import Mathlib.Data.List.Dedup

/-!
# Where the texts of an answer come from

Which rows a call may show, said of the store, the configuration and the request alone. A call that gets
as far as a search (`Searches`) may find any row of its scope that its lanes can return and that is not
flagged (`Found`). Of a row that is found it shows the content or the text that stands for its parent,
and with it the first rows that are listed beside it (`Beside`).

* `retrieveFrom_sound`: whatever the engine does, a chunk of an answer that is not in the cache comes from
  there (`Origin`).

That no row is named in vain is shown in `SoloEngine`.
-/

namespace GenericApp

open Py

/-! ### Found rows -/

/-- The filters a call searches with, if it comes to a search. -/
def RetrievalStore.callFilters (store : RetrievalStore) (request : RetrievalRequest) :
    Option RetrievalFilters :=
  let asked := request.filters.documentIds
  let valid := store.filterDocumentIdsForUser request asked.eraseDups
  let filters := if asked.isEmpty then some request.filters
    else if valid.isEmpty then none
    else some { request.filters with documentIds := valid }
  filters.bind fun filters ↦ (getActiveVersion store.versions).map fun active ↦
    { filters with indexVersionId := some active.id }

/-- The call gets as far as a search, unless the database or the cache keeps it from that. -/
structure Searches (store : RetrievalStore) (config : RetrievalConfig) (request : RetrievalRequest)
    (ranker : Reranker) (plan : CandidatePlan) (filters : RetrievalFilters) : Prop where
  ranker : buildReranker config.rerankEnabled config.rerankerBackend = .ok ranker
  enabled : config.enabled = true
  plan : resolveCandidatePlan config.toRagConfig (request.resolvedTopK config.toRagConfig)
    request.strategy = .ok plan
  filters : store.callFilters request = some filters

/-- The vector lane can return the row. -/
def VectorFinds (plan : CandidatePlan) (row : StoredChunk) : Prop :=
  row.embedding ≠ none ∧ 1 ≤ plan.vectorLimit

/-- The lexical lane can return a row. -/
def LexicalFinds (plan : CandidatePlan) (request : RetrievalRequest) : Prop :=
  strip request.query ≠ "" ∧ 1 ≤ plan.lexicalLimit

/-- The lanes of the plan can return the row. -/
def LanesFind (plan : CandidatePlan) (request : RetrievalRequest) (row : StoredChunk) : Prop :=
  match plan.strategy with
  | .vector => VectorFinds plan row
  | .lexical => LexicalFinds plan request
  | .hybridRrf => 0 ≤ plan.vectorLimit ∧ (VectorFinds plan row ∨ LexicalFinds plan request)

/-- A row of the store that is in the scope. -/
def RetrievalStore.InScope (store : RetrievalStore) (scope : SearchScope) (row : StoredChunk) : Prop :=
  row ∈ store.chunks ∧ ∃ document ∈ store.document row.documentId, row.inScope scope document = true

/-- The call can find the row and show it. -/
structure Found (store : RetrievalStore) (config : RetrievalConfig) (request : RetrievalRequest)
    (plan : CandidatePlan) (filters : RetrievalFilters) (row : StoredChunk) : Prop where
  scope : store.InScope (searchScope request filters) row
  lanes : LanesFind plan request row
  fits : plan.needsEmbedding = true → config.embeddingDimensions = ragVectorDimensions
  unflagged : flagged row.metadata = false
  room : plan.finalTopK ≠ 0

/-- The rows that are listed beside a row and that the user may see. -/
def Beside (store : RetrievalStore) (config : RetrievalConfig) (request : RetrievalRequest)
    (row : StoredChunk) : List StoredChunk :=
  (store.listChunksForDocument row.documentId).filter fun neighbor ↦ visibleTo request neighbor &&
    besides (qualityOptionsFromConfig config).neighborWindow row.chunkIndex neighbor

/-- The text that stands for the parent of a row, if the row is found alone. -/
def parentTextOf (store : RetrievalStore) (row : StoredChunk) : Option String :=
  (legacyParent row.metadata).or ((wantedParent row.metadata).bind fun index ↦
    ((parentRow store row.documentId index).map StoredChunk.content).filter nonblank)

/-- The text of a row that is found alone. -/
def shownText (store : RetrievalStore) (config : RetrievalConfig) (row : StoredChunk) : String :=
  if config.parentChildRetrievalEnabled then (parentTextOf store row).getD row.content
  else row.content

/-! ### Chunks of rows -/

/-- The chunk has been made of the row: the columns are those of the row, and so are the metadata, except
for what the lanes and the fusion write. -/
structure ShowsRow (row : StoredChunk) (chunk : RetrievedChunk) : Prop where
  id : chunk.chunkId = row.id
  document : chunk.documentId = row.documentId
  index : chunk.chunkIndex = row.chunkIndex
  content : chunk.content = row.content
  get : ∀ key, key ∉ ["lexical_score", "retrieval_lane", "rrf_score"] →
    Dict.get chunk.metadata key = Dict.get row.metadata key

namespace ShowsRow

variable {row : StoredChunk} {chunk : RetrievedChunk}

theorem toChunk (lane : String) (score : ℚ) (hit : SearchHit) : ShowsRow hit.row (hit.toChunk lane score) where
  id := rfl
  document := rfl
  index := rfl
  content := rfl
  get key hkey := by
    simp only [List.mem_cons, List.not_mem_nil, or_false, not_or] at hkey
    rw [SearchHit.toChunk, Dict.get_put_of_ne hkey.2.1, Dict.get_put_of_ne hkey.1]

theorem fused (h : ShowsRow row chunk) (score : ℚ) : ShowsRow row (chunk.fused score) where
  id := h.id
  document := h.document
  index := h.index
  content := h.content
  get key hkey := by
    have hne : key ≠ "rrf_score" := fun heq ↦ hkey (by rw [heq]; decide)
    rw [RetrievedChunk.fused, Dict.get_put_of_ne hne]
    exact h.get key hkey

theorem flagged (h : ShowsRow row chunk) : flagged chunk.metadata = flagged row.metadata := by
  rw [GenericApp.flagged, h.get _ (by decide), GenericApp.flagged]

theorem legacyParent (h : ShowsRow row chunk) :
    legacyParent chunk.metadata = legacyParent row.metadata := by
  rw [GenericApp.legacyParent, h.get _ (by decide), GenericApp.legacyParent]

theorem parentIndex (h : ShowsRow row chunk) : parentIndex chunk.metadata = parentIndex row.metadata := by
  rw [GenericApp.parentIndex, h.get _ (by decide), GenericApp.parentIndex]

theorem wantedParent (h : ShowsRow row chunk) :
    wantedParent chunk.metadata = wantedParent row.metadata := by
  rw [GenericApp.wantedParent, GenericApp.wantedParent, h.get _ (by decide), h.parentIndex]

end ShowsRow

/-! ### The lanes -/

section Lanes

variable {store : RetrievalStore} {engine : SearchEngine} {cache : RetrievalCache}
  {config : RetrievalConfig} {request : RetrievalRequest} {filters : RetrievalFilters}
  {plan : CandidatePlan} {ranker : Reranker} {chunk : RetrievedChunk} {chunks : List RetrievedChunk}

theorem RetrievalStore.inScope_of_mem {scope : SearchScope} {row : StoredChunk} {document : RagDocument}
    (h : (row, document) ∈ store.rowsInScope scope) : store.InScope scope row := by
  obtain ⟨hmem, hdocument, hscope⟩ := store.mem_rowsInScope.1 h
  exact ⟨hmem, document, hdocument, hscope⟩

theorem mem_vectorCandidates {threshold : ℚ} {scope : SearchScope} {embedding : Embedding}
    {hit : SearchHit} (h : hit ∈ vectorCandidates store engine threshold scope embedding) :
    store.InScope scope hit.row ∧ hit.row.embedding ≠ none := by
  obtain ⟨⟨row, document⟩, hmem, hhit⟩ := List.mem_filterMap.1 h
  obtain ⟨stored, hstored, hhit⟩ := Option.bind_eq_some_iff.1 hhit
  dsimp only at hstored hhit
  split at hhit
  · obtain rfl := Option.some.inj hhit
    exact ⟨RetrievalStore.inScope_of_mem hmem, by rw [hstored]; exact Option.some_ne_none stored⟩
  · exact nomatch hhit

/-- What the vector search returns. -/
theorem vectorRows_sound {threshold : ℚ} {embedding : Embedding} {topK : ℤ}
    (h : vectorRows store engine threshold request filters embedding topK = .ok chunks) :
    0 ≤ topK ∧ ∀ c ∈ chunks, ∃ row, store.InScope (searchScope request filters) row ∧
      (row.embedding ≠ none ∧ 1 ≤ topK) ∧ ShowsRow row c := by
  rw [vectorRows] at h
  split at h
  · exact nomatch h
  · next hits hhits =>
    obtain rfl := Except.ok.inj h
    obtain ⟨hsub, hlength⟩ := engine.nearest_subperm _ _ _ _ hhits
    refine ⟨by omega, fun c hc ↦ ?_⟩
    obtain ⟨hit, hmem, rfl⟩ := List.mem_map.1 hc
    obtain ⟨hscope, hembedding⟩ := mem_vectorCandidates (hsub.subset hmem)
    have hpos := List.length_pos_of_mem hmem
    exact ⟨hit.row, hscope, ⟨hembedding, by omega⟩, ShowsRow.toChunk "vector" 0 hit⟩

/-- What the full text search returns. -/
theorem lexicalRows_sound {limit : ℤ} (h : chunk ∈ lexicalRows store engine request filters limit) :
    ∃ row, store.InScope (searchScope request filters) row ∧
      (strip request.query ≠ "" ∧ 1 ≤ limit) ∧ ShowsRow row chunk := by
  rw [lexicalRows] at h
  split at h
  · exact absurd h List.not_mem_nil
  · next hgiven =>
    rw [not_or] at hgiven
    split at h
    · exact absurd h List.not_mem_nil
    · next hits hhits =>
      obtain ⟨hsub, -⟩ := engine.textMatches_subperm _ _ _ _ hhits
      obtain ⟨hit, hmem, rfl⟩ := List.mem_map.1 h
      obtain ⟨⟨row, document⟩, hrow, rfl⟩ := List.mem_map.1 (hsub.subset hmem)
      exact ⟨row, RetrievalStore.inScope_of_mem hrow, ⟨hgiven.1, by omega⟩,
        ShowsRow.toChunk "lexical" _ ⟨row, document, engine.textRank (strip request.query) row⟩⟩

/-- A vector search that answers was given an embedding that the column takes. -/
theorem similaritySearch_ok {embedding : Option Embedding} {topK : ℤ}
    (h : similaritySearch (storeWorld store engine cache config ranker) request filters embedding topK =
      .ok chunks) :
    ∃ vector, embedding = some vector ∧ (vector.length : ℤ) = ragVectorDimensions ∧
      vectorRows store engine config.scoreThreshold request filters vector topK = .ok chunks := by
  rcases embedding with - | vector
  · cases h
  · rw [similaritySearch] at h
    split at h
    · cases h
    · split at h
      · next hfits => exact ⟨vector, rfl, engine.embeddingIsIndexable_length vector hfits, h⟩
      · cases h

/-- **What the lanes return.** -/
theorem retrieveCandidates_sound {embedding : Option Embedding}
    (h : retrieveCandidates (storeWorld store engine cache config ranker) plan request filters
      embedding = .ok chunks) :
    (plan.strategy ≠ .lexical →
      ∃ vector, embedding = some vector ∧ (vector.length : ℤ) = ragVectorDimensions) ∧
    ∀ c ∈ chunks, ∃ row, store.InScope (searchScope request filters) row ∧
      LanesFind plan request row ∧ ShowsRow row c := by
  rw [retrieveCandidates] at h
  split at h
  · next hstrategy =>
    obtain ⟨vector, hvector, hlength, hrows⟩ := similaritySearch_ok h
    refine ⟨fun _ ↦ ⟨vector, hvector, hlength⟩, fun c hc ↦ ?_⟩
    obtain ⟨row, hscope, hfinds, hshows⟩ := (vectorRows_sound hrows).2 c hc
    exact ⟨row, hscope, by rw [LanesFind, hstrategy]; exact hfinds, hshows⟩
  · next hstrategy =>
    refine ⟨fun hne ↦ absurd hstrategy hne, fun c hc ↦ ?_⟩
    obtain rfl := Except.ok.inj h
    obtain ⟨row, hscope, hfinds, hshows⟩ := lexicalRows_sound hc
    exact ⟨row, hscope, by rw [LanesFind, hstrategy]; exact hfinds, hshows⟩
  · next hstrategy =>
    split at h
    · cases h
    · next vectorChunks hsearch =>
      obtain ⟨vector, hvector, hlength, hrows⟩ := similaritySearch_ok hsearch
      obtain ⟨hlimit, hvectors⟩ := vectorRows_sound hrows
      refine ⟨fun _ ↦ ⟨vector, hvector, hlength⟩, fun c hc ↦ ?_⟩
      have hfromVector : ∀ c ∈ vectorChunks, ∃ row,
          store.InScope (searchScope request filters) row ∧ LanesFind plan request row ∧
            ShowsRow row c := by
        intro c hc
        obtain ⟨row, hscope, hfinds, hshows⟩ := hvectors c hc
        exact ⟨row, hscope, by rw [LanesFind, hstrategy]; exact ⟨hlimit, Or.inl hfinds⟩, hshows⟩
      dsimp only [storeWorld] at h
      split at h
      · obtain rfl := Except.ok.inj h
        exact hfromVector c ((takeTo_sublist _ _).mem hc)
      · obtain rfl := Except.ok.inj h
        obtain ⟨lane, hlane, c', hc', score, rfl⟩ := mem_reciprocalRankFuse hc
        rcases List.mem_cons.1 hlane with rfl | hlane
        · obtain ⟨row, hscope, hfinds, hshows⟩ := hfromVector c' hc'
          exact ⟨row, hscope, hfinds, hshows.fused score⟩
        · obtain rfl := List.mem_singleton.1 hlane
          obtain ⟨row, hscope, hfinds, hshows⟩ := lexicalRows_sound hc'
          exact ⟨row, hscope, by rw [LanesFind, hstrategy]; exact ⟨hlimit, Or.inr hfinds⟩,
            hshows.fused score⟩

end Lanes

/-! ### Neighbours -/

/-- Which places of a list a prefix reaches. -/
theorem mem_take_append_cons {α : Type} {x : α} {xs ys : List α} {n : ℕ} (hx : x ∉ xs) :
    x ∈ (xs ++ x :: ys).take n ↔ xs.length < n := by
  constructor
  · intro h
    refine Nat.lt_of_not_le fun hle ↦ hx ?_
    rw [List.take_append_of_le_length hle] at h
    exact List.mem_of_mem_take h
  · intro h
    obtain ⟨m, hm⟩ : ∃ m, n - xs.length = m + 1 := ⟨n - xs.length - 1, by omega⟩
    rw [List.take_append, hm, List.take_succ_cons]
    exact List.mem_append_right _ List.mem_cons_self

section Neighbors

variable {store : RetrievalStore} {engine : SearchEngine} {config : RetrievalConfig}
  {request : RetrievalRequest} {filters : RetrievalFilters} {plan : CandidatePlan}
  {chunks : List RetrievedChunk}

/-- A chunk of a row that has been found, with its own text or another. -/
def PrimaryOf (row : StoredChunk) (chunk : RetrievedChunk) : Prop :=
  chunk.chunkId = row.id ∧ chunk.documentId = row.documentId ∧ chunk.chunkIndex = row.chunkIndex

theorem mem_neighborRows {window : ℤ} {row : StoredChunk} :
    row ∈ neighborRows store engine request window chunks ↔
      row ∈ store.listChunksForDocument row.documentId ∧ visibleTo request row = true ∧
        ∃ chunk ∈ chunks, chunk.documentId = row.documentId ∧
          besides window chunk.chunkIndex row = true := by
  simp only [neighborRows, List.mem_flatMap, (engine.documentOrder_perm _).mem_iff, List.mem_dedup,
    List.mem_filter, Bool.and_eq_true, List.any_eq_true, decide_eq_true_eq]
  constructor
  · rintro ⟨id, -, hlist, hvisible, chunk, hchunk, hdocument, hbesides⟩
    obtain rfl := (store.mem_of_mem_list hlist).2
    exact ⟨hlist, hvisible, chunk, hchunk, hdocument, hbesides⟩
  · rintro ⟨hlist, hvisible, chunk, hchunk, hdocument, hbesides⟩
    exact ⟨row.documentId, List.mem_map.2 ⟨chunk, hchunk, hdocument⟩, hlist, hvisible, chunk, hchunk,
      hdocument, hbesides⟩

theorem nodup_neighborRows (window : ℤ) (chunks : List RetrievedChunk) :
    (neighborRows store engine request window chunks).Nodup := by
  refine List.nodup_flatMap.2 ⟨fun id _ ↦ ?_, ?_⟩
  · exact ((store.nodup_list id).of_map _).filter _
  · have horder := (engine.documentOrder_perm (chunks.map RetrievedChunk.documentId).dedup).nodup_iff.2
      (List.nodup_dedup _)
    refine horder.imp fun hne row ha hb ↦ hne ?_
    rw [← (store.mem_of_mem_list (List.mem_of_mem_filter ha)).2]
    exact (store.mem_of_mem_list (List.mem_of_mem_filter hb)).2

theorem nodup_neighbors (window : ℤ) (chunks : List RetrievedChunk) :
    (((neighborRows store engine request window chunks).map StoredChunk.toNeighbor).map
      RetrievedChunk.chunkId).Nodup := by
  rw [List.map_map]
  refine (nodup_neighborRows window chunks).map_on fun a ha b hb h ↦ ?_
  exact store.eq_of_id_eq (store.mem_of_mem_list (mem_neighborRows.1 ha).1).1
    (store.mem_of_mem_list (mem_neighborRows.1 hb).1).1 h

/-- The rows that are new beside the chunks. -/
def newStored (chunks : List RetrievedChunk) (rows : List StoredChunk) : List StoredChunk :=
  rows.filter fun row ↦ !(chunks.any fun chunk ↦ chunk.chunkId = row.id)

theorem newNeighbors_map (chunks : List RetrievedChunk) (rows : List StoredChunk) :
    newNeighbors chunks (rows.map StoredChunk.toNeighbor) =
      (newStored chunks rows).map StoredChunk.toNeighbor := by
  rw [newNeighbors, newStored, List.filter_map]
  rfl

/-- **A neighbour for which there is room beside all chunks is one for which there is room beside one
alone.** Those that come before it beside that one are among the chunks already, or come before it. -/
theorem beside_of_room {limit : ℕ} {P : StoredChunk → Prop}
    (hrows : ∀ chunk ∈ chunks, ∃ row, P row ∧ row ∈ store.chunks ∧ PrimaryOf row chunk)
    {neighbor : StoredChunk}
    (h : neighbor ∈ (newStored chunks (neighborRows store engine request
      (qualityOptionsFromConfig config).neighborWindow chunks)).take (limit - chunks.length)) :
    ∃ row, P row ∧ neighbor ∈ (Beside store config request row).take (limit - 1) := by
  obtain ⟨hlist, hvisible, chunk, hchunk, hdocument, hbesides⟩ :=
    mem_neighborRows.1 (List.mem_of_mem_filter (List.mem_of_mem_take h))
  obtain ⟨found, hfound, hstored, hid, hrowDocument, hindex⟩ := hrows chunk hchunk
  refine ⟨found, hfound, ?_⟩
  rw [Beside, ← hrowDocument, hdocument, ← hindex]
  set window := (qualityOptionsFromConfig config).neighborWindow
  set shown : StoredChunk → Bool := fun row ↦ visibleTo request row && chunks.any fun chunk ↦
    chunk.documentId = row.documentId && besides window chunk.chunkIndex row
  set beside : StoredChunk → Bool := fun row ↦
    visibleTo request row && besides window chunk.chunkIndex row
  have hloaded : neighborRows store engine request window chunks =
      (engine.documentOrder (chunks.map RetrievedChunk.documentId).dedup).flatMap fun id ↦
        (store.listChunksForDocument id).filter shown := rfl
  have hbeside : beside neighbor = true := Bool.and_eq_true_iff.2 ⟨hvisible, hbesides⟩
  have hself : shown neighbor = true :=
    Bool.and_eq_true_iff.2 ⟨hvisible, List.any_eq_true.2 ⟨chunk, hchunk,
      Bool.and_eq_true_iff.2 ⟨decide_eq_true hdocument, hbesides⟩⟩⟩
  -- The neighbour among the rows of its document, and its document among all.
  obtain ⟨before, after, hsplit⟩ := List.append_of_mem hlist
  obtain ⟨idsBefore, idsAfter, horder⟩ := List.append_of_mem
    ((engine.documentOrder_perm _).mem_iff.2 (List.mem_dedup.2 (List.mem_map.2 ⟨chunk, hchunk, hdocument⟩)))
  set earlier := newStored chunks
    ((idsBefore.flatMap fun id ↦ (store.listChunksForDocument id).filter shown) ++ before.filter shown)
    with hearlier
  obtain ⟨later, hnew⟩ : ∃ later, newStored chunks (neighborRows store engine request window chunks) =
      earlier ++ neighbor :: later := by
    have hfresh : (!(chunks.any fun chunk ↦ chunk.chunkId = neighbor.id)) = true :=
      (List.mem_filter.1 (List.mem_of_mem_take h)).2
    refine ⟨newStored chunks (after.filter shown ++
      idsAfter.flatMap fun id ↦ (store.listChunksForDocument id).filter shown), ?_⟩
    rw [hearlier, newStored, newStored, newStored, hloaded, horder, List.flatMap_append,
      List.flatMap_cons, hsplit, List.filter_append (p := shown), List.filter_cons_of_pos hself]
    simp only [List.filter_append, List.append_assoc, List.cons_append, List.filter_cons, hfresh,
      if_true]
  have hnodup := (@nodup_neighborRows store engine request window
    chunks).filter fun row ↦ !(chunks.any fun chunk ↦ chunk.chunkId = row.id)
  have hroom : earlier.length < limit - chunks.length := by
    have hnew' : (neighborRows store engine request window chunks).filter
        (fun row ↦ !(chunks.any fun chunk ↦ chunk.chunkId = row.id)) = earlier ++ neighbor :: later :=
      hnew
    rw [hnew'] at hnodup
    rw [hnew] at h
    exact (mem_take_append_cons fun hmem ↦ (List.nodup_append.1 hnodup).2.2 _ hmem _
      List.mem_cons_self rfl).1 h
  have hlistNodup := store.nodup_list neighbor.documentId
  rw [hsplit] at hlistNodup ⊢
  rw [List.filter_append, List.filter_cons_of_pos hbeside]
  set own := before.filter beside
  refine (mem_take_append_cons fun hmem ↦ ?_).2 ?_
  · exact (List.nodup_append.1 (hlistNodup.of_map _)).2.2 _ (List.mem_of_mem_filter hmem) _
      List.mem_cons_self rfl
  · have hsubset : own.map StoredChunk.id ⊆
        (chunks.map RetrievedChunk.chunkId).erase found.id ++ earlier.map StoredChunk.id := by
      intro id hmem
      obtain ⟨row, hrow, rfl⟩ := List.mem_map.1 hmem
      obtain ⟨hbefore, hboth⟩ := List.mem_filter.1 hrow
      obtain ⟨hrowVisible, hrowBesides⟩ := Bool.and_eq_true_iff.1 hboth
      obtain ⟨hrowStored, hrowDoc⟩ := @RetrievalStore.mem_of_mem_list store
        neighbor.documentId _ (by rw [hsplit]; exact List.mem_append_left _ hbefore)
      by_cases hthere : row.id ∈ chunks.map RetrievedChunk.chunkId
      · refine List.mem_append_left _ ((List.mem_erase_of_ne fun heq ↦ ?_).2 hthere)
        obtain rfl := store.eq_of_id_eq hrowStored hstored heq
        exact (of_decide_eq_true hrowBesides).1 (by rw [hindex])
      · refine List.mem_append_right _ (List.mem_map_of_mem (List.mem_filter.2 ⟨?_, ?_⟩))
        · refine List.mem_append_right _ (List.mem_filter.2 ⟨hbefore, Bool.and_eq_true_iff.2
            ⟨hrowVisible, List.any_eq_true.2 ⟨chunk, hchunk, Bool.and_eq_true_iff.2
              ⟨decide_eq_true (hdocument.trans hrowDoc.symm), hrowBesides⟩⟩⟩⟩)
        · rw [Bool.not_eq_true', ← Bool.not_eq_true, List.any_eq_true]
          rintro ⟨other, hother, heq⟩
          exact hthere (List.mem_map.2 ⟨other, hother, of_decide_eq_true heq⟩)
    have hownNodup : (own.map StoredChunk.id).Nodup := by
      rw [List.map_append] at hlistNodup
      exact (List.nodup_append.1 hlistNodup).1.sublist ((List.filter_sublist).map _)
    have hle := (List.subperm_of_subset hownNodup hsubset).length_le
    rw [List.length_append, List.length_map, List.length_map,
      List.length_erase_of_mem (hid ▸ List.mem_map_of_mem hchunk), List.length_map] at hle
    have hpos := List.length_pos_of_mem hchunk
    omega

end Neighbors

/-! ### Answers that have not been cached -/

/-- Where a chunk of an answer comes from. -/
inductive Origin (store : RetrievalStore) (config : RetrievalConfig) (request : RetrievalRequest)
    (plan : CandidatePlan) (filters : RetrievalFilters) (chunk : RetrievedChunk) : Prop
  /-- It is a row that has been found. -/
  | own (row : StoredChunk) (found : Found store config request plan filters row)
    (primary : PrimaryOf row chunk) (content : chunk.content = row.content)
  /-- It is a row that has been found, with the text of its parent from its own metadata. -/
  | legacy (row : StoredChunk) (found : Found store config request plan filters row)
    (primary : PrimaryOf row chunk) (expand : config.parentChildRetrievalEnabled = true)
    (content : legacyParent row.metadata = some chunk.content)
  /-- It is a row that has been found, with a text that a row of the same document wants. -/
  | parent (row child : StoredChunk) (index : ℤ) (parent : StoredChunk)
    (found : Found store config request plan filters row) (primary : PrimaryOf row chunk)
    (expand : config.parentChildRetrievalEnabled = true)
    (legacy : legacyParent row.metadata = none) (atIndex : parentIndex row.metadata = some index)
    (wanted : Found store config request plan filters child)
    (document : child.documentId = row.documentId)
    (wants : wantedParent child.metadata = some index)
    (isParent : parentRow store row.documentId index = some parent)
    (nonblank : nonblank parent.content = true) (content : chunk.content = parent.content)
  /-- It is one of the first rows beside a row that has been found. -/
  | neighbor (row neighbor : StoredChunk) (found : Found store config request plan filters row)
    (expand : config.neighborExpansionEnabled = true)
    (beside : neighbor ∈ (Beside store config request row).take (plan.finalTopK - 1).toNat)
    (chunk_eq : chunk = asNeighbor neighbor.toNeighbor)

section Answers

variable {store : RetrievalStore} {engine : SearchEngine} {cache : RetrievalCache}
  {config : RetrievalConfig} {request : RetrievalRequest} {filters : RetrievalFilters}
  {plan : CandidatePlan} {ranker : Reranker} {chunk : RetrievedChunk} {chunks kept : List RetrievedChunk}

/-- What a plan derives from its other fields. -/
theorem Searches.planned (h : Searches store config request ranker plan filters) :
    plan.fuseLimit = max (max plan.vectorLimit plan.lexicalLimit) plan.finalTopK ∧
      plan.needsEmbedding = decide (plan.strategy ≠ .lexical) ∧
        (plan.postRerank = true → config.rerankEnabled = true) := by
  obtain ⟨strategy, -, rfl⟩ := eq_ok_of_map h.plan
  exact ⟨rfl, rfl, fun hrerank ↦ (Bool.and_eq_true_iff.1 hrerank).1⟩

theorem PrimaryOf.of_shows {row : StoredChunk} (h : ShowsRow row chunk) : PrimaryOf row chunk :=
  ⟨h.id, h.document, h.index⟩

/-- What takes the place of the text of a row that has been found. -/
theorem origin_of_expandChunk {row : StoredChunk} (hfound : Found store config request plan filters row)
    (hshows : ShowsRow row chunk) (hexpand : config.parentChildRetrievalEnabled = true)
    (hkept : ∀ c ∈ kept, ∃ row, Found store config request plan filters row ∧ ShowsRow row c) :
    Origin store config request plan filters (expandChunk (parentTexts store kept) chunk) := by
  have hprimary : PrimaryOf row (expandChunk (parentTexts store kept) chunk) := by
    rw [PrimaryOf, expandChunk_chunkId, expandChunk_documentId, expandChunk_chunkIndex]
    exact PrimaryOf.of_shows hshows
  have hcontent := expandChunk_content (parentTexts store kept) chunk
  rw [parentText, hshows.legacyParent, hshows.parentIndex, hshows.document] at hcontent
  cases hlegacy : legacyParent row.metadata with
  | some text =>
    rw [hlegacy, Option.some_or, Option.getD_some] at hcontent
    exact .legacy row hfound hprimary hexpand (by rw [hcontent, hlegacy])
  | none =>
    rw [hlegacy, Option.none_or] at hcontent
    cases htext : (parentIndex row.metadata).bind fun index ↦
        (parentTexts store kept row.documentId index).filter nonblank with
    | none =>
      rw [htext, Option.getD_none] at hcontent
      exact .own row hfound hprimary (hcontent.trans hshows.content)
    | some text =>
      rw [htext, Option.getD_some] at hcontent
      obtain ⟨index, hindex, htext⟩ := Option.bind_eq_some_iff.1 htext
      obtain ⟨htext, hnonblank⟩ := Option.filter_eq_some_iff.1 htext
      rw [parentTexts] at htext
      split at htext
      · next hwanted =>
        obtain ⟨parent, hparent, rfl⟩ := Option.map_eq_some_iff.1 htext
        obtain ⟨c, hc, hboth⟩ := List.any_eq_true.1 hwanted
        obtain ⟨hdocument, hwants⟩ := of_decide_eq_true hboth
        obtain ⟨child, hchild, hshowsChild⟩ := hkept c hc
        exact .parent row child index parent hfound hprimary hexpand hlegacy hindex hchild
          (hshowsChild.document.symm.trans hdocument) (hshowsChild.wantedParent.symm.trans hwants)
          hparent hnonblank hcontent
      · exact nomatch htext

theorem rankedChunks_subperm (ranker : Reranker) (plan : CandidatePlan) (request : RetrievalRequest)
    (kept : List RetrievedChunk) : (rankedChunks ranker plan request kept).Subperm kept := by
  rw [rankedChunks]
  split
  · exact ranker.rerank_subperm _ _ _
  · exact List.Subperm.refl kept

/-- Without expansion nothing is loaded, with it what the chunks want. -/
theorem loadedParents_ok {quality : QualityOptions} {parents : ParentTexts}
    (h : loadedParents store engine quality kept = .ok parents) :
    quality.parentChildExpand = true → parents = parentTexts store kept := by
  intro hexpand
  rw [loadedParents, if_pos hexpand, loadParentTexts] at h
  split at h
  · exact nomatch h
  · exact (Except.ok.inj h).symm

/-- The chunks that the strategies leave, and the rows they are made of. -/
theorem strategies_sound {parents : ParentTexts}
    (hparents : config.parentChildRetrievalEnabled = true → parents = parentTexts store kept)
    (hkept : ∀ c ∈ kept, ∃ row, Found store config request plan filters row ∧ ShowsRow row c) :
    ∀ c ∈ applyQualityStrategies engine.sha256 (qualityOptionsFromConfig config) plan.finalTopK parents
      kept, Origin store config request plan filters c ∧
        ∃ row, Found store config request plan filters row ∧ PrimaryOf row c := by
  intro c hc
  obtain ⟨c, hmem, rfl⟩ := mem_applyQualityStrategies hc
  obtain ⟨row, hfound, hshows⟩ := hkept c hmem
  split
  · next hexpand =>
    rw [hparents hexpand]
    refine ⟨origin_of_expandChunk hfound hshows hexpand hkept, row, hfound, ?_⟩
    rw [PrimaryOf, expandChunk_chunkId, expandChunk_documentId, expandChunk_chunkIndex]
    exact PrimaryOf.of_shows hshows
  · have hprimary := PrimaryOf.of_shows hshows
    exact ⟨.own row hfound hprimary hshows.content, row, hfound, hprimary⟩

/-- What is added beside chunks of rows. -/
theorem mem_withNeighbors {P : StoredChunk → Prop}
    (hrows : ∀ c ∈ kept, ∃ row, P row ∧ row ∈ store.chunks ∧ PrimaryOf row c)
    (h : withNeighbors store engine (qualityOptionsFromConfig config) plan request kept = .ok chunks) :
    ∀ c ∈ chunks, c ∈ kept ∨ config.neighborExpansionEnabled = true ∧ ∃ row neighbor, P row ∧
      neighbor ∈ (Beside store config request row).take (plan.finalTopK - 1).toNat ∧
        c = asNeighbor neighbor.toNeighbor := by
  rw [withNeighbors] at h
  split at h
  · next hexpand =>
    rw [expandNeighbors] at h
    split at h
    · obtain rfl := Except.ok.inj h
      exact fun c hc ↦ Or.inl ((takeTo_sublist _ _).mem hc)
    · split at h
      · exact nomatch h
      · obtain rfl := Except.ok.inj h
        intro c hc
        have hneighbors := @nodup_neighbors store engine request
          (qualityOptionsFromConfig config).neighborWindow kept
        by_cases hlimit : 0 ≤ plan.finalTopK
        · rw [mergeNeighborChunks_eq hlimit kept hneighbors, List.take_append] at hc
          rcases List.mem_append.1 hc with hc | hc
          · exact Or.inl (List.mem_of_mem_take hc)
          · rw [newNeighbors_map, ← List.map_take, ← List.map_take] at hc
            obtain ⟨_, hmem, rfl⟩ := List.mem_map.1 hc
            obtain ⟨neighbor, hneighbor, rfl⟩ := List.mem_map.1 hmem
            obtain ⟨row, hP, hbeside⟩ := beside_of_room hrows hneighbor
            have hroom : (plan.finalTopK - 1).toNat = plan.finalTopK.toNat - 1 := by omega
            exact Or.inr ⟨hexpand.1, row, neighbor, hP, hroom ▸ hbeside, rfl⟩
        · exact Or.inl (mergeNeighborChunks_subset_of_neg (by omega) kept hneighbors hc)
  · obtain rfl := Except.ok.inj h
    exact fun c hc ↦ Or.inl hc

/-- What is added beside chunks of rows that have been found. -/
theorem withNeighbors_sound
    (hkept : ∀ c ∈ kept, Origin store config request plan filters c ∧
      ∃ row, Found store config request plan filters row ∧ PrimaryOf row c)
    (h : withNeighbors store engine (qualityOptionsFromConfig config) plan request kept = .ok chunks) :
    ∀ c ∈ chunks, Origin store config request plan filters c := by
  have hrows : ∀ c ∈ kept, ∃ row, Found store config request plan filters row ∧
      row ∈ store.chunks ∧ PrimaryOf row c := by
    intro c hc
    obtain ⟨row, hfound, hprimary⟩ := (hkept c hc).2
    exact ⟨row, hfound, hfound.scope.1, hprimary⟩
  intro c hc
  rcases mem_withNeighbors hrows h c hc with hc | ⟨hexpand, row, neighbor, hfound, hbeside, hchunk⟩
  · exact (hkept c hc).1
  · exact .neighbor row neighbor hfound hexpand hbeside hchunk

/-- The chunks that the strategies leave are chunks of rows that have been found. -/
theorem primaries_found {parents : ParentTexts}
    (hparents : loadedParents store engine (qualityOptionsFromConfig config)
      (rankedChunks ranker plan request kept) = .ok parents)
    (hkept : ∀ c ∈ kept, plan.finalTopK ≠ 0 →
      ∃ row, Found store config request plan filters row ∧ ShowsRow row c) :
    ∀ c ∈ applyQualityStrategies engine.sha256 (qualityOptionsFromConfig config) plan.finalTopK parents
      (rankedChunks ranker plan request kept),
      ∃ row, Found store config request plan filters row ∧ row ∈ store.chunks ∧ PrimaryOf row c := by
  intro c hc
  have hroom : plan.finalTopK ≠ 0 := by
    intro hzero
    have hnone : c ∈ takeTo 0 _ := hzero ▸ hc
    exact absurd hnone List.not_mem_nil
  obtain ⟨-, row, hfound, hprimary⟩ := strategies_sound (loadedParents_ok hparents)
    (fun c hc ↦ hkept c ((rankedChunks_subperm ranker plan request kept).subset hc) hroom) c hc
  exact ⟨row, hfound, hfound.scope.1, hprimary⟩

/-- **What reranking, the strategies and the neighbours make of rows that have been found.** -/
theorem refineChunks_sound
    (hkept : ∀ c ∈ kept, plan.finalTopK ≠ 0 →
      ∃ row, Found store config request plan filters row ∧ ShowsRow row c)
    (h : refineChunks store engine config ranker plan request kept = .ok chunks) :
    ∀ c ∈ chunks, Origin store config request plan filters c := by
  rw [refineChunks] at h
  obtain ⟨parents, hparents, h⟩ := eq_ok_of_bind h
  refine withNeighbors_sound (fun c hc ↦ ?_) h
  by_cases hroom : plan.finalTopK = 0
  · have hnone : c ∈ takeTo 0 _ := hroom ▸ hc
    exact absurd hnone List.not_mem_nil
  · exact strategies_sound (loadedParents_ok hparents)
      (fun c hc ↦ hkept c ((rankedChunks_subperm ranker plan request kept).subset hc) hroom) c hc

/-- The candidates from which the flagged ones are then dropped. -/
def candidatePool (plan : CandidatePlan) (candidates : List RetrievedChunk) : List RetrievedChunk :=
  if plan.postRerank then deduplicateChunks candidates
  else takeTo (max plan.finalTopK plan.fuseLimit) (deduplicateChunks candidates)

theorem candidatePool_subset (plan : CandidatePlan) (candidates : List RetrievedChunk) :
    candidatePool plan candidates ⊆ candidates := by
  rw [candidatePool]
  split
  · exact deduplicateChunks_subset candidates
  · exact fun c hc ↦ deduplicateChunks_subset candidates ((takeTo_sublist _ _).mem hc)

theorem mem_excludeInjectionFlaggedChunks :
    chunk ∈ (excludeInjectionFlaggedChunks chunks).1 ↔
      chunk ∈ chunks ∧ flagged chunk.metadata = false := by
  rw [excludeInjectionFlaggedChunks, List.mem_filter, flagged, Bool.not_eq_true']

/-- The outcome of a search that has kept some of its pool and made chunks of them. -/
def searchedOutcome (pool chunks : List RetrievedChunk) : RetrievalOutcome :=
  let removed := (excludeInjectionFlaggedChunks pool).2
  { chunks := chunks
    noMatches := chunks.isEmpty
    injectionChunksFiltered := removed
    degradationReason :=
      if chunks.isEmpty && !pool.isEmpty && removed = pool.length then
        some "injection_filtered_all_matches"
      else none }

theorem finishRetrieval_eq (world : RetrievalWorld) (config : RagConfig) (plan : CandidatePlan)
    (request : RetrievalRequest) (filters : RetrievalFilters) (candidates : List RetrievedChunk) :
    finishRetrieval world config plan request filters candidates =
      (world.refine config plan request
        (excludeInjectionFlaggedChunks (candidatePool plan candidates)).1).bind fun chunks ↦
          if (excludeInjectionFlaggedChunks (candidatePool plan candidates)).2 = 0 then
            (world.setCached config plan request filters chunks).bind fun _ ↦
              .ok (searchedOutcome (candidatePool plan candidates) chunks)
          else .ok (searchedOutcome (candidatePool plan candidates) chunks) := rfl

/-- What a search has done when it comes to an end. -/
theorem finishRetrieval_ok {world : RetrievalWorld} {config : RagConfig}
    {candidates : List RetrievedChunk} {outcome : RetrievalOutcome}
    (h : finishRetrieval world config plan request filters candidates = .ok outcome) :
    ∃ chunks, world.refine config plan request
        (excludeInjectionFlaggedChunks (candidatePool plan candidates)).1 = .ok chunks ∧
      outcome = searchedOutcome (candidatePool plan candidates) chunks := by
  rw [finishRetrieval_eq] at h
  obtain ⟨chunks, hchunks, h⟩ := eq_ok_of_bind h
  refine ⟨chunks, hchunks, ?_⟩
  split at h
  · obtain ⟨-, -, h⟩ := eq_ok_of_bind h
    exact (Except.ok.inj h).symm
  · exact (Except.ok.inj h).symm

/-- The outcome of a search for a plan. -/
def computedOutcome (world : RetrievalWorld) (config : RagConfig) (plan : CandidatePlan)
    (request : RetrievalRequest) (filters : RetrievalFilters) : RetrievalOutcome :=
  if plan.needsEmbedding then embeddedOutcome world config plan request filters
  else searchOutcome world config plan request filters none

/-- The embedding that a search for the plan gets for its query. -/
def QueryEmbedded (world : RetrievalWorld) (config : RagConfig) (plan : CandidatePlan)
    (request : RetrievalRequest) : Option Embedding → Prop
  | none => plan.needsEmbedding = false
  | some embedding => plan.needsEmbedding = true ∧
      (∃ others, world.embedTexts (embeddingCall config) [request.query] = .ok (embedding :: others)) ∧
        world.canIndexEmbedding embedding config.embeddingDimensions = true

/-- The candidates of a search for the plan. -/
def SearchFinds (world : RetrievalWorld) (config : RagConfig) (plan : CandidatePlan)
    (request : RetrievalRequest) (filters : RetrievalFilters) (candidates : List RetrievedChunk) : Prop :=
  ∃ embedding, QueryEmbedded world config plan request embedding ∧
    retrieveCandidates world plan request filters embedding = .ok candidates

/-- With the embedding, there is the search. -/
theorem computedOutcome_of_embedded {world : RetrievalWorld} {config : RagConfig}
    {embedding : Option Embedding} (h : QueryEmbedded world config plan request embedding) :
    computedOutcome world config plan request filters =
      searchOutcome world config plan request filters embedding := by
  match embedding, h with
  | none, hneeds =>
    have hoff : ¬plan.needsEmbedding = true := Bool.eq_false_iff.1 hneeds
    rw [computedOutcome, if_neg hoff]
  | some embedding, ⟨hneeds, ⟨others, hembed⟩, hindex⟩ =>
    rw [computedOutcome, if_pos hneeds, embeddedOutcome, hembed]
    exact if_pos hindex

/-- With the candidates, there is what becomes of them. -/
theorem computedOutcome_of_finds {world : RetrievalWorld} {config : RagConfig}
    {candidates : List RetrievedChunk} (h : SearchFinds world config plan request filters candidates) :
    computedOutcome world config plan request filters =
      match finishRetrieval world config plan request filters candidates with
      | .error failure => failure.outcome
      | .ok outcome => outcome := by
  obtain ⟨embedding, hembedding, hcandidates⟩ := h
  have hsearch := @computedOutcome_of_embedded request filters plan world config embedding hembedding
  simp only [searchOutcome, hcandidates] at hsearch
  exact hsearch

/-- The candidates of a search are rows that its lanes can return. -/
theorem rows_of_finds (hsearches : Searches store config request ranker plan filters)
    {candidates : List RetrievedChunk}
    (h : SearchFinds (storeWorld store engine cache config ranker) config.toRagConfig plan request filters
      candidates) :
    ∀ c ∈ candidates, ∃ row, store.InScope (searchScope request filters) row ∧
      LanesFind plan request row ∧
        (plan.needsEmbedding = true → config.embeddingDimensions = ragVectorDimensions) ∧
          ShowsRow row c := by
  obtain ⟨embedding, hembedding, hcandidates⟩ := h
  obtain ⟨hvector, hfound⟩ := retrieveCandidates_sound hcandidates
  intro c hc
  obtain ⟨row, hscope, hlanes, hshows⟩ := hfound c hc
  refine ⟨row, hscope, hlanes, fun hneeds ↦ ?_, hshows⟩
  obtain ⟨vector, rfl, hlength⟩ := hvector (strategy_of_needsEmbedding hsearches.plan hneeds)
  rw [← engine.canIndexEmbedding_length _ _ hembedding.2.2, hlength]

/-- The chunks that a search keeps of its candidates are rows that have been found. -/
theorem kept_found (hsearches : Searches store config request ranker plan filters)
    {candidates : List RetrievedChunk}
    (h : SearchFinds (storeWorld store engine cache config ranker) config.toRagConfig plan request filters
      candidates) :
    ∀ c ∈ (excludeInjectionFlaggedChunks (candidatePool plan candidates)).1, plan.finalTopK ≠ 0 →
      ∃ row, Found store config request plan filters row ∧ ShowsRow row c := by
  intro c hc hroom
  obtain ⟨hmem, hunflagged⟩ := mem_excludeInjectionFlaggedChunks.1 hc
  obtain ⟨row, hscope, hlanes, hfits, hshows⟩ :=
    rows_of_finds hsearches h c (candidatePool_subset plan candidates hmem)
  exact ⟨row, ⟨hscope, hlanes, hfits, by rw [← hshows.flagged, hunflagged], hroom⟩, hshows⟩

/-- A search that is not degraded has found candidates, and made chunks of what it has kept of them. -/
theorem computedOutcome_cases {outcome : RetrievalOutcome}
    (h : computedOutcome (storeWorld store engine cache config ranker) config.toRagConfig plan request
      filters = outcome) :
    (outcome.degraded = true ∧ outcome.chunks = []) ∨ ∃ candidates chunks,
      SearchFinds (storeWorld store engine cache config ranker) config.toRagConfig plan request filters
        candidates ∧
      refineChunks store engine config ranker plan request
        (excludeInjectionFlaggedChunks (candidatePool plan candidates)).1 = .ok chunks ∧
      outcome = searchedOutcome (candidatePool plan candidates) chunks := by
  set world := storeWorld store engine cache config ranker
  have hsearch : ∀ embedding, QueryEmbedded world config.toRagConfig plan request embedding →
      (outcome.degraded = true ∧ outcome.chunks = []) ∨
        ∃ candidates, SearchFinds world config.toRagConfig plan request filters candidates := by
    intro embedding hembedding
    rw [computedOutcome_of_embedded hembedding, searchOutcome] at h
    split at h
    · next failure _ => exact Or.inl (h ▸ RetrievalFailure.outcome_degraded failure)
    · next candidates hcandidates => exact Or.inr ⟨candidates, embedding, hembedding, hcandidates⟩
  have hfinds : (outcome.degraded = true ∧ outcome.chunks = []) ∨
      ∃ candidates, SearchFinds world config.toRagConfig plan request filters candidates := by
    by_cases hneeds : plan.needsEmbedding = true
    · have hembedded := h
      rw [computedOutcome, if_pos hneeds, embeddedOutcome] at hembedded
      split at hembedded
      · next failure _ => exact Or.inl (hembedded ▸ RetrievalFailure.outcome_degraded failure)
      · exact Or.inl (hembedded ▸ RetrievalFailure.outcome_degraded .other)
      · next embedding others hembed =>
        split at hembedded
        · next hindex => exact hsearch (some embedding) ⟨hneeds, ⟨others, hembed⟩, hindex⟩
        · exact Or.inl (hembedded ▸ ⟨rfl, rfl⟩)
    · exact hsearch none (Bool.eq_false_iff.2 hneeds)
  rcases hfinds with hdegraded | ⟨candidates, hfinds⟩
  · exact Or.inl hdegraded
  · rw [computedOutcome_of_finds hfinds] at h
    split at h
    · next failure _ => exact Or.inl (h ▸ RetrievalFailure.outcome_degraded failure)
    · next finished hfinished =>
      obtain ⟨chunks, hrefine, hequal⟩ := finishRetrieval_ok hfinished
      exact Or.inr ⟨candidates, chunks, hfinds, hrefine, h.symm.trans hequal⟩

/-- **What a search shows.** -/
theorem computedOutcome_sound (hsearches : Searches store config request ranker plan filters) :
    ∀ c ∈ (computedOutcome (storeWorld store engine cache config ranker) config.toRagConfig plan request
      filters).chunks, Origin store config request plan filters c := by
  intro c hc
  rcases computedOutcome_cases rfl with ⟨-, hnone⟩ | ⟨candidates, chunks, hfinds, hrefine, hsome⟩
  · rw [hnone] at hc
    exact absurd hc List.not_mem_nil
  · rw [hsome] at hc
    exact refineChunks_sound (kept_found hsearches hfinds) hrefine c hc

theorem callFilters_of_effective {f : RetrievalFilters} {active : RagIndexVersion}
    (hfilters : effectiveFilters (storeWorld store engine cache config ranker) request = some f)
    (hactive : getActiveVersion store.versions = some active) :
    store.callFilters request = some { f with indexVersionId := some active.id } := by
  have hbind : store.callFilters request =
      (effectiveFilters (storeWorld store engine cache config ranker) request).bind fun filters ↦
        (getActiveVersion store.versions).map fun active ↦
          { filters with indexVersionId := some active.id } := rfl
  rw [hbind, hfilters, hactive]
  rfl

/-- **The answer of a call that gets as far as a search.** -/
theorem retrieveFrom_of_searches (engine : SearchEngine) (cache : RetrievalCache)
    (hsearches : Searches store config request ranker plan filters) :
    ∃ run, retrieveFrom store engine cache config request = .ok run ∧
      run.outcome = if engine.catalogFails then degradedOutcome "no_active_index_version" else
        match cache.get (retrievalKey config plan request filters) with
        | .error failure => failure.outcome
        | .ok (some cached) => cachedOutcome cached
        | .ok none => computedOutcome (storeWorld store engine cache config ranker) config.toRagConfig plan
            request filters := by
  set world := storeWorld store engine cache config ranker with hworld
  obtain ⟨given, hgiven, hactive⟩ : ∃ given, effectiveFilters world request = some given ∧
      (getActiveVersion store.versions).map (fun active ↦
        { given with indexVersionId := some active.id }) = some filters :=
    Option.bind_eq_some_iff.1 hsearches.filters
  obtain ⟨active, hactive, hfilters⟩ := Option.map_eq_some_iff.1 hactive
  have hversion : (searchVersion world config.toRagConfig plan request given active.id).outcome =
      match cache.get (retrievalKey config plan request filters) with
      | .error failure => failure.outcome
      | .ok (some cached) => cachedOutcome cached
      | .ok none => computedOutcome world config.toRagConfig plan request filters := by
    have hcached : world.getCached config.toRagConfig plan request filters =
        cache.get (retrievalKey config plan request filters) := rfl
    rw [searchVersion]
    simp only [hfilters, hcached]
    generalize cache.get (retrievalKey config plan request filters) = answer
    match answer with
    | .error _ => rfl
    | .ok (some _) => rfl
    | .ok none =>
      show RetrievalRun.outcome (if plan.needsEmbedding then _ else _) = _
      rw [computedOutcome]
      split
      · rfl
      · rfl
  have hcatalog : world.catalogFails = engine.catalogFails := rfl
  rw [retrieveFrom, hsearches.ranker]
  show ∃ run, retrieve world config.toRagConfig store.versions request = .ok run ∧ _
  rw [retrieve, if_pos hsearches.enabled, hsearches.plan]
  simp only [Except.map, hgiven, hcatalog, hactive]
  refine ⟨_, rfl, ?_⟩
  cases engine.catalogFails with
  | true => rfl
  | false => exact hversion

/-- A call that does not get as far as a search shows nothing. If it is not degraded, none of the
requested documents are the user's. -/
theorem retrieveFrom_cases {run : RetrievalRun}
    (h : retrieveFrom store engine cache config request = .ok run) :
    (∃ ranker plan filters, Searches store config request ranker plan filters) ∨
      run.outcome.chunks = [] ∧ (config.enabled = true → run.outcome.degraded = false →
        (∃ plan, resolveCandidatePlan config.toRagConfig (request.resolvedTopK config.toRagConfig)
          request.strategy = .ok plan) ∧
        request.filters.documentIds.isEmpty = false ∧
          (store.filterDocumentIdsForUser request request.filters.documentIds.eraseDups).isEmpty =
            true) := by
  obtain ⟨ranker, hranker, h⟩ := eq_ok_of_bind h
  rw [retrieve] at h
  split at h
  · next henabled =>
    obtain ⟨plan, hplan, rfl⟩ := eq_ok_of_map h
    cases hfilters : effectiveFilters (storeWorld store engine cache config ranker) request with
    | none =>
      refine Or.inr ⟨rfl, fun _ _ ↦ ⟨⟨plan, hplan⟩, ?_⟩⟩
      rw [effectiveFilters] at hfilters
      split at hfilters
      · cases hfilters
      · next hgiven =>
        dsimp only [storeWorld] at hfilters
        split at hfilters
        · next hnone => exact ⟨Bool.eq_false_iff.2 hgiven, hnone⟩
        · cases hfilters
    | some f =>
      cases hactive : (if (storeWorld store engine cache config ranker).catalogFails then none
          else getActiveVersion store.versions) with
      | none => exact Or.inr ⟨rfl, fun _ hdegraded ↦ by cases hdegraded⟩
      | some active =>
        have hactive : getActiveVersion store.versions = some active := by
          split at hactive
          · cases hactive
          · exact hactive
        exact Or.inl ⟨ranker, plan, _, hranker, henabled, hplan,
          callFilters_of_effective hfilters hactive⟩
  · next hdisabled =>
    obtain rfl := Except.ok.inj h
    exact Or.inr ⟨rfl, fun henabled ↦ absurd henabled hdisabled⟩

/-- **What an answer shows**: what the cache holds, without the flagged chunks, or what has been found. -/
theorem retrieveFrom_sound {run : RetrievalRun}
    (h : retrieveFrom store engine cache config request = .ok run) (hchunk : chunk ∈ run.outcome.chunks) :
    ∃ ranker plan filters, Searches store config request ranker plan filters ∧
      ((∃ cached, cache.get (retrievalKey config plan request filters) = .ok (some cached) ∧
          chunk ∈ cached ∧ flagged chunk.metadata = false) ∨
        cache.get (retrievalKey config plan request filters) = .ok none ∧
          Origin store config request plan filters chunk) := by
  obtain ⟨ranker, plan, filters, hsearches⟩ := (retrieveFrom_cases h).resolve_right fun hnone ↦
    absurd (hnone.1 ▸ hchunk) List.not_mem_nil
  refine ⟨ranker, plan, filters, hsearches, ?_⟩
  obtain ⟨run', hrun, houtcome⟩ := retrieveFrom_of_searches engine cache hsearches
  obtain rfl := Except.ok.inj (h.symm.trans hrun)
  rw [houtcome] at hchunk
  split at hchunk
  · exact absurd hchunk List.not_mem_nil
  · split at hchunk
    · next failure _ =>
      rw [(RetrievalFailure.outcome_degraded failure).2] at hchunk
      exact absurd hchunk List.not_mem_nil
    · next cached hcached =>
      obtain ⟨hmem, hunflagged⟩ := mem_excludeInjectionFlaggedChunks.1 hchunk
      exact Or.inl ⟨cached, hcached, deduplicateChunks_subset cached hmem, hunflagged⟩
    · next hcached => exact Or.inr ⟨hcached, computedOutcome_sound hsearches _ hchunk⟩

end Answers

end GenericApp
