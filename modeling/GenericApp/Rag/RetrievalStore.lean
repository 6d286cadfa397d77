import GenericApp.Rag.Documents
import GenericApp.Rag.QualityStrategies

/-!
# The store behind retrieval

`chunk_search`, the listing of the chunks of a document, and what `RetrievalService` does with them: the
two lanes, the texts of parents, the neighbours, the key of the cache. With a store, `retrieve` is a
function of the database engine, the embedding provider and the cache.

A row has all columns that retrieval reads. A document has rows under several index versions, and rows
that belong to none. `_scope_filters` looks at the version and at the role of a row, the listing looks at
neither. The order of the rows of a store is the order in which the database lists rows that its
`ORDER BY` leaves open.
-/

namespace GenericApp

open Py

/-! ### Rows -/

/-- A row of `rag_chunks`. Metadata that are missing are empty. -/
structure StoredChunk where
  id : Uuid
  documentId : Uuid
  indexVersionId : Option Uuid
  userId : String
  organizationId : Option String
  projectId : Option String
  chunkIndex : ℕ
  content : String
  metadata : Dict
  embedding : Option Embedding

/-- `uq_rag_chunks_document_version_chunk_index` -/
def StoredChunk.collides (a b : StoredChunk) : Prop :=
  a.documentId = b.documentId ∧ a.indexVersionId ≠ none ∧ a.indexVersionId = b.indexVersionId ∧
    a.chunkIndex = b.chunkIndex

instance (a b : StoredChunk) : Decidable (a.collides b) :=
  inferInstanceAs (Decidable (_ ∧ _ ∧ _ ∧ _))

/-- The relations that retrieval reads, with the keys of `rag_chunks`. -/
structure RetrievalStore where
  documents : DocumentTable
  chunks : List StoredChunk
  versions : VersionTable
  ids_nodup : (chunks.map StoredChunk.id).Nodup
  places_apart : chunks.Pairwise fun a b ↦ ¬a.collides b

/-- The flag of the ingestion. -/
def flagged (metadata : Dict) : Bool := (Dict.get metadata "prompt_injection_suspected").truthy

/-- The text of the role in the metadata, if it has one. -/
def StoredChunk.role (row : StoredChunk) : Option String := (Dict.get row.metadata "chunk_role").asStr

/-! ### Scope -/

/-- `_scope_filters`, without its clause on the role. -/
def StoredChunk.admitted (scope : SearchScope) (document : RagDocument) (row : StoredChunk) : Bool :=
  (row.userId = scope.userId ∨
    (scope.organizationId ≠ none ∧ row.organizationId = scope.organizationId)) ∧
  document.status = .indexed ∧
  document.deletedAt = none ∧
  (scope.organizationId ≠ none → row.organizationId = scope.organizationId) ∧
  (given scope.projectId ≠ none → row.projectId = given scope.projectId) ∧
  (scope.documentIds ≠ [] → row.documentId ∈ scope.documentIds) ∧
  (∀ sourceType ∈ given scope.sourceType, document.sourceType = sourceType) ∧
  ∀ versionId ∈ scope.indexVersionId, row.indexVersionId = some versionId

/-- `_scope_filters`, on a full row. -/
def StoredChunk.inScope (scope : SearchScope) (document : RagDocument) (row : StoredChunk) : Bool :=
  row.admitted scope document && row.role ≠ some "parent"

/-- The columns that indexing writes. -/
def StoredChunk.indexed (row : StoredChunk) (writer : ℕ) (versionId : Uuid) : ChunkRow :=
  ⟨writer, row.documentId, versionId, row.userId, row.organizationId, row.projectId, row.chunkIndex,
    row.content, row.role.getD ""⟩

/-- On the columns that indexing writes both say the same. -/
theorem StoredChunk.inScope_eq_scopeFilters {row : StoredChunk} {versionId : Uuid} (writer : ℕ)
    (h : row.indexVersionId = some versionId) (scope : SearchScope) (document : RagDocument) :
    row.inScope scope document = scopeFilters scope document (row.indexed writer versionId) := by
  have hrole : row.role ≠ some "parent" ↔ row.role.getD "" ≠ "parent" := by
    cases row.role with
    | none => simp
    | some role => simp
  rw [Bool.eq_iff_iff, inScope, admitted, scopeFilters, Bool.and_eq_true, decide_eq_true_eq,
    decide_eq_true_eq, decide_eq_true_eq, hrole, h]
  simp only [indexed, Option.some.injEq, and_assoc]

/-- The scope of a call. -/
def searchScope (request : RetrievalRequest) (filters : RetrievalFilters) : SearchScope :=
  ⟨request.userId, request.projectId, filters.documentIds, filters.sourceType, request.organizationId,
    filters.indexVersionId⟩

namespace RetrievalStore

variable (store : RetrievalStore)

/-- The document of a row. -/
def document (id : Uuid) : Option RagDocument := store.documents.find (byDocumentId id)

/-- The rows that `_scope_filters` passes, joined with their documents. -/
def rowsInScope (scope : SearchScope) : List (StoredChunk × RagDocument) :=
  store.chunks.filterMap fun row ↦
    ((store.document row.documentId).filter fun document ↦ row.inScope scope document).map (row, ·)

theorem mem_rowsInScope {scope : SearchScope} {row : StoredChunk} {document : RagDocument} :
    (row, document) ∈ store.rowsInScope scope ↔ row ∈ store.chunks ∧
      store.document row.documentId = some document ∧ row.inScope scope document = true := by
  simp only [rowsInScope, List.mem_filterMap, Option.map_eq_some_iff, Option.filter_eq_some_iff,
    Prod.mk.injEq]
  constructor
  · rintro ⟨row', hrow, document', hdocument, rfl, rfl⟩
    exact ⟨hrow, hdocument⟩
  · rintro ⟨hrow, hdocument⟩
    exact ⟨row, hrow, document, hdocument, rfl, rfl⟩

/-- `list_chunks_for_document(document_id, limit=5000, offset=0)`. -/
def listChunksForDocument (documentId : Uuid) : List StoredChunk :=
  ((store.chunks.filter fun row ↦ row.documentId = documentId).insertionSort
    fun a b ↦ a.chunkIndex ≤ b.chunkIndex).take 5000

theorem mem_of_mem_list {documentId : Uuid} {row : StoredChunk}
    (h : row ∈ store.listChunksForDocument documentId) :
    row ∈ store.chunks ∧ row.documentId = documentId := by
  have h := List.mem_filter.1 ((List.mem_insertionSort _).1 (List.mem_of_mem_take h))
  exact ⟨h.1, of_decide_eq_true h.2⟩

theorem nodup_list (documentId : Uuid) :
    ((store.listChunksForDocument documentId).map StoredChunk.id).Nodup := by
  have hperm := List.perm_insertionSort (fun a b : StoredChunk ↦ a.chunkIndex ≤ b.chunkIndex)
    (store.chunks.filter fun row ↦ row.documentId = documentId)
  have hids := store.ids_nodup.sublist ((List.filter_sublist
    (p := fun row : StoredChunk ↦ decide (row.documentId = documentId))).map StoredChunk.id)
  exact ((hperm.map StoredChunk.id).nodup_iff.2 hids).sublist ((List.take_sublist _ _).map _)

/-- A row is found by its id. -/
theorem eq_of_id_eq {a b : StoredChunk} (ha : a ∈ store.chunks) (hb : b ∈ store.chunks)
    (h : a.id = b.id) : a = b :=
  List.inj_on_of_nodup_map store.ids_nodup ha hb h

/-- `filter_document_ids_for_user`. -/
def filterDocumentIdsForUser (request : RetrievalRequest) (documentIds : List Uuid) : List Uuid :=
  (store.documents.rows.filter fun document ↦
    (document.userId = request.userId ∨
      (request.organizationId ≠ none ∧ document.organizationId = request.organizationId)) ∧
    document.deletedAt = none ∧
    document.id ∈ documentIds ∧
    (given request.projectId ≠ none → document.projectId = given request.projectId) ∧
    (request.organizationId ≠ none → document.organizationId = request.organizationId)).map
      RagDocument.id

end RetrievalStore

/-! ### The engine -/

/-- A row of a search. -/
structure SearchHit where
  row : StoredChunk
  document : RagDocument
  score : ℚ

/-- What a call leaves to others: the provider of the embeddings, the checks of the vector library, the
database. Of a query the code relies on its answer being some of the rows that its conditions admit, each
once and no more than its `LIMIT`; how they are ranked is up to the database. A query may fail. -/
structure SearchEngine where
  /-- Whether the query for the active version raises. -/
  catalogFails : Bool
  embedTexts : EmbeddingCall → List String → Except RetrievalFailure (List Embedding)
  canIndexEmbedding : Embedding → ℤ → Bool
  embeddingIsIndexable : Embedding → Bool
  /-- The reason for which pgvector is not ready. -/
  pgvectorUnready : Option String
  /-- `1 - (embedding <=> query)` -/
  similarity : Embedding → Embedding → ℚ
  /-- The answer of the vector search. -/
  nearest : Embedding → ℤ → List SearchHit → Option (List SearchHit)
  /-- `ts_rank_cd` -/
  textRank : String → StoredChunk → ℚ
  /-- The answer of the full text search. -/
  textMatches : String → ℤ → List SearchHit → Option (List SearchHit)
  /-- Whether the listing of the chunks of a document raises. -/
  listingFails : Bool
  /-- The order in which a set of ids is run through. -/
  documentOrder : List Uuid → List Uuid
  sha256 : String → String
  canIndexEmbedding_length : ∀ embedding dimensions,
    canIndexEmbedding embedding dimensions = true → (embedding.length : ℤ) = dimensions
  embeddingIsIndexable_length : ∀ embedding,
    embeddingIsIndexable embedding = true → (embedding.length : ℤ) = ragVectorDimensions
  nearest_subperm : ∀ embedding limit rows hits, nearest embedding limit rows = some hits →
    hits.Subperm rows ∧ (hits.length : ℤ) ≤ limit
  textMatches_subperm : ∀ query limit rows hits, textMatches query limit rows = some hits →
    hits.Subperm rows ∧ (hits.length : ℤ) ≤ limit
  documentOrder_perm : ∀ ids, (documentOrder ids).Perm ids

/-! ### The lanes -/

/-- `_rows_to_chunks`, of one row. -/
def SearchHit.toChunk (lane : String) (lexicalScore : ℚ) (hit : SearchHit) : RetrievedChunk where
  chunkId := hit.row.id
  documentId := hit.row.documentId
  content := hit.row.content
  score := roundTo 4 hit.score
  filename := hit.document.originalFilename
  chunkIndex := hit.row.chunkIndex
  pageNumber := (Dict.get hit.row.metadata "page_number").asInt
  metadata := Dict.put (Dict.put hit.row.metadata "lexical_score" (.float lexicalScore))
    "retrieval_lane" (.str lane)

section Lanes

variable (store : RetrievalStore) (engine : SearchEngine)

/-- The rows that the vector search may return. -/
def vectorCandidates (scoreThreshold : ℚ) (scope : SearchScope) (embedding : Embedding) :
    List SearchHit :=
  (store.rowsInScope scope).filterMap fun (row, document) ↦ row.embedding.bind fun stored ↦
    let score := engine.similarity stored embedding
    if score ≥ scoreThreshold then some ⟨row, document, score⟩ else none

/-- The query of `similarity_search_indexed`. -/
def vectorRows (scoreThreshold : ℚ) (request : RetrievalRequest) (filters : RetrievalFilters)
    (embedding : Embedding) (topK : ℤ) : Except RetrievalFailure (List RetrievedChunk) :=
  match engine.nearest embedding topK
      (vectorCandidates store engine scoreThreshold (searchScope request filters) embedding) with
  | none => .error (.pgVectorUnavailable "query_failed")
  | some hits => .ok (hits.map (SearchHit.toChunk "vector" 0))

/-- The rows that the full text search may return. -/
def lexicalCandidates (scope : SearchScope) (query : String) : List SearchHit :=
  (store.rowsInScope scope).map fun (row, document) ↦ ⟨row, document, engine.textRank query row⟩

/-- `lexical_search_indexed`. A query that fails finds nothing. -/
def lexicalRows (request : RetrievalRequest) (filters : RetrievalFilters) (candidateLimit : ℤ) :
    List RetrievedChunk :=
  let cleaned := strip request.query
  if cleaned = "" ∨ candidateLimit < 1 then []
  else
    match engine.textMatches cleaned candidateLimit
        (lexicalCandidates store engine (searchScope request filters) cleaned) with
    | none => []
    | some hits => hits.map fun hit ↦ hit.toChunk "lexical" hit.score

/-! ### Parents and neighbours -/

/-- The index at which `_load_parent_texts` wants the parent of a chunk. -/
def wantedParent (metadata : Dict) : Option ℤ :=
  if (Dict.get metadata "parent_content").truthy then none else parentIndex metadata

/-- The last row that is listed at an index of a document, of those that are no children. -/
def parentRow (documentId : Uuid) (index : ℤ) : Option StoredChunk :=
  ((store.listChunksForDocument documentId).filter fun row ↦
    (row.chunkIndex : ℤ) = index ∧ isChild row.metadata = false).getLast?

/-- The texts that `_load_parent_texts` finds. -/
def parentTexts (chunks : List RetrievedChunk) : ParentTexts := fun documentId index ↦
  if chunks.any fun chunk ↦ chunk.documentId = documentId ∧ wantedParent chunk.metadata = some index then
    (parentRow store documentId index).map StoredChunk.content
  else none

/-- `_load_parent_texts`. -/
def loadParentTexts (chunks : List RetrievedChunk) : Except RetrievalFailure ParentTexts :=
  if engine.listingFails && chunks.any fun chunk ↦ (wantedParent chunk.metadata).isSome then .error .other
  else .ok (parentTexts store chunks)

/-- The row is beside the chunk of that index. -/
def besides (window : ℤ) (chunkIndex : ℕ) (row : StoredChunk) : Bool :=
  (row.chunkIndex : ℤ) ≠ chunkIndex ∧ (row.chunkIndex : ℤ) ≤ chunkIndex + window ∧
    (chunkIndex : ℤ) ≤ row.chunkIndex + window

/-- The row may be shown to the user as a neighbour. -/
def visibleTo (request : RetrievalRequest) (row : StoredChunk) : Bool :=
  row.userId = request.userId ∨
    (request.organizationId ≠ none ∧ row.organizationId = request.organizationId)

/-- A neighbour that has been loaded. -/
def StoredChunk.toNeighbor (row : StoredChunk) : RetrievedChunk where
  chunkId := row.id
  documentId := row.documentId
  content := row.content
  score := 0
  filename := (Dict.get row.metadata "filename").asStr.getD ""
  chunkIndex := row.chunkIndex
  pageNumber := (Dict.get row.metadata "page_number").asInt
  metadata := row.metadata

/-- The rows that `_expand_neighbors` loads. -/
def neighborRows (request : RetrievalRequest) (window : ℤ) (chunks : List RetrievedChunk) :
    List StoredChunk :=
  (engine.documentOrder (chunks.map RetrievedChunk.documentId).dedup).flatMap fun documentId ↦
    (store.listChunksForDocument documentId).filter fun row ↦ visibleTo request row &&
      chunks.any fun chunk ↦ chunk.documentId = row.documentId && besides window chunk.chunkIndex row

/-- `_expand_neighbors`. -/
def expandNeighbors (request : RetrievalRequest) (window limit : ℤ) (chunks : List RetrievedChunk) :
    Except RetrievalFailure (List RetrievedChunk) :=
  if chunks = [] ∨ window < 1 then .ok (takeTo limit chunks)
  else if engine.listingFails then .error .other
  else .ok (mergeNeighborChunks chunks
    ((neighborRows store engine request window chunks).map StoredChunk.toNeighbor) limit)

/-! ### From the candidates to the answer -/

/-- The chunks, reranked if the plan says so. -/
def rankedChunks (ranker : Reranker) (plan : CandidatePlan) (request : RetrievalRequest)
    (chunks : List RetrievedChunk) : List RetrievedChunk :=
  if plan.postRerank then ranker.rerank request.query chunks (max plan.finalTopK plan.fuseLimit)
  else chunks

/-- The texts of parents, if they are to be expanded. -/
def loadedParents (quality : QualityOptions) (chunks : List RetrievedChunk) :
    Except RetrievalFailure ParentTexts :=
  if quality.parentChildExpand then loadParentTexts store engine chunks else .ok fun _ _ ↦ none

/-- The chunks, with neighbours if the options say so. -/
def withNeighbors (quality : QualityOptions) (plan : CandidatePlan) (request : RetrievalRequest)
    (chunks : List RetrievedChunk) : Except RetrievalFailure (List RetrievedChunk) :=
  if quality.neighborExpansion ∧ quality.neighborWindow > 0 then
    expandNeighbors store engine request quality.neighborWindow plan.finalTopK chunks
  else .ok chunks

/-- Reranking, the quality strategies and the neighbours, as `retrieve` applies them. -/
def refineChunks (config : RetrievalConfig) (ranker : Reranker) (plan : CandidatePlan)
    (request : RetrievalRequest) (chunks : List RetrievedChunk) :
    Except RetrievalFailure (List RetrievedChunk) :=
  let quality := qualityOptionsFromConfig config
  let ranked := rankedChunks ranker plan request chunks
  (loadedParents store engine quality ranked).bind fun parents ↦
    withNeighbors store engine quality plan request
      (applyQualityStrategies engine.sha256 quality plan.finalTopK parents ranked)

end Lanes

/-! ### The cache -/

/-- `int(flag)`, as a text. -/
def flagDigit (flag : Bool) : String := if flag then "1" else "0"

/-- `strategy` of a plan, as a text. -/
def RetrievalStrategy.name : RetrievalStrategy → String
  | vector => "vector"
  | lexical => "lexical"
  | hybridRrf => "hybrid_rrf"

/-- `cache_variant_prefix`. -/
def CandidatePlan.cacheVariantPrefix (plan : CandidatePlan) : String :=
  plan.strategy.name ++ ":v" ++ toString plan.vectorLimit ++ ":l" ++ toString plan.lexicalLimit ++
    ":rrf" ++ toString plan.rrfK ++ ":rerank" ++ flagDigit plan.postRerank

/-- `pipeline_cache_variant_suffix`. -/
def pipelineCacheVariantSuffix : String :=
  parserVersion ++ ":" ++ chunkerVersion ++ ":" ++ embeddingSchemaVersion

/-- The variant under which `retrieve` caches. -/
def cacheVariant (config : RetrievalConfig) (plan : CandidatePlan) (activeVersionId : Uuid) : String :=
  plan.cacheVariantPrefix ++ ":" ++ config.embeddingProvider ++ ":" ++ config.embeddingModel ++ ":" ++
    toString config.embeddingDimensions ++ ":reranker=" ++ config.rerankerBackend ++ ":" ++
    pipelineCacheVariantSuffix ++ ":idx=" ++ toString activeVersionId ++ ":q=" ++
    flagDigit config.dedupExactEnabled ++ flagDigit config.dedupNearEnabled ++
    flagDigit config.mmrEnabled ++ flagDigit config.neighborExpansionEnabled ++
    flagDigit config.parentChildRetrievalEnabled ++ toString config.perDocumentLimit

/-- What an answer is cached under. -/
structure RetrievalKey where
  userId : String
  projectId : Option String
  organizationId : Option String
  query : String
  topK : ℤ
  filters : RetrievalFilters
  variant : String

/-- The key of a call. -/
def retrievalKey (config : RetrievalConfig) (plan : CandidatePlan) (request : RetrievalRequest)
    (filters : RetrievalFilters) : RetrievalKey :=
  ⟨request.userId, request.projectId, request.organizationId, request.query, plan.finalTopK, filters,
    cacheVariant config plan (filters.indexVersionId.getD 0)⟩

/-- The answers of the cache. -/
structure RetrievalCache where
  get : RetrievalKey → Except RetrievalFailure (Option (List RetrievedChunk))
  set : RetrievalKey → List RetrievedChunk → Except RetrievalFailure Unit

/-- A cache that holds nothing and takes everything. -/
def emptyCache : RetrievalCache := ⟨fun _ ↦ .ok none, fun _ _ ↦ .ok ()⟩

/-! ### The service -/

section Service

variable (store : RetrievalStore) (engine : SearchEngine) (cache : RetrievalCache)
  (config : RetrievalConfig)

/-- What a call on the store does not decide itself. -/
def storeWorld (ranker : Reranker) : RetrievalWorld where
  filterDocumentIds := store.filterDocumentIdsForUser
  catalogFails := engine.catalogFails
  getCached _ plan request filters := cache.get (retrievalKey config plan request filters)
  setCached _ plan request filters chunks := cache.set (retrievalKey config plan request filters) chunks
  embedTexts := engine.embedTexts
  canIndexEmbedding := engine.canIndexEmbedding
  embeddingIsIndexable := engine.embeddingIsIndexable
  pgvectorUnready := engine.pgvectorUnready
  vectorRows := vectorRows store engine config.scoreThreshold
  lexicalSearchIndexed request filters limit := .ok (lexicalRows store engine request filters limit)
  reciprocalRankFuse := reciprocalRankFuse
  refine _ := refineChunks store engine config ranker
  canIndexEmbedding_length := engine.canIndexEmbedding_length
  embeddingIsIndexable_length := engine.embeddingIsIndexable_length

/-- `RetrievalService(db, config).retrieve(…)`. The reranker is built first. -/
def retrieveFrom (request : RetrievalRequest) : Except String RetrievalRun :=
  (buildReranker config.rerankEnabled config.rerankerBackend).bind fun ranker ↦
    retrieve (storeWorld store engine cache config ranker) config.toRagConfig store.versions request

end Service

end GenericApp
