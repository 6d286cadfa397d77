import GenericApp.Rag.ChunkingService
import GenericApp.Rag.IndexVersions

/-!
# Retrieval

`RetrievalService.retrieve`: the plan of a call, the active index version, the embedding of the query,
the two lanes, and the ways in which a call ends without chunks.

The cache, the provider, the two SQL searches and what is done to their rows afterwards (fusing,
reranking, the quality strategies) are gathered in `RetrievalWorld`. Any of them may fail as the code
allows for. The answer of a call comes with a record of what it embedded and which version it searched.
-/

namespace GenericApp

open Py

/-! ### The candidate plan -/

/-- `RETRIEVAL_STRATEGIES`. -/
inductive RetrievalStrategy
  | vector | lexical | hybridRrf
  deriving DecidableEq, Repr

/-- `normalize_retrieval_strategy`. -/
def normalizeRetrievalStrategy (value : Option String) : Except String RetrievalStrategy :=
  let strategy := lower (strip (orStr value "hybrid_rrf"))
  if strategy = "vector" then .ok .vector
  else if strategy = "lexical" then .ok .lexical
  else if strategy = "hybrid_rrf" then .ok .hybridRrf
  else .error ("Unknown retrieval strategy '" ++ value.getD "" ++
    "'; expected one of ['hybrid_rrf', 'lexical', 'vector']")

/-- `CandidatePlan`. -/
structure CandidatePlan where
  strategy : RetrievalStrategy
  vectorLimit : ℤ
  lexicalLimit : ℤ
  fuseLimit : ℤ
  finalTopK : ℤ
  rrfK : ℤ
  postRerank : Bool
  needsEmbedding : Bool
  deriving DecidableEq, Repr

/-- `_MAX_CANDIDATES` -/
def maxCandidates : ℤ := 50

/-- `_DEFAULT_RRF_K` -/
def defaultRrfK : ℤ := 60

/-- `resolve_candidate_plan`. -/
def resolveCandidatePlan (config : RagConfig) (topK : ℤ) (strategy : Option String) :
    Except String CandidatePlan :=
  (normalizeRetrievalStrategy (some (strategy.getD config.retrievalStrategy))).map fun strategy ↦
    let multiplier := max 1 (orInt config.rerankCandidateMultiplier 1)
    let postRerank := config.rerankEnabled
    let derived :=
      if strategy = .hybridRrf || postRerank then min maxCandidates (topK * multiplier) else topK
    let laneLimit (explicit : ℤ) : ℤ := if explicit > 0 then min maxCandidates explicit else derived
    let vectorLimit := if strategy = .lexical then 0 else laneLimit config.vectorCandidateCount
    let lexicalLimit := if strategy = .vector then 0 else laneLimit config.lexicalCandidateCount
    { strategy := strategy
      vectorLimit := vectorLimit
      lexicalLimit := lexicalLimit
      fuseLimit := max (max vectorLimit lexicalLimit) topK
      finalTopK := topK
      rrfK := max 1 (orInt config.rrfK defaultRrfK)
      postRerank := postRerank && decide (strategy ≠ .lexical)
      needsEmbedding := decide (strategy ≠ .lexical) }

/-! ### Calls and answers -/

/-- An embedding. -/
abbrev Embedding := List ℚ

/-- `RetrievedChunk`. -/
structure RetrievedChunk where
  chunkId : Uuid
  documentId : Uuid
  content : String
  score : ℚ
  filename : String
  chunkIndex : ℕ
  pageNumber : Option ℤ
  metadata : Dict

/-- `RetrievalOutcome`. -/
structure RetrievalOutcome where
  chunks : List RetrievedChunk
  degraded : Bool := false
  degradationReason : Option String := none
  noMatches : Bool := false
  injectionChunksFiltered : ℕ := 0

/-- The filters of a call, without and with the index version. -/
structure RetrievalFilters where
  documentIds : List Uuid
  sourceType : Option String
  indexVersionId : Option Uuid

/-- The arguments of `retrieve`. -/
structure RetrievalRequest where
  query : String
  userId : String
  projectId : Option String
  organizationId : Option String
  topK : Option ℤ
  filters : RetrievalFilters
  strategy : Option String

/-- `top_k or self.config.top_k`. -/
def RetrievalRequest.resolvedTopK (request : RetrievalRequest) (config : RagConfig) : ℤ :=
  orInt (request.topK.getD 0) config.topK

/-- What is raised while a call searches. -/
inductive RetrievalFailure
  | pgVectorUnavailable (reason : String)
  | other
  deriving DecidableEq, Repr

/-- What a call does not decide itself. Of the two checks of an embedding the code relies on what they
are named for: the one passes no other dimension than the expected one, the other none that the vector
column does not have. -/
structure RetrievalWorld where
  /-- `filter_document_ids_for_user` -/
  filterDocumentIds : RetrievalRequest → List Uuid → List Uuid
  /-- Whether the query for the active version raises. -/
  catalogFails : Bool
  /-- `get_cached_retrieval` -/
  getCached : RagConfig → CandidatePlan → RetrievalRequest → RetrievalFilters →
    Except RetrievalFailure (Option (List RetrievedChunk))
  /-- `set_cached_retrieval` -/
  setCached : RagConfig → CandidatePlan → RetrievalRequest → RetrievalFilters →
    List RetrievedChunk → Except RetrievalFailure Unit
  /-- `embed_texts` -/
  embedTexts : EmbeddingCall → List String → Except RetrievalFailure (List Embedding)
  /-- `can_index_embedding` -/
  canIndexEmbedding : Embedding → ℤ → Bool
  /-- `embedding_is_indexable` -/
  embeddingIsIndexable : Embedding → Bool
  /-- The reason for which pgvector is not ready. -/
  pgvectorUnready : Option String
  /-- The rows of the vector search. -/
  vectorRows : RetrievalRequest → RetrievalFilters → Embedding → ℤ →
    Except RetrievalFailure (List RetrievedChunk)
  /-- `lexical_search_indexed` -/
  lexicalSearchIndexed : RetrievalRequest → RetrievalFilters → ℤ →
    Except RetrievalFailure (List RetrievedChunk)
  /-- `reciprocal_rank_fuse` -/
  reciprocalRankFuse : List (List RetrievedChunk) → ℤ → ℤ → List RetrievedChunk
  /-- Reranking, the quality strategies and the neighbours. -/
  refine : RagConfig → CandidatePlan → RetrievalRequest → List RetrievedChunk →
    Except RetrievalFailure (List RetrievedChunk)
  canIndexEmbedding_length : ∀ embedding dimensions,
    canIndexEmbedding embedding dimensions = true → (embedding.length : ℤ) = dimensions
  embeddingIsIndexable_length : ∀ embedding,
    embeddingIsIndexable embedding = true → (embedding.length : ℤ) = ragVectorDimensions

/-- The answer of a call, the embedding call it made and the version it searched. -/
structure RetrievalRun where
  embedded : Option EmbeddingCall
  searched : Option Uuid
  outcome : RetrievalOutcome

/-! ### The service -/

/-- A degraded outcome. -/
def degradedOutcome (reason : String) : RetrievalOutcome :=
  { chunks := [], degraded := true, degradationReason := some reason }

/-- The outcome of a call that raises while it searches. -/
def RetrievalFailure.outcome : RetrievalFailure → RetrievalOutcome
  | pgVectorUnavailable reason => degradedOutcome ("pgvector_" ++ reason)
  | other => degradedOutcome "retrieval_failed"

/-- `_deduplicate_chunks`: the first place of an id, and the best of its rows. -/
def deduplicateChunks (chunks : List RetrievedChunk) : List RetrievedChunk :=
  chunks.foldl (fun kept chunk ↦
    if kept.any fun k ↦ k.chunkId = chunk.chunkId then
      kept.map fun k ↦ if k.chunkId = chunk.chunkId ∧ k.score < chunk.score then chunk else k
    else kept ++ [chunk]) []

/-- `exclude_injection_flagged_chunks`. -/
def excludeInjectionFlaggedChunks (chunks : List RetrievedChunk) : List RetrievedChunk × ℕ :=
  let kept := chunks.filter fun chunk ↦
    !(Dict.get chunk.metadata "prompt_injection_suspected").truthy
  (kept, chunks.length - kept.length)

section Service

variable (world : RetrievalWorld) (config : RagConfig)

/-- `similarity_search`, of the adapter and of `chunk_search`. -/
def similaritySearch (request : RetrievalRequest) (filters : RetrievalFilters)
    (embedding : Option Embedding) (topK : ℤ) : Except RetrievalFailure (List RetrievedChunk) :=
  match embedding with
  | none => .error (.pgVectorUnavailable "query_embedding_missing")
  | some embedding =>
    match world.pgvectorUnready with
    | some reason => .error (.pgVectorUnavailable reason)
    | none =>
      if world.embeddingIsIndexable embedding then world.vectorRows request filters embedding topK
      else .error (.pgVectorUnavailable "query_dimension_mismatch")

/-- `_retrieve_candidates`. -/
def retrieveCandidates (plan : CandidatePlan) (request : RetrievalRequest)
    (filters : RetrievalFilters) (embedding : Option Embedding) :
    Except RetrievalFailure (List RetrievedChunk) :=
  match plan.strategy with
  | .vector => similaritySearch world request filters embedding plan.vectorLimit
  | .lexical => world.lexicalSearchIndexed request filters plan.lexicalLimit
  | .hybridRrf =>
    match similaritySearch world request filters embedding plan.vectorLimit with
    | .error failure => .error failure
    | .ok vectorChunks =>
      -- Without the lexical lane the vector lane stands alone.
      let lexicalChunks := match world.lexicalSearchIndexed request filters plan.lexicalLimit with
        | .ok chunks => chunks
        | .error _ => []
      if lexicalChunks.isEmpty then .ok (takeTo plan.fuseLimit vectorChunks)
      else .ok (world.reciprocalRankFuse [vectorChunks, lexicalChunks] plan.fuseLimit plan.rrfK)

/-- The outcome of the candidates, which is cached unless some of them were suspicious. -/
def finishRetrieval (plan : CandidatePlan) (request : RetrievalRequest) (filters : RetrievalFilters)
    (candidates : List RetrievedChunk) : Except RetrievalFailure RetrievalOutcome := do
  let raw := deduplicateChunks candidates
  let raw := if plan.postRerank then raw else takeTo (max plan.finalTopK plan.fuseLimit) raw
  let (kept, removed) := excludeInjectionFlaggedChunks raw
  let chunks ← world.refine config plan request kept
  if removed = 0 then world.setCached config plan request filters chunks
  .ok { chunks := chunks
        noMatches := chunks.isEmpty
        injectionChunksFiltered := removed
        degradationReason :=
          if chunks.isEmpty && !raw.isEmpty && removed = raw.length then
            some "injection_filtered_all_matches"
          else none }

/-- The outcome of a cached answer. -/
def cachedOutcome (cached : List RetrievedChunk) : RetrievalOutcome :=
  let (chunks, removed) := excludeInjectionFlaggedChunks (deduplicateChunks cached)
  { chunks := chunks, noMatches := chunks.isEmpty, injectionChunksFiltered := removed }

/-- The outcome of a search with the embedding of the query, if the plan has one. -/
def searchOutcome (plan : CandidatePlan) (request : RetrievalRequest) (filters : RetrievalFilters)
    (embedding : Option Embedding) : RetrievalOutcome :=
  match retrieveCandidates world plan request filters embedding with
  | .error failure => failure.outcome
  | .ok candidates =>
    match finishRetrieval world config plan request filters candidates with
    | .error failure => failure.outcome
    | .ok outcome => outcome

/-- The outcome of a search whose plan needs the embedding of the query. -/
def embeddedOutcome (plan : CandidatePlan) (request : RetrievalRequest) (filters : RetrievalFilters) :
    RetrievalOutcome :=
  match world.embedTexts (embeddingCall config) [request.query] with
  | .error failure => failure.outcome
  | .ok [] => RetrievalFailure.other.outcome
  | .ok (embedding :: _) =>
    if world.canIndexEmbedding embedding config.embeddingDimensions then
      searchOutcome world config plan request filters (some embedding)
    else degradedOutcome "embedding_dimension_mismatch"

/-- The search for a plan in an index version. -/
def searchVersion (plan : CandidatePlan) (request : RetrievalRequest) (filters : RetrievalFilters)
    (versionId : Uuid) : RetrievalRun :=
  let filters := { filters with indexVersionId := some versionId }
  match world.getCached config plan request filters with
  | .error failure => ⟨none, some versionId, failure.outcome⟩
  | .ok (some cached) => ⟨none, some versionId, cachedOutcome cached⟩
  | .ok none =>
    if plan.needsEmbedding then
      ⟨some (embeddingCall config), some versionId, embeddedOutcome world config plan request filters⟩
    else ⟨none, some versionId, searchOutcome world config plan request filters none⟩

/-- The filters that are searched with, unless none of the requested documents are the user's. -/
def effectiveFilters (request : RetrievalRequest) : Option RetrievalFilters :=
  if request.filters.documentIds.isEmpty then some request.filters
  else
    let valid := world.filterDocumentIds request request.filters.documentIds.eraseDups
    if valid.isEmpty then none else some { request.filters with documentIds := valid }

/-- `retrieve`. -/
def retrieve (T : VersionTable) (request : RetrievalRequest) : Except String RetrievalRun :=
  if config.enabled then
    (resolveCandidatePlan config (request.resolvedTopK config) request.strategy).map fun plan ↦
      match effectiveFilters world request with
      | none => ⟨none, none, { chunks := [], noMatches := true }⟩
      | some filters =>
        match if world.catalogFails then none else getActiveVersion T with
        | none => ⟨none, none, degradedOutcome "no_active_index_version"⟩
        | some active => searchVersion world config plan request filters active.id
  else .ok ⟨none, none, { chunks := [] }⟩

end Service

end GenericApp
