import GenericApp.Rag.RetrievalScope

/-!
# What the key of a cached answer leaves out

An answer is cached under the user, the project, the organization, the query, `top_k`, the filters and a
variant, a text with the plan, the provider, the model, the dimensions, the reranker, the index version
and the switches of the quality strategies. A call with the same key gets the chunks back.

* `served_is_computed`: it gets what it would have computed, whatever the engine does, if the two
  configurations also agree on the numbers that the variant leaves out and the search reads, and no
  flagged row is among the first rows beside a row that the call can find.
* `served_is_stale`: two configurations with one key and different windows of neighbours.

The fields of the variant are joined by colons, which a provider or a model may contain as well; so they
are on the list of what has to agree.
-/

namespace GenericApp

open Py

/-! ### The variant, field by field -/

/-- The part of the variant that identifies the embeddings and the reranker. -/
def variantIdentity (config : RetrievalConfig) : List Char :=
  config.embeddingProvider.toList ++ ':' :: (config.embeddingModel.toList ++
    ':' :: ((toString config.embeddingDimensions).toList ++
      ':' :: ("reranker=" ++ config.rerankerBackend).toList))

/-- The part of the variant with the index version. -/
def variantVersion (activeVersionId : Uuid) : List Char :=
  (":" ++ pipelineCacheVariantSuffix ++ ":idx=" ++ toString activeVersionId).toList

/-- The switches, as a text. -/
def variantSwitches (config : RetrievalConfig) : List Char :=
  (flagDigit config.dedupExactEnabled).toList ++ (flagDigit config.dedupNearEnabled).toList ++
    (flagDigit config.mmrEnabled).toList ++ (flagDigit config.neighborExpansionEnabled).toList ++
    (flagDigit config.parentChildRetrievalEnabled).toList

/-- The last part of the variant. -/
def variantQuality (config : RetrievalConfig) : List Char :=
  "q=".toList ++ (variantSwitches config ++ (toString config.perDocumentLimit).toList)

/-- The variant, cut at colons. -/
theorem toList_cacheVariant (config : RetrievalConfig) (plan : CandidatePlan) (activeVersionId : Uuid) :
    (cacheVariant config plan activeVersionId).toList =
      plan.strategy.name.toList ++ ':' :: (("v" ++ toString plan.vectorLimit).toList ++
        ':' :: (("l" ++ toString plan.lexicalLimit).toList ++
          ':' :: (("rrf" ++ toString plan.rrfK).toList ++
            ':' :: (("rerank" ++ flagDigit plan.postRerank).toList ++
              ':' :: ((variantIdentity config ++ variantVersion activeVersionId) ++
                ':' :: variantQuality config))))) := by
  have hcolon : ":".toList = [':'] := rfl
  have hcut : ":v".toList = ':' :: "v".toList ∧ ":l".toList = ':' :: "l".toList ∧
      ":rrf".toList = ':' :: "rrf".toList ∧ ":rerank".toList = ':' :: "rerank".toList ∧
      ":reranker=".toList = ':' :: "reranker=".toList ∧ ":q=".toList = ':' :: "q=".toList :=
    ⟨rfl, rfl, rfl, rfl, rfl, rfl⟩
  obtain ⟨hvector, hlexical, hrrf, hrerank, hreranker, hquality⟩ := hcut
  unfold cacheVariant CandidatePlan.cacheVariantPrefix variantIdentity variantVersion variantQuality
    variantSwitches
  -- The suffix is left closed: it is a text that could be computed.
  generalize pipelineCacheVariantSuffix = suffix
  simp only [String.toList_append, List.append_assoc, hcolon, hvector, hlexical, hrrf, hrerank,
    hreranker, hquality, List.cons_append, List.nil_append]

theorem toList_flagDigit (flag : Bool) : (flagDigit flag).toList = [if flag then '1' else '0'] := by
  match flag with
  | true => rfl
  | false => rfl

theorem flagDigit_injective {a b : Bool} (h : (flagDigit a).toList = (flagDigit b).toList) : a = b := by
  match a, b with
  | true, true | false, false => rfl
  | true, false | false, true => exact absurd h (by decide)

theorem RetrievalStrategy.name_injective {a b : RetrievalStrategy} (h : a.name.toList = b.name.toList) :
    a = b := by
  revert h
  match a, b with
  | .vector, .vector | .lexical, .lexical | .hybridRrf, .hybridRrf => exact fun _ ↦ rfl
  | .vector, .lexical | .vector, .hybridRrf | .lexical, .vector | .lexical, .hybridRrf
  | .hybridRrf, .vector | .hybridRrf, .lexical => decide

/-- No colon stands in a field of the plan. -/
theorem colon_notMem_plan (plan : CandidatePlan) :
    ':' ∉ plan.strategy.name.toList ∧ ':' ∉ ("v" ++ toString plan.vectorLimit).toList ∧
      ':' ∉ ("l" ++ toString plan.lexicalLimit).toList ∧ ':' ∉ ("rrf" ++ toString plan.rrfK).toList ∧
        ':' ∉ ("rerank" ++ flagDigit plan.postRerank).toList := by
  have hnumber : ∀ n : ℤ, ':' ∉ (toString n).toList := notMem_toString (by decide)
  have hname : ':' ∉ plan.strategy.name.toList := by
    match plan.strategy with
    | .vector | .lexical | .hybridRrf => decide
  have hflag : ':' ∉ (flagDigit plan.postRerank).toList := by
    match plan.postRerank with
    | true | false => decide
  simp only [String.toList_append, List.mem_append, not_or]
  exact ⟨hname, ⟨by decide, hnumber _⟩, ⟨by decide, hnumber _⟩, ⟨by decide, hnumber _⟩,
    by decide, hflag⟩

/-- Nor in the quality part. -/
theorem colon_notMem_quality (config : RetrievalConfig) : ':' ∉ variantQuality config := by
  have hflag : ∀ flag, ':' ∉ (flagDigit flag).toList := by
    intro flag
    match flag with
    | true | false => decide
  simp only [variantQuality, variantSwitches, List.mem_append, not_or]
  exact ⟨by decide, ⟨⟨⟨⟨hflag _, hflag _⟩, hflag _⟩, hflag _⟩, hflag _⟩, notMem_toString (by decide) _⟩

/-- The fields of the plan that the variant tells. -/
structure PlansAgree (p₁ p₂ : CandidatePlan) : Prop where
  strategy : p₁.strategy = p₂.strategy
  vectorLimit : p₁.vectorLimit = p₂.vectorLimit
  lexicalLimit : p₁.lexicalLimit = p₂.lexicalLimit
  rrfK : p₁.rrfK = p₂.rrfK
  postRerank : p₁.postRerank = p₂.postRerank

/-- The switches and the limit for a document. -/
structure SwitchesAgree (c₁ c₂ : RetrievalConfig) : Prop where
  exactDedup : c₁.dedupExactEnabled = c₂.dedupExactEnabled
  nearDedup : c₁.dedupNearEnabled = c₂.dedupNearEnabled
  mmr : c₁.mmrEnabled = c₂.mmrEnabled
  neighbors : c₁.neighborExpansionEnabled = c₂.neighborExpansionEnabled
  parents : c₁.parentChildRetrievalEnabled = c₂.parentChildRetrievalEnabled
  perDocument : c₁.perDocumentLimit = c₂.perDocumentLimit

section Variant

variable {c₁ c₂ : RetrievalConfig} {p₁ p₂ : CandidatePlan} {v : Uuid}

theorem switchesAgree_of_variantQuality (h : variantQuality c₁ = variantQuality c₂) :
    SwitchesAgree c₁ c₂ := by
  have h := List.append_cancel_left h
  obtain ⟨hswitches, hlimit⟩ := List.append_inj h (by
    simp only [variantSwitches, toList_flagDigit, List.length_append, List.length_singleton])
  have hpairs : ∀ {s s' : List Char} {a b : Bool},
      s ++ (flagDigit a).toList = s' ++ (flagDigit b).toList → s = s' ∧ a = b := by
    intro s s' a b heq
    obtain ⟨hs, hab⟩ := List.append_inj' heq (by rw [toList_flagDigit, toList_flagDigit]; rfl)
    exact ⟨hs, flagDigit_injective hab⟩
  obtain ⟨hswitches, hparents⟩ := hpairs hswitches
  obtain ⟨hswitches, hneighbors⟩ := hpairs hswitches
  obtain ⟨hswitches, hmmr⟩ := hpairs hswitches
  obtain ⟨hexact, hnear⟩ := hpairs hswitches
  exact ⟨flagDigit_injective hexact, hnear, hmmr, hneighbors, hparents, toString_injective hlimit⟩

/-- **What a variant tells**: the plan and the switches, and the identity as a text. -/
theorem agree_of_cacheVariant (h : cacheVariant c₁ p₁ v = cacheVariant c₂ p₂ v) :
    PlansAgree p₁ p₂ ∧ SwitchesAgree c₁ c₂ ∧ variantIdentity c₁ = variantIdentity c₂ := by
  have hlist := congrArg String.toList h
  rw [toList_cacheVariant, toList_cacheVariant] at hlist
  obtain ⟨hname₁, hvector₁, hlexical₁, hrrf₁, hrerank₁⟩ := colon_notMem_plan p₁
  obtain ⟨hname₂, hvector₂, hlexical₂, hrrf₂, hrerank₂⟩ := colon_notMem_plan p₂
  obtain ⟨hname, hlist⟩ := cons_append_inj_of_notMem hname₁ hname₂ hlist
  obtain ⟨hvector, hlist⟩ := cons_append_inj_of_notMem hvector₁ hvector₂ hlist
  obtain ⟨hlexical, hlist⟩ := cons_append_inj_of_notMem hlexical₁ hlexical₂ hlist
  obtain ⟨hrrf, hlist⟩ := cons_append_inj_of_notMem hrrf₁ hrrf₂ hlist
  obtain ⟨hrerank, hlist⟩ := cons_append_inj_of_notMem hrerank₁ hrerank₂ hlist
  obtain ⟨hidentity, hquality⟩ :=
    append_cons_inj_of_notMem (colon_notMem_quality c₁) (colon_notMem_quality c₂) hlist
  simp only [String.toList_append] at hvector hlexical hrrf hrerank
  refine ⟨⟨RetrievalStrategy.name_injective hname, ?_, ?_, ?_, ?_⟩,
    switchesAgree_of_variantQuality hquality, List.append_cancel_right hidentity⟩
  · exact toString_injective (List.append_cancel_left hvector)
  · exact toString_injective (List.append_cancel_left hlexical)
  · exact toString_injective (List.append_cancel_left hrrf)
  · exact flagDigit_injective (List.append_cancel_left hrerank)

/-- Where the provider and the model are the same, so are the dimensions and the reranker. -/
theorem agree_of_variantIdentity (h : variantIdentity c₁ = variantIdentity c₂)
    (hprovider : c₁.embeddingProvider = c₂.embeddingProvider)
    (hmodel : c₁.embeddingModel = c₂.embeddingModel) :
    c₁.embeddingDimensions = c₂.embeddingDimensions ∧ c₁.rerankerBackend = c₂.rerankerBackend := by
  have hcolon : ∀ n : ℤ, ':' ∉ (toString n).toList := notMem_toString (by decide)
  rw [variantIdentity, variantIdentity, hprovider, hmodel] at h
  have h := (List.cons.inj (List.append_cancel_left (List.cons.inj (List.append_cancel_left h)).2)).2
  obtain ⟨hdimensions, hbackend⟩ := cons_append_inj_of_notMem (hcolon _) (hcolon _) h
  rw [String.toList_append, String.toList_append] at hbackend
  exact ⟨toString_injective hdimensions, String.toList_inj.1 (List.append_cancel_left hbackend)⟩

end Variant

/-! ### What a search reads -/

/-- The options are the same where they are read. -/
structure QualityAgree (o₁ o₂ : QualityOptions) : Prop where
  exactDedup : o₁.exactDedup = o₂.exactDedup
  nearDedup : o₁.nearDedup = o₂.nearDedup
  nearThreshold : o₁.nearDedup = true → o₁.nearDedupThreshold = o₂.nearDedupThreshold
  perDocument : o₁.perDocumentLimit = o₂.perDocumentLimit
  mmr : o₁.mmrEnabled = o₂.mmrEnabled
  lambda : o₁.mmrEnabled = true → o₁.mmrLambda = o₂.mmrLambda
  neighbors : o₁.neighborExpansion = o₂.neighborExpansion
  window : o₁.neighborExpansion = true → o₁.neighborWindow = o₂.neighborWindow
  parents : o₁.parentChildExpand = o₂.parentChildExpand

/-- The configurations and their rerankers are the same where a search for the plan reads them. -/
structure ReadAlike (c₁ c₂ : RetrievalConfig) (ranker₁ ranker₂ : Reranker) (plan : CandidatePlan) :
    Prop where
  call : plan.needsEmbedding = true → embeddingCall c₁.toRagConfig = embeddingCall c₂.toRagConfig
  threshold : plan.strategy ≠ .lexical → c₁.scoreThreshold = c₂.scoreThreshold
  ranker : plan.postRerank = true → ranker₁ = ranker₂
  quality : QualityAgree (qualityOptionsFromConfig c₁) (qualityOptionsFromConfig c₂)

/-- The requests ask the same for the same user. -/
structure RetrievalRequest.Matches (request other : RetrievalRequest) : Prop where
  query : request.query = other.query
  user : request.userId = other.userId
  project : request.projectId = other.projectId
  organization : request.organizationId = other.organizationId

section Congruence

variable {store : RetrievalStore} {engine : SearchEngine} {c₁ c₂ : RetrievalConfig}
  {ranker₁ ranker₂ : Reranker} {plan : CandidatePlan} {request : RetrievalRequest}
  {filters : RetrievalFilters} {other : RetrievalRequest}

theorem applyQualityStrategies_congr {o₁ o₂ : QualityOptions} (h : QualityAgree o₁ o₂)
    (sha256 : String → String) (finalLimit : ℤ) (parents : ParentTexts) (chunks : List RetrievedChunk) :
    applyQualityStrategies sha256 o₁ finalLimit parents chunks =
      applyQualityStrategies sha256 o₂ finalLimit parents chunks := by
  have hnear : ∀ c, (if o₁.nearDedup then nearDeduplicate o₁.nearDedupThreshold c else c) =
      if o₂.nearDedup then nearDeduplicate o₂.nearDedupThreshold c else c := by
    intro c
    rw [← h.nearDedup]
    split
    · next hon => rw [h.nearThreshold hon]
    · rfl
  have hmmr : ∀ c, (if o₁.mmrEnabled then mmrSelect finalLimit o₁.mmrLambda c else c) =
      if o₂.mmrEnabled then mmrSelect finalLimit o₂.mmrLambda c else c := by
    intro c
    rw [← h.mmr]
    split
    · next hon => rw [h.lambda hon]
    · rfl
  simp only [applyQualityStrategies, hnear, hmmr, h.exactDedup, h.perDocument, h.parents]

theorem withNeighbors_congr {o₁ o₂ : QualityOptions} (h : QualityAgree o₁ o₂)
    (hasks : request.Matches other) (chunks : List RetrievedChunk) :
    withNeighbors store engine o₁ plan request chunks =
      withNeighbors store engine o₂ plan other chunks := by
  have hrows : ∀ window, neighborRows store engine request window chunks =
      neighborRows store engine other window chunks := by
    intro window
    simp only [neighborRows, visibleTo, hasks.user, hasks.organization]
  rw [withNeighbors, withNeighbors, ← h.neighbors]
  by_cases hon : o₁.neighborExpansion = true
  · simp only [h.window hon, expandNeighbors, hrows]
  · simp only [hon, Bool.false_eq_true, false_and, if_false]

/-- What becomes of the candidates. -/
theorem refineChunks_congr (h : ReadAlike c₁ c₂ ranker₁ ranker₂ plan) (hasks : request.Matches other)
    (chunks : List RetrievedChunk) :
    refineChunks store engine c₁ ranker₁ plan request chunks =
      refineChunks store engine c₂ ranker₂ plan other chunks := by
  have hranked : rankedChunks ranker₁ plan request chunks =
      rankedChunks ranker₂ plan other chunks := by
    rw [rankedChunks, rankedChunks, hasks.query]
    split
    · next hrerank => rw [h.ranker hrerank]
    · rfl
  have hloaded : ∀ c, loadedParents store engine (qualityOptionsFromConfig c₁) c =
      loadedParents store engine (qualityOptionsFromConfig c₂) c := by
    intro c
    rw [loadedParents, loadedParents, h.quality.parents]
  rw [refineChunks, refineChunks, hranked]
  simp only [hloaded, applyQualityStrategies_congr h.quality, withNeighbors_congr h.quality hasks]

/-- The candidates. -/
theorem retrieveCandidates_congr (h : ReadAlike c₁ c₂ ranker₁ ranker₂ plan)
    (hasks : request.Matches other) (embedding : Option Embedding) :
    retrieveCandidates (storeWorld store engine emptyCache c₁ ranker₁) plan request filters embedding =
      retrieveCandidates (storeWorld store engine emptyCache c₂ ranker₂) plan other filters
        embedding := by
  have hscope : searchScope request filters = searchScope other filters := by
    rw [searchScope, searchScope, hasks.user, hasks.project, hasks.organization]
  have hvector : plan.strategy ≠ .lexical →
      similaritySearch (storeWorld store engine emptyCache c₁ ranker₁) request filters embedding
        plan.vectorLimit =
      similaritySearch (storeWorld store engine emptyCache c₂ ranker₂) other filters embedding
        plan.vectorLimit := by
    intro hstrategy
    simp only [similaritySearch, storeWorld, vectorRows, hscope, h.threshold hstrategy]
    rfl
  have hlexical : (storeWorld store engine emptyCache c₁ ranker₁).lexicalSearchIndexed request filters
      plan.lexicalLimit = (storeWorld store engine emptyCache c₂ ranker₂).lexicalSearchIndexed other
        filters plan.lexicalLimit := by
    simp only [storeWorld, lexicalRows, hscope, hasks.query]
  rw [retrieveCandidates, retrieveCandidates]
  split
  · next hstrategy => exact hvector (by rw [hstrategy]; decide)
  · exact hlexical
  · next hstrategy =>
    rw [hvector (by rw [hstrategy]; decide), hlexical]
    rfl

/-- **A search sees of the configurations what it reads.** -/
theorem computedOutcome_congr (h : ReadAlike c₁ c₂ ranker₁ ranker₂ plan)
    (hasks : request.Matches other) :
    computedOutcome (storeWorld store engine emptyCache c₁ ranker₁) c₁.toRagConfig plan request filters =
      computedOutcome (storeWorld store engine emptyCache c₂ ranker₂) c₂.toRagConfig plan other
        filters := by
  have hfinish : ∀ candidates,
      finishRetrieval (storeWorld store engine emptyCache c₁ ranker₁) c₁.toRagConfig plan request filters
        candidates =
      finishRetrieval (storeWorld store engine emptyCache c₂ ranker₂) c₂.toRagConfig plan other filters
        candidates := by
    intro candidates
    rw [finishRetrieval_eq, finishRetrieval_eq]
    exact congrArg (Except.bind · _) (refineChunks_congr h hasks _)
  have hsearch : ∀ embedding,
      searchOutcome (storeWorld store engine emptyCache c₁ ranker₁) c₁.toRagConfig plan request filters
        embedding =
      searchOutcome (storeWorld store engine emptyCache c₂ ranker₂) c₂.toRagConfig plan other filters
        embedding := by
    intro embedding
    rw [searchOutcome, searchOutcome, ← retrieveCandidates_congr h hasks]
    simp only [hfinish]
  rw [computedOutcome, computedOutcome]
  split
  · next hneeds =>
    have hcall := h.call hneeds
    have hdimensions : c₁.embeddingDimensions = c₂.embeddingDimensions :=
      congrArg EmbeddingCall.dimensions hcall
    rw [embeddedOutcome, embeddedOutcome, hcall, hdimensions, hasks.query]
    simp only [hsearch]
    rfl
  · exact hsearch none

end Congruence

/-! ### What is stored -/

/-- The chunks and what is said of them are the same. -/
structure RetrievalOutcome.SameAnswer (a b : RetrievalOutcome) : Prop where
  chunks : a.chunks = b.chunks
  noMatches : a.noMatches = b.noMatches
  filtered : a.injectionChunksFiltered = b.injectionChunksFiltered

/-- No flagged row is among the first rows beside a row that the call can find. -/
def FlaggedNotBeside (store : RetrievalStore) (config : RetrievalConfig) (request : RetrievalRequest)
    (plan : CandidatePlan) (filters : RetrievalFilters) : Prop :=
  config.neighborExpansionEnabled = true → ∀ row, Found store config request plan filters row →
    ∀ neighbor ∈ (Beside store config request row).take (plan.finalTopK - 1).toNat,
      flagged neighbor.metadata = false

section Stored

variable {store : RetrievalStore} {engine : SearchEngine} {cache : RetrievalCache}
  {config : RetrievalConfig} {ranker : Reranker} {plan : CandidatePlan} {request : RetrievalRequest}
  {filters : RetrievalFilters} {kept chunks : List RetrievedChunk}

theorem flagged_expandChunk (parents : ParentTexts) (chunk : RetrievedChunk) :
    flagged (expandChunk parents chunk).metadata = flagged chunk.metadata := by
  rw [flagged, get_expandChunk parents chunk (by decide), flagged]

theorem flagged_asNeighbor (row : StoredChunk) :
    flagged (asNeighbor row.toNeighbor).metadata = flagged row.metadata := by
  rw [flagged, asNeighbor, Dict.get_put_of_ne (by decide), flagged]
  rfl

/-- What is kept of the candidates has different ids. -/
theorem nodup_kept (plan : CandidatePlan) (candidates : List RetrievedChunk) :
    ((excludeInjectionFlaggedChunks (candidatePool plan candidates)).1.map
      RetrievedChunk.chunkId).Nodup := by
  have hpool : ((candidatePool plan candidates).map RetrievedChunk.chunkId).Nodup := by
    rw [candidatePool]
    split
    · exact nodup_deduplicateChunks candidates
    · exact (nodup_deduplicateChunks candidates).sublist ((takeTo_sublist _ _).map _)
  exact hpool.sublist (List.filter_sublist.map _)

/-- And so has what becomes of it. -/
theorem nodup_refineChunks (hids : (kept.map RetrievedChunk.chunkId).Nodup)
    (h : refineChunks store engine config ranker plan request kept = .ok chunks) :
    (chunks.map RetrievedChunk.chunkId).Nodup := by
  rw [refineChunks] at h
  obtain ⟨parents, -, h⟩ := eq_ok_of_bind h
  have hselected := nodup_applyQualityStrategies engine.sha256 (qualityOptionsFromConfig config)
    plan.finalTopK parents (nodup_ids_of_subperm (rankedChunks_subperm ranker plan request kept) hids)
  rw [withNeighbors] at h
  split at h
  · rw [expandNeighbors] at h
    split at h
    · obtain rfl := Except.ok.inj h
      exact hselected.sublist ((takeTo_sublist _ _).map _)
    · split at h
      · cases h
      · obtain rfl := Except.ok.inj h
        exact nodup_mergeNeighborChunks _ hselected _
  · obtain rfl := Except.ok.inj h
    exact hselected

/-- A flag can only come in with a neighbour. -/
theorem unflagged_refineChunks (hbeside : FlaggedNotBeside store config request plan filters)
    (hunflagged : ∀ c ∈ kept, flagged c.metadata = false)
    (hfound : ∀ c ∈ kept, plan.finalTopK ≠ 0 →
      ∃ row, Found store config request plan filters row ∧ ShowsRow row c)
    (h : refineChunks store engine config ranker plan request kept = .ok chunks) :
    ∀ c ∈ chunks, flagged c.metadata = false := by
  rw [refineChunks] at h
  obtain ⟨parents, hparents, h⟩ := eq_ok_of_bind h
  have hsource := (rankedChunks_subperm ranker plan request kept).subset
  intro c hc
  rcases mem_withNeighbors (primaries_found hparents hfound) h c hc with hc | ⟨hon, row, neighbor, hrow, hneighbor, rfl⟩
  · obtain ⟨c, hmem, rfl⟩ := mem_applyQualityStrategies hc
    split
    · rw [flagged_expandChunk]
      exact hunflagged c (hsource hmem)
    · exact hunflagged c (hsource hmem)
  · rw [flagged_asNeighbor]
    exact hbeside hon row hrow neighbor hneighbor

/-- **The hit path changes nothing** of chunks without flags and with different ids. -/
theorem cachedOutcome_eq (hids : (chunks.map RetrievedChunk.chunkId).Nodup)
    (hunflagged : ∀ c ∈ chunks, flagged c.metadata = false) :
    cachedOutcome chunks = { chunks := chunks, noMatches := chunks.isEmpty } := by
  have hfilter : excludeInjectionFlaggedChunks chunks = (chunks, 0) := by
    have hkeep : (chunks.filter fun c ↦ !(Dict.get c.metadata "prompt_injection_suspected").truthy) =
        chunks := List.filter_eq_self.2 fun c hc ↦ by
      have hflag : (Dict.get c.metadata "prompt_injection_suspected").truthy = false := hunflagged c hc
      rw [hflag]
      rfl
    rw [excludeInjectionFlaggedChunks, hkeep, Nat.sub_self]
  rw [cachedOutcome, deduplicateChunks_of_nodup hids, hfilter]

/-- What a search stores is served as it was computed. -/
theorem cachedOutcome_computed (hsearches : Searches store config request ranker plan filters)
    (hbeside : FlaggedNotBeside store config request plan filters) {outcome : RetrievalOutcome}
    (houtcome : computedOutcome (storeWorld store engine cache config ranker) config.toRagConfig plan
      request filters = outcome)
    (hanswers : outcome.degraded = false) (hfiltered : outcome.injectionChunksFiltered = 0) :
    (cachedOutcome outcome.chunks).SameAnswer outcome := by
  rcases computedOutcome_cases houtcome with
    ⟨hdegraded, -⟩ | ⟨candidates, chunks, hfinds, hrefine, rfl⟩
  · exact absurd (hanswers.symm.trans hdegraded) Bool.false_ne_true
  · have hunflagged := unflagged_refineChunks hbeside
      (fun c hc ↦ (mem_excludeInjectionFlaggedChunks.1 hc).2) (kept_found hsearches hfinds) hrefine
    have hsame := cachedOutcome_eq (nodup_refineChunks (nodup_kept plan candidates) hrefine) hunflagged
    have hchunks : (searchedOutcome (candidatePool plan candidates) chunks).chunks = chunks := rfl
    rw [hchunks, hsame]
    exact ⟨rfl, rfl, hfiltered.symm⟩

end Stored

/-! ### The result -/

/-- A call that gets back what another one has stored under its key gets what it would compute: the cache
has the answer of the first call, which is not degraded and of which nothing was filtered. -/
def ServedAsComputed (store : RetrievalStore) (engine : SearchEngine) (c₁ c₂ : RetrievalConfig)
    (r₁ r₂ : RetrievalRequest) : Prop :=
  ∀ key stored computed cache, callKey store c₁ r₁ = some key → callKey store c₂ r₂ = some key →
    retrieveFrom store engine emptyCache c₁ r₁ = .ok stored →
    stored.outcome.degraded = false → stored.outcome.injectionChunksFiltered = 0 →
    cache.get key = .ok (some stored.outcome.chunks) →
    retrieveFrom store engine emptyCache c₂ r₂ = .ok computed →
    ∃ served, retrieveFrom store engine cache c₂ r₂ = .ok served ∧
      served.outcome.SameAnswer computed.outcome

/-- The configurations agree on what the variant leaves out and a search for the plan reads. -/
structure LeftOutAgree (c₁ c₂ : RetrievalConfig) (plan : CandidatePlan) : Prop where
  provider : plan.needsEmbedding = true → c₁.embeddingProvider = c₂.embeddingProvider
  model : plan.needsEmbedding = true → c₁.embeddingModel = c₂.embeddingModel
  threshold : plan.needsEmbedding = true → c₁.scoreThreshold = c₂.scoreThreshold
  nearThreshold : c₁.dedupNearEnabled = true → (qualityOptionsFromConfig c₁).nearDedupThreshold =
    (qualityOptionsFromConfig c₂).nearDedupThreshold
  lambda : c₁.mmrEnabled = true →
    (qualityOptionsFromConfig c₁).mmrLambda = (qualityOptionsFromConfig c₂).mmrLambda
  window : c₁.neighborExpansionEnabled = true →
    (qualityOptionsFromConfig c₁).neighborWindow = (qualityOptionsFromConfig c₂).neighborWindow

/-- The key says enough: the configurations agree on what it leaves out, and no flagged neighbour is
stored. -/
def KeySuffices (store : RetrievalStore) (c₁ c₂ : RetrievalConfig) (request : RetrievalRequest) : Prop :=
  ∀ ranker plan filters, Searches store c₁ request ranker plan filters →
    LeftOutAgree c₁ c₂ plan ∧ FlaggedNotBeside store c₁ request plan filters

section Keys

variable {store : RetrievalStore} {engine : SearchEngine} {cache : RetrievalCache}
  {config c₁ c₂ : RetrievalConfig} {request r₁ r₂ : RetrievalRequest} {ranker ranker₁ ranker₂ : Reranker}
  {plan p₁ p₂ : CandidatePlan} {filters f₁ f₂ : RetrievalFilters} {key : RetrievalKey}

/-- A call with a key gets as far as a search. -/
theorem searches_of_callKey {run : RetrievalRun} (hkey : callKey store config request = some key)
    (hrun : retrieveFrom store engine cache config request = .ok run) :
    ∃ ranker plan filters, Searches store config request ranker plan filters ∧
      retrievalKey config plan request filters = key := by
  obtain ⟨ranker, hranker, -⟩ := eq_ok_of_bind hrun
  unfold callKey at hkey
  split at hkey
  · exact nomatch hkey
  · next plan hplan =>
    split at hkey
    · next henabled =>
      obtain ⟨filters, hfilters, hkey⟩ := Option.map_eq_some_iff.1 hkey
      exact ⟨ranker, plan, filters, ⟨hranker, henabled, hplan, hfilters⟩, hkey⟩
    · exact nomatch hkey

/-- Plans that agree, also on what they derive, are the same. -/
theorem PlansAgree.eq (h : PlansAgree p₁ p₂) (htopK : p₁.finalTopK = p₂.finalTopK)
    (hfuse : p₁.fuseLimit = p₂.fuseLimit) (hneeds : p₁.needsEmbedding = p₂.needsEmbedding) :
    p₁ = p₂ := by
  obtain ⟨hstrategy, hvector, hlexical, hrrf, hrerank⟩ := h
  match p₁, p₂ with
  | .mk _ _ _ _ _ _ _ _, .mk _ _ _ _ _ _ _ _ =>
    exact CandidatePlan.mk.injEq .. ▸ ⟨hstrategy, hvector, hlexical, hfuse, htopK, hrrf, hrerank, hneeds⟩

/-- **What a key tells**: the filters, the plan and what is asked. -/
theorem agree_of_retrievalKey (h₁ : Searches store c₁ r₁ ranker₁ p₁ f₁)
    (h₂ : Searches store c₂ r₂ ranker₂ p₂ f₂)
    (hkey : retrievalKey c₁ p₁ r₁ f₁ = retrievalKey c₂ p₂ r₂ f₂) :
    p₁ = p₂ ∧ f₁ = f₂ ∧ r₁.Matches r₂ ∧ SwitchesAgree c₁ c₂ ∧
      variantIdentity c₁ = variantIdentity c₂ := by
  rw [retrievalKey, retrievalKey] at hkey
  obtain ⟨huser, hproject, horganization, hquery, htopK, hfilters, hvariant⟩ :=
    RetrievalKey.mk.inj hkey
  rw [hfilters] at hvariant
  obtain ⟨hplans, hswitches, hidentity⟩ := agree_of_cacheVariant hvariant
  obtain ⟨hfuse₁, hneeds₁, -⟩ := h₁.planned
  obtain ⟨hfuse₂, hneeds₂, -⟩ := h₂.planned
  have hfuse : p₁.fuseLimit = p₂.fuseLimit := by
    rw [hfuse₁, hfuse₂, hplans.vectorLimit, hplans.lexicalLimit, htopK]
  have hneeds : p₁.needsEmbedding = p₂.needsEmbedding := by rw [hneeds₁, hneeds₂, hplans.strategy]
  exact ⟨hplans.eq htopK hfuse hneeds, hfilters, ⟨hquery, huser, hproject, horganization⟩, hswitches,
    hidentity⟩

/-- With what the key leaves out, the configurations agree on all that is read. -/
theorem readAlike_of_agree (h₁ : Searches store c₁ r₁ ranker₁ plan filters)
    (h₂ : Searches store c₂ r₂ ranker₂ plan filters) (hswitches : SwitchesAgree c₁ c₂)
    (hidentity : variantIdentity c₁ = variantIdentity c₂) (hleft : LeftOutAgree c₁ c₂ plan) :
    ReadAlike c₁ c₂ ranker₁ ranker₂ plan := by
  obtain ⟨-, hneeds, hrerank₁⟩ := h₁.planned
  have hboth : plan.needsEmbedding = true →
      c₁.embeddingDimensions = c₂.embeddingDimensions ∧ c₁.rerankerBackend = c₂.rerankerBackend :=
    fun h ↦ agree_of_variantIdentity hidentity (hleft.provider h) (hleft.model h)
  refine ⟨fun h ↦ ?_, fun h ↦ hleft.threshold (by rw [hneeds, decide_eq_true h]), fun h ↦ ?_,
    ⟨hswitches.exactDedup, hswitches.nearDedup, hleft.nearThreshold, hswitches.perDocument,
      hswitches.mmr, hleft.lambda, hswitches.neighbors, hleft.window, hswitches.parents⟩⟩
  · rw [embeddingCall, embeddingCall, hleft.provider h, hleft.model h, (hboth h).1]
  · -- A plan that reranks needs an embedding, and both configurations rerank.
    have hembeds : plan.needsEmbedding = true := by
      obtain ⟨strategy, -, hplan⟩ := eq_ok_of_map h₁.plan
      rw [← hplan] at h ⊢
      exact (Bool.and_eq_true_iff.1 h).2
    have hranker := h₁.ranker
    rw [hrerank₁ h, (hboth hembeds).2, ← h₂.planned.2.2 h, h₂.ranker] at hranker
    exact (Except.ok.inj hranker).symm

end Keys

section Result

variable {store : RetrievalStore} {engine : SearchEngine} {config c₁ c₂ : RetrievalConfig}
  {request r₁ r₂ : RetrievalRequest} {ranker : Reranker} {plan : CandidatePlan}
  {filters : RetrievalFilters}

theorem callKey_of_searches (h : Searches store config request ranker plan filters) :
    callKey store config request = some (retrievalKey config plan request filters) := by
  unfold callKey
  rw [h.plan]
  simp only [h.enabled, if_true, h.filters, Option.map_some]

/-- Where the key says enough, the answer is what would be computed. -/
theorem KeySuffices.served (h : KeySuffices store c₁ c₂ r₁) : ServedAsComputed store engine c₁ c₂ r₁ r₂ := by
  intro key stored computed cache hkey₁ hkey₂ hstored hanswers hfiltered hcached hcomputed
  obtain ⟨ranker₁, plan, filters, hs₁, hk₁⟩ := searches_of_callKey hkey₁ hstored
  obtain ⟨ranker₂, plan₂, filters₂, hs₂, hk₂⟩ := searches_of_callKey hkey₂ hcomputed
  obtain ⟨rfl, rfl, hmatches, hswitches, hidentity⟩ := agree_of_retrievalKey hs₁ hs₂ (hk₁.trans hk₂.symm)
  obtain ⟨hleft, hbeside⟩ := h ranker₁ plan filters hs₁
  have hread := readAlike_of_agree hs₁ hs₂ hswitches hidentity hleft
  obtain ⟨_, hrun₁, hstoredOutcome⟩ := retrieveFrom_of_searches engine emptyCache hs₁
  obtain rfl := Except.ok.inj (hstored.symm.trans hrun₁)
  obtain ⟨_, hrun₂, hcomputedOutcome⟩ := retrieveFrom_of_searches engine emptyCache hs₂
  obtain rfl := Except.ok.inj (hcomputed.symm.trans hrun₂)
  obtain ⟨served, hserved, hservedOutcome⟩ := retrieveFrom_of_searches engine cache hs₂
  refine ⟨served, hserved, ?_⟩
  by_cases hcatalog : engine.catalogFails = true
  · rw [hstoredOutcome, if_pos hcatalog] at hanswers
    exact nomatch hanswers
  · rw [if_neg hcatalog] at hstoredOutcome hcomputedOutcome hservedOutcome
    rw [hk₂, hcached] at hservedOutcome
    have hsame : computed.outcome = stored.outcome :=
      (hcomputedOutcome.trans (computedOutcome_congr hread hmatches).symm).trans hstoredOutcome.symm
    rw [hservedOutcome, hsame]
    exact cachedOutcome_computed hs₁ hbeside hstoredOutcome.symm hanswers hfiltered

/-- A flagged neighbour is stored, and not served. -/
theorem flaggedNotBeside_of_served (hsearches : Searches store config request ranker plan filters)
    (htopK : 0 ≤ request.resolvedTopK config.toRagConfig)
    (h : ∀ engine, ServedAsComputed store engine config config request request) :
    FlaggedNotBeside store config request plan filters := by
  intro hon row hfound neighbor hneighbor
  obtain ⟨onVector, hlane⟩ := exists_laneAnswers hfound.lanes
  obtain ⟨chunk, shown, run, -, -, hrun, houtcome, hfiltered⟩ :=
    retrieveFrom_solo hsearches hfound hlane (hfound.one_le_topK hsearches htopK)
  set engine := soloEngine config.scoreThreshold row.id onVector
  set cache : RetrievalCache := ⟨fun _ ↦ .ok (some run.outcome.chunks), fun _ _ ↦ .ok ()⟩
  have hkey := callKey_of_searches hsearches
  obtain ⟨served, hserved, hsame⟩ := h engine _ run run cache hkey hkey hrun (by rw [houtcome]; rfl)
    (by rw [houtcome]; exact hfiltered) rfl hrun
  obtain ⟨_, hrun', hservedOutcome⟩ := retrieveFrom_of_searches engine cache hsearches
  obtain rfl := Except.ok.inj (hserved.symm.trans hrun')
  have hshown : asNeighbor neighbor.toNeighbor ∈ run.outcome.chunks := by
    rw [houtcome]
    refine List.mem_cons_of_mem _ ?_
    rw [if_pos hon]
    exact List.mem_map_of_mem hneighbor
  have hcatalog : engine.catalogFails = false := rfl
  rw [← hsame.chunks, hservedOutcome, hcatalog] at hshown
  have hunflagged := (mem_excludeInjectionFlaggedChunks.1 hshown).2
  rwa [flagged_asNeighbor] at hunflagged

end Result

/-- **An answer from the cache is what the call would compute**, where the key says enough. For calls of
one configuration it has to say enough, if `top_k` is not negative. -/
theorem served_is_computed (store : RetrievalStore) (c₁ c₂ : RetrievalConfig) (r₁ r₂ : RetrievalRequest) :
    (KeySuffices store c₁ c₂ r₁ → ∀ engine, ServedAsComputed store engine c₁ c₂ r₁ r₂) ∧
    ((∀ engine, ServedAsComputed store engine c₁ c₁ r₁ r₁) → 0 ≤ r₁.resolvedTopK c₁.toRagConfig →
      KeySuffices store c₁ c₁ r₁) := by
  refine ⟨fun h engine ↦ h.served, fun h htopK ranker plan filters hsearches ↦ ?_⟩
  exact ⟨⟨fun _ ↦ rfl, fun _ ↦ rfl, fun _ ↦ rfl, fun _ ↦ rfl, fun _ ↦ rfl, fun _ ↦ rfl⟩,
    flaggedNotBeside_of_served hsearches htopK h⟩

theorem served_is_computed_far : ServedAsComputed farStore (soloEngine (3 / 10) 1 true) neighborConfig
    { neighborConfig with dedupNearThreshold := 1 / 2 } plainRequest plainRequest := by
  refine (served_is_computed farStore neighborConfig _ plainRequest plainRequest).1
    (fun ranker plan filters hsearches ↦ ⟨?_, fun _ row hfound neighbor hneighbor ↦ ?_⟩) _
  · exact ⟨fun _ ↦ rfl, fun _ ↦ rfl, fun _ ↦ rfl, (fun hon ↦ nomatch hon), fun _ ↦ rfl, fun _ ↦ rfl⟩
  · rcases beside_farStore hfound neighbor (List.mem_of_mem_take hneighbor) with rfl | rfl
    · rfl
    · rfl

/-! ### Two windows -/

/-- A third harmless row, two places after the first. -/
def lunchRow : StoredChunk := handbookRow 4 11 2 "Lunch is at noon." []

/-- The store with these three. -/
def lunchStore : RetrievalStore where
  documents := ⟨[indexedHandbook], formerStore.documents.compat⟩
  chunks := [holidaysRow, officeRow, lunchRow]
  versions := (Option.get _ bootstrapped_isSome).versions
  ids_nodup := by decide
  places_apart := by decide

/-- The configuration with neighbours, with a wider window. -/
def wideConfig : RetrievalConfig := { neighborConfig with neighborWindow := 2 }

/-- **The cache answers with the neighbours of another window**: both configurations have the same
key. -/
theorem served_is_stale : ¬ServedAsComputed lunchStore (soloEngine (3 / 10) 1 true) neighborConfig
    wideConfig plainRequest plainRequest := by
  have hfilters : lunchStore.callFilters plainRequest = some ⟨[], none, some 11⟩ := rfl
  obtain ⟨plan, hnarrow, hstrategy, hvector, htopK, -⟩ :=
    @searches_plain _ _ neighborConfig rfl hfilters
  have hwide : Searches lunchStore wideConfig plainRequest .noOp plan ⟨[], none, some 11⟩ :=
    ⟨hnarrow.ranker, hnarrow.enabled, hnarrow.plan, hfilters⟩
  have hfound : ∀ config : RetrievalConfig, config.embeddingDimensions = ragVectorDimensions →
      Found lunchStore config plainRequest plan ⟨[], none, some 11⟩ holidaysRow := fun config hfits ↦
    found_plain List.mem_cons_self rfl hfits hstrategy hvector htopK
  have hlane : LaneAnswers plan plainRequest holidaysRow true :=
    ⟨by rw [hstrategy]; decide, Option.some_ne_none _, by omega⟩
  obtain ⟨chunk, shown, stored, hprimary, -, hstored, hstoredOutcome, hfiltered⟩ :=
    retrieveFrom_solo hnarrow (hfound neighborConfig rfl) hlane (by omega)
  obtain ⟨_, shown', computed, -, -, hcomputed, hcomputedOutcome, -⟩ :=
    retrieveFrom_solo hwide (hfound wideConfig rfl) hlane (by omega)
  intro h
  set cache : RetrievalCache := ⟨fun _ ↦ .ok (some stored.outcome.chunks), fun _ _ ↦ .ok ()⟩
  obtain ⟨served, hserved, hsame⟩ := h _ stored computed cache (callKey_of_searches hnarrow)
    (callKey_of_searches hwide) hstored (by rw [hstoredOutcome]; rfl)
    (by rw [hstoredOutcome]; exact hfiltered) rfl hcomputed
  obtain ⟨_, hrun, hservedOutcome⟩ :=
    retrieveFrom_of_searches (soloEngine (3 / 10) 1 true) cache hwide
  obtain rfl := Except.ok.inj (hserved.symm.trans hrun)
  have hnarrowBeside : (Beside lunchStore neighborConfig plainRequest holidaysRow).take
      (plan.finalTopK - 1).toNat = [officeRow] := by
    rw [htopK]
    rfl
  have hwideBeside : (Beside lunchStore wideConfig plainRequest holidaysRow).take
      (plan.finalTopK - 1).toNat = [officeRow, lunchRow] := by
    rw [htopK]
    rfl
  -- The lunch is computed, and it is not among the chunks that were stored.
  have hlunch : asNeighbor lunchRow.toNeighbor ∈ computed.outcome.chunks := by
    rw [hcomputedOutcome, hwideBeside]
    exact List.mem_cons_of_mem _ (List.mem_cons_of_mem _ List.mem_cons_self)
  rw [← hsame.chunks, hservedOutcome] at hlunch
  have hlunch := deduplicateChunks_subset _ (mem_excludeInjectionFlaggedChunks.1 hlunch).1
  rw [hstoredOutcome, hnarrowBeside] at hlunch
  rcases List.mem_cons.1 hlunch with hid | hlunch
  · have hids := (congrArg RetrievedChunk.chunkId hid).trans hprimary.1
    exact absurd hids (by decide)
  · have hids := congrArg RetrievedChunk.chunkId (List.mem_singleton.1 hlunch)
    exact absurd hids (by decide)

end GenericApp
