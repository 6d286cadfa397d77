import GenericApp.Rag.RetrievalService
import GenericApp.Rag.VersionLifecycle

/-!
# Queries and the index they search

The chunks of an index version are embedded as its row says, a query as the running configuration says.
A call that searches a version asks for the embedding of the query with the provider, the model and the
dimensions of its own configuration, and compares none of them with the row. Under **drift** (the
configuration has changed, or another version was activated or rolled back to) they differ.

The dimensions take care of themselves. Every row has those of the vector column, and an embedding that
does not fit the column ends the call as degraded. Nothing of that kind is done about the provider and
the model.

* `query_agrees_iff`: in a state that the requests can lead to, a call embeds its query as the version
  records, or is degraded, whatever the world does, exactly if the provider and the model of its
  configuration are those of the active row (or it embeds nothing, or for another dimension).
* `query_disagrees`: with the default configuration bootstrapped and another model configured, the call
  returns chunks.
-/

namespace GenericApp

open Machine

/-! ### Agreement -/

/-- The embedding call that a version records. -/
def recordedCall (row : RagIndexVersion) : EmbeddingCall :=
  ⟨row.embeddingProvider, row.embeddingModel, row.embeddingDimensions⟩

/-- A call that embeds its query and searches a version does it as the row records, or answers that it
is degraded and returns no chunks. -/
def QueryAgrees (T : VersionTable) (answer : Except String RetrievalRun) : Prop :=
  ∀ run, answer = .ok run → ∀ call ∈ run.embedded, ∀ versionId ∈ run.searched,
    ∀ row ∈ T.rows, row.id = versionId →
      call = recordedCall row ∨ run.outcome.degraded = true ∧ run.outcome.chunks = []

/-- What a call embeds its query with is what the active version records. Nothing is asked of a call
that embeds none, or that asks for embeddings which the column does not take. -/
def InStep (config : RagConfig) (request : RetrievalRequest) (T : VersionTable) : Prop :=
  config.enabled = true → config.embeddingDimensions = ragVectorDimensions →
    ∀ plan, resolveCandidatePlan config (request.resolvedTopK config) request.strategy = .ok plan →
      plan.needsEmbedding = true → ∀ active, getActiveVersion T = some active →
        config.embeddingProvider = active.embeddingProvider ∧
          config.embeddingModel = active.embeddingModel

/-! ### The dimensions -/

/-- Every version has the dimensions of the column. -/
def FitsColumn (T : VersionTable) : Prop :=
  ∀ row ∈ T.rows, row.embeddingDimensions = ragVectorDimensions

section Fits

variable {sha256 : String → String} {T T' : VersionTable} {c : VersionCall}

@[simp] theorem promoteRow_dimensions (versionId : Uuid) (now : Py.DateTime) (row : RagIndexVersion) :
    (promoteRow versionId now row).embeddingDimensions = row.embeddingDimensions := by
  rw [promoteRow]
  split
  · rfl
  · split <;> rfl

theorem FitsColumn.insert (h : FitsColumn T) {row : RagIndexVersion}
    (hfit : row.embeddingDimensions = ragVectorDimensions) (hinsert : T.insert row = some T') :
    FitsColumn T' := by
  intro v hv
  rw [Table.rows_of_insert hinsert] at hv
  rcases List.mem_append.1 hv with hv | hv
  · exact h v hv
  · rw [List.mem_singleton.1 hv]
    exact hfit

/-- A row that is there after a change of single rows was there before. -/
theorem FitsColumn.of_find (h : FitsColumn T)
    (hfind : ∀ id, ∃ f : RagIndexVersion → RagIndexVersion,
      (∀ row, (f row).embeddingDimensions = row.embeddingDimensions) ∧
        T'.find (byVersionId id) = (T.find (byVersionId id)).map f) : FitsColumn T' := by
  intro v hv
  obtain ⟨f, hf, hmap⟩ := hfind v.id
  rw [find_self hv] at hmap
  obtain ⟨w, hw, rfl⟩ := Option.map_eq_some_iff.1 hmap.symm
  rw [hf]
  exact h w (Table.mem_of_find hw)

theorem FitsColumn.effect (h : FitsColumn T) (heffect : VersionEffect sha256 T c T') :
    FitsColumn T' := by
  rcases heffect with - | ⟨-, row, -, hfit, hinsert⟩ | ⟨-, -, -, row, -, -, -, -, hfit, hinsert⟩ |
    ⟨-, now, row, -, -, hupdate⟩ | ⟨-, now, row, -, -, hpromote⟩
  · exact h
  · exact h.insert hfit hinsert
  · exact h.insert hfit hinsert
  · have hfind := fun id ↦ Table.find_of_update (q := byVersionId id) hupdate fun _ _ ↦ rfl
    refine h.of_find fun id ↦ ⟨_, fun v ↦ ?_, hfind id⟩
    split <;> rfl
  · exact h.of_find fun id ↦ ⟨_, promoteRow_dimensions row.id now, find_of_promote hpromote id⟩

theorem fitsColumn_of_reachable {s : Lifecycle} (hs : (lifecycleMachine sha256).Reachable anyStep s) :
    FitsColumn s.versions := by
  refine hs.invariant (I := fun s ↦ FitsColumn s.versions) ?_ fun s c t h _ hstep ↦ ?_
  · rintro s rfl
    exact fun v hv ↦ nomatch (hv : v ∈ [])
  · obtain rfl : s.call sha256 c = t := Option.some.inj hstep
    rw [Lifecycle.call]
    split
    · next T hrun => exact h.effect (effect_of_run hrun)
    · exact h

end Fits

/-! ### What a call embeds -/

section Calls

variable {world : RetrievalWorld} {config : RagConfig} {T : VersionTable}
  {request : RetrievalRequest} {run : RetrievalRun} {plan : CandidatePlan}
  {filters : RetrievalFilters}

/-- A plan needs an embedding unless its only lane is the lexical one. -/
theorem strategy_of_needsEmbedding {topK : ℤ} {strategy : Option String}
    (hplan : resolveCandidatePlan config topK strategy = .ok plan)
    (hneeds : plan.needsEmbedding = true) : plan.strategy ≠ .lexical := by
  obtain ⟨strategy, -, rfl⟩ := eq_ok_of_map hplan
  exact of_decide_eq_true hneeds

/-- A call that embeds its query does so with its own configuration, and then searches the active
version. -/
theorem retrieve_embeds (hrun : retrieve world config T request = .ok run) {call : EmbeddingCall}
    (hcall : call ∈ run.embedded) :
    config.enabled = true ∧ call = embeddingCall config ∧ ∃ plan filters active,
      resolveCandidatePlan config (request.resolvedTopK config) request.strategy = .ok plan ∧
        plan.needsEmbedding = true ∧ getActiveVersion T = some active ∧
          run.searched = some active.id ∧
            run.outcome = embeddedOutcome world config plan request filters := by
  rw [retrieve] at hrun
  split at hrun
  · next henabled =>
    refine ⟨henabled, ?_⟩
    obtain ⟨plan, hplan, rfl⟩ := eq_ok_of_map hrun
    split at hcall
    · exact nomatch hcall
    · next filters hfilters =>
      split at hcall
      · exact nomatch hcall
      · next active hactive =>
        have hactive' : getActiveVersion T = some active := by
          split at hactive
          · exact nomatch hactive
          · exact hactive
        rw [searchVersion] at hcall
        split at hcall
        · exact nomatch hcall
        · exact nomatch hcall
        · next hcached =>
          split at hcall
          · next hneeds =>
            refine ⟨(Option.some.inj hcall).symm, plan,
              { filters with indexVersionId := some active.id }, active, hplan, hneeds, hactive', ?_, ?_⟩
            · simp only [searchVersion, hcached, hneeds, if_true]
            · simp only [searchVersion, hcached, hneeds, if_true]
          · exact nomatch hcall
  · obtain rfl := Except.ok.inj hrun
    exact nomatch hcall

theorem RetrievalFailure.outcome_degraded (failure : RetrievalFailure) :
    failure.outcome.degraded = true ∧ failure.outcome.chunks = [] := by
  match failure with
  | .pgVectorUnavailable _ => exact ⟨rfl, rfl⟩
  | .other => exact ⟨rfl, rfl⟩

/-- Without an embedding that the column takes there is no search on the vector lane. -/
theorem similaritySearch_of_misfit {embedding : Embedding} (request : RetrievalRequest)
    (filters : RetrievalFilters) (topK : ℤ)
    (hmisfit : world.embeddingIsIndexable embedding = false) :
    ∃ failure, similaritySearch world request filters (some embedding) topK = .error failure := by
  rw [similaritySearch]
  split
  · exact ⟨_, rfl⟩
  · rw [if_neg (by rw [hmisfit]; exact Bool.false_ne_true)]
    exact ⟨_, rfl⟩

/-- **Embeddings of another dimension end the call.** -/
theorem embeddedOutcome_of_misfit (hstrategy : plan.strategy ≠ .lexical)
    (hdims : config.embeddingDimensions ≠ ragVectorDimensions) :
    (embeddedOutcome world config plan request filters).degraded = true ∧
      (embeddedOutcome world config plan request filters).chunks = [] := by
  rw [embeddedOutcome]
  split
  · exact RetrievalFailure.outcome_degraded _
  · exact RetrievalFailure.outcome_degraded _
  · next embedding _ _ =>
    split
    · next hindex =>
      have hmisfit : world.embeddingIsIndexable embedding = false := by
        refine Bool.eq_false_iff.2 fun hfits ↦ hdims ?_
        rw [← world.canIndexEmbedding_length _ _ hindex]
        exact world.embeddingIsIndexable_length _ hfits
      obtain ⟨failure, hfailure⟩ : ∃ failure,
          retrieveCandidates world plan request filters (some embedding) = .error failure := by
        obtain ⟨failure, hsearch⟩ :=
          similaritySearch_of_misfit request filters plan.vectorLimit hmisfit
        refine ⟨failure, ?_⟩
        rw [retrieveCandidates]
        split
        · exact hsearch
        · next h => exact absurd h hstrategy
        · rw [hsearch]
      rw [searchOutcome, hfailure]
      exact failure.outcome_degraded
    · exact ⟨rfl, rfl⟩

end Calls

/-! ### A world in which nothing fails -/

/-- An embedding for the vector column. -/
@[irreducible] def flatEmbedding : Embedding := List.replicate 1536 1

theorem length_flatEmbedding : (flatEmbedding.length : ℤ) = ragVectorDimensions := by
  rw [flatEmbedding, List.length_replicate]
  rfl

/-- Everything works, nothing is cached, and the vector lane finds `found`. -/
def openWorld (found : List RetrievedChunk) : RetrievalWorld where
  filterDocumentIds _ _ := [0]
  catalogFails := false
  getCached _ _ _ _ := .ok none
  setCached _ _ _ _ _ := .ok ()
  embedTexts _ _ := .ok [flatEmbedding]
  canIndexEmbedding embedding dimensions := decide ((embedding.length : ℤ) = dimensions)
  embeddingIsIndexable embedding := decide ((embedding.length : ℤ) = ragVectorDimensions)
  pgvectorUnready := none
  vectorRows _ _ _ _ := .ok found
  lexicalSearchIndexed _ _ _ := .ok []
  reciprocalRankFuse lanes _ _ := lanes.flatten
  refine _ _ _ chunks := .ok chunks
  canIndexEmbedding_length _ _ h := of_decide_eq_true h
  embeddingIsIndexable_length _ h := of_decide_eq_true h

section Open

variable (found : List RetrievedChunk) {config : RagConfig} {T : VersionTable}
  {request : RetrievalRequest} {plan : CandidatePlan} {filters : RetrievalFilters}
  {active : RagIndexVersion}

theorem finishRetrieval_openWorld (config : RagConfig) (request : RetrievalRequest)
    (plan : CandidatePlan) (filters : RetrievalFilters) (candidates : List RetrievedChunk) :
    ∃ outcome, finishRetrieval (openWorld found) config plan request filters candidates =
      .ok outcome ∧ outcome.degraded = false := by
  simp only [finishRetrieval, openWorld, bind, Except.bind]
  -- With and without reranking, and with and without suspicious chunks.
  split
  · split <;> exact ⟨_, rfl, rfl⟩
  · split <;> exact ⟨_, rfl, rfl⟩

theorem similaritySearch_openWorld (topK : ℤ) :
    similaritySearch (openWorld found) request filters (some flatEmbedding) topK = .ok found := by
  have hfits : (openWorld found).embeddingIsIndexable flatEmbedding = true :=
    decide_eq_true length_flatEmbedding
  simp only [similaritySearch, hfits, if_true]
  rfl

theorem retrieveCandidates_openWorld (request : RetrievalRequest) (filters : RetrievalFilters)
    (hstrategy : plan.strategy ≠ .lexical) :
    ∃ candidates, retrieveCandidates (openWorld found) plan request filters (some flatEmbedding) =
      .ok candidates := by
  rw [retrieveCandidates]
  split
  · exact ⟨_, similaritySearch_openWorld found _⟩
  · next h => exact absurd h hstrategy
  · rw [similaritySearch_openWorld]
    exact ⟨_, rfl⟩

/-- There a call that embeds its query for the column is not degraded. -/
theorem embeddedOutcome_openWorld (hstrategy : plan.strategy ≠ .lexical)
    (hdims : config.embeddingDimensions = ragVectorDimensions) :
    (embeddedOutcome (openWorld found) config plan request filters).degraded = false := by
  obtain ⟨candidates, hcandidates⟩ := retrieveCandidates_openWorld found request filters hstrategy
  obtain ⟨outcome, hfinish, hdegraded⟩ :=
    finishRetrieval_openWorld found config request plan filters candidates
  have hindex : (openWorld found).canIndexEmbedding flatEmbedding config.embeddingDimensions = true :=
    decide_eq_true (length_flatEmbedding.trans hdims.symm)
  have hembed : (openWorld found).embedTexts (embeddingCall config) [request.query] =
      .ok [flatEmbedding] := rfl
  simp only [embeddedOutcome, hembed, hindex, if_true, searchOutcome, hcandidates, hfinish, hdegraded]

/-- What a call does there that needs an embedding. -/
theorem retrieve_openWorld (henabled : config.enabled = true)
    (hplan : resolveCandidatePlan config (request.resolvedTopK config) request.strategy = .ok plan)
    (hneeds : plan.needsEmbedding = true) (hactive : getActiveVersion T = some active) :
    ∃ filters, retrieve (openWorld found) config T request =
      .ok ⟨some (embeddingCall config), some active.id,
        embeddedOutcome (openWorld found) config plan request filters⟩ := by
  obtain ⟨filters, hfilters⟩ : ∃ filters,
      effectiveFilters (openWorld found) request = some filters := by
    rw [effectiveFilters]
    split
    · exact ⟨_, rfl⟩
    · exact ⟨_, rfl⟩
  refine ⟨{ filters with indexVersionId := some active.id }, ?_⟩
  have hopen : (if (openWorld found).catalogFails then none else getActiveVersion T) = some active :=
    hactive
  simp only [retrieve, henabled, if_true, hplan, Except.map, hfilters, hopen, searchVersion, hneeds]
  rfl

end Open

/-! ### The agreement of queries and indexes -/

/-- **Queries agree with the index they search** exactly in step with the active version. -/
theorem query_agrees_iff (sha256 : String → String) {s : Lifecycle}
    (hs : (lifecycleMachine sha256).Reachable anyStep s) (config : RagConfig)
    (request : RetrievalRequest) :
    (∀ world, QueryAgrees s.versions (retrieve world config s.versions request)) ↔
      InStep config request s.versions := by
  constructor
  · intro h henabled hdims plan hplan hneeds active hactive
    obtain ⟨filters, hrun⟩ := retrieve_openWorld [] henabled hplan hneeds hactive
    rcases h (openWorld []) _ hrun _ rfl _ rfl active (Table.mem_of_find hactive) rfl with
      hcall | ⟨hdegraded, -⟩
    · exact ⟨congrArg EmbeddingCall.provider hcall, congrArg EmbeddingCall.model hcall⟩
    · rw [embeddedOutcome_openWorld _ (strategy_of_needsEmbedding hplan hneeds) hdims] at hdegraded
      exact nomatch hdegraded
  · intro h world run hrun call hcall versionId hversion row hrow hid
    obtain ⟨henabled, rfl, plan, filters, active, hplan, hneeds, hactive, hsearched, houtcome⟩ :=
      retrieve_embeds hrun hcall
    obtain rfl : active.id = versionId := Option.some.inj (hsearched.symm.trans hversion)
    obtain rfl : row = active := Table.eq_of_mem_of_sel (single_byVersionId active.id) hrow
      (Table.mem_of_find hactive) ((byVersionId_ident _ _).2 hid) ((byVersionId_ident _ _).2 rfl)
    by_cases hdims : config.embeddingDimensions = ragVectorDimensions
    · left
      obtain ⟨hprovider, hmodel⟩ := h henabled hdims plan hplan hneeds row hactive
      rw [embeddingCall, recordedCall, hprovider, hmodel, hdims,
        fitsColumn_of_reachable hs row hrow]
    · right
      rw [houtcome]
      exact embeddedOutcome_of_misfit (strategy_of_needsEmbedding hplan hneeds) hdims

/-- The default configuration is bootstrapped. -/
theorem bootstrapped_isSome : ((lifecycleMachine digest).run anyStep .initial
    [.ensureActiveVersion smallConfig 11 0]).isSome = true := rfl

/-- A call with nothing but a query. -/
def plainRequest : RetrievalRequest := ⟨"query", "ana", none, none, none, ⟨[], none, none⟩, none⟩

theorem query_agrees_iff_plain :
    (∀ world, QueryAgrees (Option.get _ bootstrapped_isSome).versions
      (retrieve world smallConfig (Option.get _ bootstrapped_isSome).versions plainRequest)) ↔
      InStep smallConfig plainRequest (Option.get _ bootstrapped_isSome).versions :=
  query_agrees_iff digest (reachable_run rfl bootstrapped_isSome) smallConfig plainRequest

/-- The model of the configuration changes: the call embeds with the new model, searches the version of
the old one, and returns what it finds. -/
theorem query_disagrees :
    (lifecycleMachine digest).Reachable anyStep (Option.get _ bootstrapped_isSome) ∧
      ¬QueryAgrees (Option.get _ bootstrapped_isSome).versions
        (retrieve (openWorld [⟨1, 1, "text", 1, "text.txt", 0, none, []⟩]) adaConfig
          (Option.get _ bootstrapped_isSome).versions plainRequest) := by
  refine ⟨reachable_run rfl bootstrapped_isSome, fun h ↦ ?_⟩
  obtain ⟨plan, hplan, hneeds⟩ : ∃ plan, resolveCandidatePlan adaConfig
      (plainRequest.resolvedTopK adaConfig) plainRequest.strategy = .ok plan ∧
        plan.needsEmbedding = true := by
    have hstrategy : normalizeRetrievalStrategy (some "hybrid_rrf") = .ok .hybridRrf := by decide
    exact ⟨_, congrArg (Except.map _) hstrategy, rfl⟩
  obtain ⟨active, hactive, hmodel⟩ : ∃ active,
      getActiveVersion (Option.get _ bootstrapped_isSome).versions = some active ∧
        active.embeddingModel = "text-embedding-3-small" := ⟨_, rfl, rfl⟩
  obtain ⟨filters, hrun⟩ := retrieve_openWorld [⟨1, 1, "text", 1, "text.txt", 0, none, []⟩] rfl hplan
    hneeds hactive
  rcases h _ hrun _ rfl _ rfl active (Table.mem_of_find hactive) rfl with hcall | ⟨hdegraded, -⟩
  · have := (congrArg EmbeddingCall.model hcall).trans hmodel
    exact absurd this (by decide)
  · rw [embeddedOutcome_openWorld _ (strategy_of_needsEmbedding hplan hneeds) rfl] at hdegraded
    exact nomatch hdegraded

end GenericApp
