import GenericApp.Rag.RetrievalOrigins

/-!
# Calls that share a cache

Calls, one after the other, on a store that does not change. Each brings its own configuration, request
and engine. An answer without degradation of which nothing was filtered is stored under the key of the
call, and a call with that key gets it back, the last one that was stored, unless the cache has forgotten
it or fails.

* `answers_meet`: what holds of everything that calls find by themselves holds of all answers, cached or
  not.
-/

namespace GenericApp

open Machine

deriving instance DecidableEq for RetrievalFilters
deriving instance DecidableEq for RetrievalKey

/-- A call, the engine it meets and what the cache does. -/
structure RetrievalCall where
  config : RetrievalConfig
  request : RetrievalRequest
  engine : SearchEngine
  /-- Whether `get_cached_retrieval` raises. -/
  readFails : Bool
  /-- Whether what is cached has expired or been evicted. -/
  forgets : Bool
  /-- Whether `set_cached_retrieval` raises. -/
  writeFails : Bool

/-- What is cached, the latest first, and the answers that were given. -/
structure RetrievalSession where
  entries : List (RetrievalKey × List RetrievedChunk)
  answers : List (RetrievalCall × RetrievalRun)

/-- The cache that a call meets. -/
def RetrievalSession.cache (s : RetrievalSession) (call : RetrievalCall) : RetrievalCache where
  get key :=
    if call.readFails then .error .other
    else if call.forgets then .ok none
    else .ok (s.entries.lookup key)
  set _ _ := if call.writeFails then .error .other else .ok ()

/-- The cache has no answer. -/
def RetrievalCache.misses (cache : RetrievalCache) (key : RetrievalKey) : Bool :=
  match cache.get key with
  | .ok none => true
  | _ => false

/-- The key of a call that comes to a search. -/
def callKey (store : RetrievalStore) (config : RetrievalConfig) (request : RetrievalRequest) :
    Option RetrievalKey :=
  match resolveCandidatePlan config.toRagConfig (request.resolvedTopK config.toRagConfig)
      request.strategy with
  | .error _ => none
  | .ok plan =>
    if config.enabled then (store.callFilters request).map (retrievalKey config plan request) else none

/-- The entries after a call: a search that was not degraded and of which nothing was filtered is
stored. -/
def RetrievalSession.entriesAfter (store : RetrievalStore) (s : RetrievalSession)
    (call : RetrievalCall) (run : RetrievalRun) : List (RetrievalKey × List RetrievedChunk) :=
  match callKey store call.config call.request with
  | none => s.entries
  | some key =>
    if (s.cache call).misses key && !run.outcome.degraded && run.outcome.injectionChunksFiltered = 0 then
      (key, run.outcome.chunks) :: s.entries
    else s.entries

/-- Calls on a store. A call that raises leaves nothing behind. -/
def sessionMachine (store : RetrievalStore) : Machine RetrievalSession RetrievalCall where
  init s := s = ⟨[], []⟩
  step s call :=
    match retrieveFrom store call.engine (s.cache call) call.config call.request with
    | .error _ => none
    | .ok run => some ⟨s.entriesAfter store call run, (call, run) :: s.answers⟩

/-- The scope of the calls with a key. -/
def RetrievalKey.scope (key : RetrievalKey) : SearchScope :=
  ⟨key.userId, key.projectId, key.filters.documentIds, key.filters.sourceType, key.organizationId,
    key.filters.indexVersionId⟩

section Sessions

variable {store : RetrievalStore} {s t : RetrievalSession} {call : RetrievalCall}
  {P : SearchScope → RetrievedChunk → Prop}

/-- What a call finds by itself has the property. -/
def FindsOnly (store : RetrievalStore) (P : SearchScope → RetrievedChunk → Prop)
    (config : RetrievalConfig) (request : RetrievalRequest) : Prop :=
  ∀ ranker plan filters chunk, Searches store config request ranker plan filters →
    Origin store config request plan filters chunk → P (searchScope request filters) chunk

/-- An answer shows only what has the property. -/
def Answers (store : RetrievalStore) (P : SearchScope → RetrievedChunk → Prop)
    (answer : RetrievalCall × RetrievalRun) : Prop :=
  ∀ chunk ∈ answer.2.outcome.chunks, ∃ filters, store.callFilters answer.1.request = some filters ∧
    P (searchScope answer.1.request filters) chunk

/-- Everything that is cached and everything that was answered has the property. -/
structure SessionInv (store : RetrievalStore) (P : SearchScope → RetrievedChunk → Prop)
    (s : RetrievalSession) : Prop where
  entries : ∀ entry ∈ s.entries, ∀ chunk ∈ entry.2, P entry.1.scope chunk
  answers : ∀ answer ∈ s.answers, Answers store P answer

theorem mem_of_lookup {α β : Type} [DecidableEq α] {key : α} {value : β} :
    ∀ {entries : List (α × β)}, entries.lookup key = some value → (key, value) ∈ entries := by
  intro entries h
  obtain ⟨before, after, rfl, -⟩ := List.lookup_eq_some_iff.1 h
  exact List.mem_append_right _ List.mem_cons_self

/-- A call answers with what it finds, or with what is cached. -/
theorem SessionInv.answer (h : SessionInv store P s)
    (hfinds : FindsOnly store P call.config call.request) {run : RetrievalRun}
    (hrun : retrieveFrom store call.engine (s.cache call) call.config call.request = .ok run) :
    Answers store P (call, run) := by
  intro chunk hchunk
  obtain ⟨ranker, plan, filters, hsearches, hsource⟩ := retrieveFrom_sound hrun hchunk
  refine ⟨filters, hsearches.filters, ?_⟩
  rcases hsource with ⟨cached, hcached, hmem, -⟩ | ⟨-, horigin⟩
  · dsimp only [RetrievalSession.cache] at hcached
    split at hcached
    · exact nomatch hcached
    · split at hcached
      · exact nomatch hcached
      · exact h.entries _ (mem_of_lookup (Except.ok.inj hcached)) chunk hmem
  · exact hfinds ranker plan filters chunk hsearches horigin

theorem SessionInv.step (h : SessionInv store P s)
    (hfinds : FindsOnly store P call.config call.request)
    (hstep : (sessionMachine store).step s call = some t) : SessionInv store P t := by
  dsimp only [sessionMachine] at hstep
  split at hstep
  · exact nomatch hstep
  · next run hrun =>
    obtain rfl := Option.some.inj hstep
    have hanswer := h.answer hfinds hrun
    refine ⟨fun entry hentry chunk hchunk ↦ ?_, fun answer hmem ↦ ?_⟩
    · dsimp only [RetrievalSession.entriesAfter] at hentry
      split at hentry
      · exact h.entries entry hentry chunk hchunk
      · next key hkey =>
        split at hentry
        · rcases List.mem_cons.1 hentry with rfl | hentry
          · -- The key is that of the call, so its scope is the one that was searched.
            obtain ⟨filters, hfilters, hP⟩ := hanswer chunk hchunk
            unfold callKey at hkey
            split at hkey
            · exact nomatch hkey
            · split at hkey
              · rw [hfilters] at hkey
                obtain rfl := Option.some.inj hkey
                exact hP
              · exact nomatch hkey
          · exact h.entries entry hentry chunk hchunk
        · exact h.entries entry hentry chunk hchunk
    · rcases List.mem_cons.1 hmem with rfl | hmem
      · exact hanswer
      · exact h.answers answer hmem

/-- **What calls find by themselves is all that they answer.** -/
theorem answers_meet {calls : RetrievalConfig → RetrievalRequest → Prop}
    (hfinds : ∀ config request, calls config request → FindsOnly store P config request)
    (h : (sessionMachine store).Reachable (fun _ call ↦ calls call.config call.request) s) :
    ∀ answer ∈ s.answers, Answers store P answer := by
  refine (h.invariant (I := SessionInv store P) ?_ fun s call t hinv hcall hstep ↦
    hinv.step (hfinds _ _ hcall) hstep).answers
  rintro s rfl
  exact ⟨fun entry h ↦ absurd h List.not_mem_nil, fun answer h ↦ absurd h List.not_mem_nil⟩

/-- A call on its own. -/
theorem reachable_single {calls : RetrievalConfig → RetrievalRequest → Prop} {engine : SearchEngine}
    {config : RetrievalConfig} {request : RetrievalRequest} {run : RetrievalRun}
    (hcall : calls config request)
    (hrun : retrieveFrom store engine emptyCache config request = .ok run) :
    ∃ s call, (sessionMachine store).Reachable (fun _ call ↦ calls call.config call.request) s ∧
      call.config = config ∧ call.request = request ∧ (call, run) ∈ s.answers := by
  set call : RetrievalCall := ⟨config, request, engine, false, true, false⟩
  refine ⟨⟨RetrievalSession.entriesAfter store ⟨[], []⟩ call run, [(call, run)]⟩, call, ?_, rfl, rfl,
    List.mem_cons_self⟩
  refine (Reachable.of_init rfl).tail (a := call) hcall ?_
  have hcache : retrieveFrom store call.engine (RetrievalSession.cache ⟨[], []⟩ call) call.config
      call.request = .ok run := hrun
  dsimp only [sessionMachine]
  rw [hcache]

end Sessions

end GenericApp
