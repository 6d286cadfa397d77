import GenericApp.Rag.RetrievalService
import Mathlib.Algebra.Order.Ring.Rat
import Mathlib.Algebra.GroupWithZero.Nat

/-!
# Fusing and reranking

`retrieval_ranker` and `rerankers`: the tokens of a text, reciprocal rank fusion of the lanes, the local
lexical reranker and the backends that stand for others.

What a caller relies on is the same for all of them. They return some of the chunks they are given, each
once, in some order. Fusing also writes `rrf_score` into the metadata.
-/

namespace GenericApp

open Py

/-! ### Tokens -/

/-- A character of `_TOKEN_PATTERN`. -/
def tokenChar (c : Char) : Bool := ('a' ≤ c ∧ c ≤ 'z') ∨ ('0' ≤ c ∧ c ≤ '9')

/-- `_TOKEN_PATTERN.findall(text.lower())` -/
def findTokens (text : String) : List String :=
  ((charRuns tokenChar [] (lower text).toList).filter fun run ↦ 2 ≤ run.length).map String.ofList

/-! ### Fusion -/

/-- The sum of `1 / (k + rank)` over the places of a chunk in the lanes. -/
def fusedScore (lanes : List (List RetrievedChunk)) (k : ℤ) (chunkId : Uuid) : ℚ :=
  ((lanes.flatMap fun lane ↦ lane.zipIdx 1).filter fun place ↦ place.1.chunkId = chunkId).foldl
    (fun sum place ↦ sum + 1 / (k + place.2 : ℚ)) 0

/-- The order of the fused chunks: by score, then by id. -/
def fusedBefore (lanes : List (List RetrievedChunk)) (k : ℤ) (a b : RetrievedChunk) : Bool :=
  let x := fusedScore lanes k a.chunkId
  let y := fusedScore lanes k b.chunkId
  y < x ∨ (x = y ∧ a.chunkId ≤ b.chunkId)

/-- A fused chunk. -/
def RetrievedChunk.fused (chunk : RetrievedChunk) (score : ℚ) : RetrievedChunk :=
  { chunk with metadata := Dict.put chunk.metadata "rrf_score" (.float (roundTo 6 score)) }

/-- `reciprocal_rank_fuse`. Of the rows of an id it keeps what `_deduplicate_chunks` keeps. -/
def reciprocalRankFuse (lanes : List (List RetrievedChunk)) (limit k : ℤ) : List RetrievedChunk :=
  if limit < 1 then []
  else (takeTo limit ((deduplicateChunks lanes.flatten).insertionSort
    fun a b ↦ fusedBefore lanes k a b = true)).map fun chunk ↦
      chunk.fused (fusedScore lanes k chunk.chunkId)

/-! ### Reranking -/

/-- What `HybridRetrievalRanker.rerank` sorts by, for a query with the given terms. -/
def rerankScore (query : String) (terms : List String) (chunk : RetrievedChunk) : ℚ :=
  let contentTokens := findTokens chunk.content
  let sqlLexical := (Dict.getD chunk.metadata "lexical_score" (.float 0)).asFloat
  let found : ℚ := (terms.filter contentTokens.contains).length
  let lexical := max (found / terms.length) (min sqlLexical 1)
  let density : ℕ := (terms.map fun term ↦ min (contentTokens.count term) 3).sum
  let termDensity : ℚ := density / (max contentTokens.length 1 : ℕ)
  let queryPhrase := " ".intercalate (findTokens query)
  let phraseBonus : ℚ :=
    if queryPhrase ≠ "" ∧ (find (lower chunk.content) queryPhrase 0).isSome then 1 else 0
  chunk.score * (65 / 100) + lexical * (2 / 10) + min (termDensity * 4) 1 * (1 / 10) +
    phraseBonus * (5 / 100)

/-- The order of the reranked chunks: by that score, then by their own. -/
def rerankedBefore (query : String) (terms : List String) (a b : RetrievedChunk) : Bool :=
  let x := rerankScore query terms a
  let y := rerankScore query terms b
  y < x ∨ (x = y ∧ b.score ≤ a.score)

/-- `HybridRetrievalRanker.rerank`. The sort is stable. -/
def hybridRerank (query : String) (chunks : List RetrievedChunk) (limit : ℤ) : List RetrievedChunk :=
  let terms := (findTokens query).eraseDups
  if terms = [] ∨ chunks.length < 2 then takeTo limit chunks
  else takeTo limit (chunks.insertionSort fun a b ↦ rerankedBefore query terms a b = true)

/-- `RERANKER_BACKENDS` and the rerankers built for them. -/
inductive Reranker
  | noOp | lightweight | unavailable (name : String)
  deriving DecidableEq, Repr

/-- `rerank` of a backend. -/
def Reranker.rerank : Reranker → String → List RetrievedChunk → ℤ → List RetrievedChunk
  | noOp, _, chunks, limit => takeTo limit chunks
  | lightweight, query, chunks, limit => hybridRerank query chunks limit
  -- A backend that is not configured falls back to the order of the input.
  | unavailable _, _, chunks, limit => takeTo limit chunks

/-- `normalize_reranker_backend`. -/
def normalizeRerankerBackend (value : String) : Except String String :=
  let backend := lower (strip (orStr (some value) "lightweight"))
  if backend ∈ ["none", "lightweight", "cross_encoder", "provider", "llm"] then .ok backend
  else .error ("Unknown reranker backend '" ++ value ++
    "'; expected one of ['cross_encoder', 'lightweight', 'llm', 'none', 'provider']")

/-- `build_reranker`. -/
def buildReranker (enabled : Bool) (backend : String) : Except String Reranker :=
  if enabled then
    (normalizeRerankerBackend backend).map fun resolved ↦
      if resolved = "none" then .noOp
      else if resolved = "lightweight" then .lightweight
      else .unavailable resolved
  else .ok .noOp

/-! ### Some of the chunks, in some order -/

section Selections

variable {chunks : List RetrievedChunk} {chunk : RetrievedChunk}

theorem takeTo_subperm (n : ℤ) (chunks : List RetrievedChunk) : (takeTo n chunks).Subperm chunks :=
  (takeTo_sublist n chunks).subperm

theorem hybridRerank_subperm (query : String) (chunks : List RetrievedChunk) (limit : ℤ) :
    (hybridRerank query chunks limit).Subperm chunks := by
  rw [hybridRerank]
  split
  · exact takeTo_subperm limit chunks
  · exact (takeTo_subperm limit _).trans (List.perm_insertionSort _ _).subperm

theorem Reranker.rerank_subperm (ranker : Reranker) (query : String) (chunks : List RetrievedChunk)
    (limit : ℤ) : (ranker.rerank query chunks limit).Subperm chunks := by
  match ranker with
  | .noOp => exact takeTo_subperm limit chunks
  | .lightweight => exact hybridRerank_subperm query chunks limit
  | .unavailable _ => exact takeTo_subperm limit chunks

/-- A single chunk is not reranked. -/
theorem Reranker.rerank_singleton (ranker : Reranker) (query : String) (chunk : RetrievedChunk)
    (limit : ℤ) : ranker.rerank query [chunk] limit = takeTo limit [chunk] := by
  match ranker with
  | .noOp => rfl
  | .lightweight =>
    show hybridRerank query [chunk] limit = takeTo limit [chunk]
    rw [hybridRerank, if_pos (Or.inr (show [chunk].length < 2 from Nat.lt_succ_self 1))]
  | .unavailable _ => rfl

/-- A selection of chunks with different ids. -/
theorem nodup_ids_of_subperm {selected : List RetrievedChunk} (h : selected.Subperm chunks)
    (hids : (chunks.map RetrievedChunk.chunkId).Nodup) :
    (selected.map RetrievedChunk.chunkId).Nodup := by
  obtain ⟨ordered, hperm, hsub⟩ := h
  exact (hperm.map RetrievedChunk.chunkId).nodup_iff.1 (hids.sublist (hsub.map _))

/-! ### One row for an id -/

/-- What a round of `_deduplicate_chunks` does. -/
def keepBest (kept : List RetrievedChunk) (chunk : RetrievedChunk) : List RetrievedChunk :=
  if kept.any fun k ↦ k.chunkId = chunk.chunkId then
    kept.map fun k ↦ if k.chunkId = chunk.chunkId ∧ k.score < chunk.score then chunk else k
  else kept ++ [chunk]

theorem deduplicateChunks_eq (chunks : List RetrievedChunk) :
    deduplicateChunks chunks = chunks.foldl keepBest [] := rfl

theorem ids_keepBest (kept : List RetrievedChunk) (chunk : RetrievedChunk) :
    (keepBest kept chunk).map RetrievedChunk.chunkId =
      if chunk.chunkId ∈ kept.map RetrievedChunk.chunkId then kept.map RetrievedChunk.chunkId
      else kept.map RetrievedChunk.chunkId ++ [chunk.chunkId] := by
  have hany : (kept.any fun k ↦ k.chunkId = chunk.chunkId) = true ↔
      chunk.chunkId ∈ kept.map RetrievedChunk.chunkId := by
    simp only [List.any_eq_true, decide_eq_true_eq, List.mem_map]
  rw [keepBest]
  by_cases h : chunk.chunkId ∈ kept.map RetrievedChunk.chunkId
  · rw [if_pos (hany.2 h), if_pos h, List.map_map]
    refine List.map_congr_left fun k _ ↦ ?_
    show (if _ then chunk else k).chunkId = k.chunkId
    split
    · next hk => exact hk.1.symm
    · rfl
  · rw [if_neg (fun hk ↦ h (hany.1 hk)), if_neg h, List.map_append]
    rfl

theorem mem_keepBest {kept : List RetrievedChunk} {chunk k : RetrievedChunk}
    (h : k ∈ keepBest kept chunk) : k ∈ kept ∨ k = chunk := by
  rw [keepBest] at h
  split at h
  · obtain ⟨k', hk', rfl⟩ := List.mem_map.1 h
    split
    · exact Or.inr rfl
    · exact Or.inl hk'
  · rcases List.mem_append.1 h with h | h
    · exact Or.inl h
    · exact Or.inr (List.mem_singleton.1 h)

/-- Every chunk that is kept was there. -/
theorem deduplicateChunks_subset (chunks : List RetrievedChunk) :
    deduplicateChunks chunks ⊆ chunks := by
  have hfold : ∀ chunks kept : List RetrievedChunk, ∀ k ∈ chunks.foldl keepBest kept, k ∈ kept ∨ k ∈ chunks := by
    intro chunks
    induction chunks with
    | nil => exact fun kept k h ↦ Or.inl h
    | cons chunk chunks ih =>
      intro kept k h
      rcases ih _ k h with h | h
      · rcases mem_keepBest h with h | rfl
        · exact Or.inl h
        · exact Or.inr List.mem_cons_self
      · exact Or.inr (List.mem_cons_of_mem _ h)
  intro k h
  rw [deduplicateChunks_eq] at h
  exact (hfold chunks [] k h).resolve_left List.not_mem_nil

/-- No id is kept twice. -/
theorem nodup_deduplicateChunks (chunks : List RetrievedChunk) :
    ((deduplicateChunks chunks).map RetrievedChunk.chunkId).Nodup := by
  have hfold : ∀ chunks kept : List RetrievedChunk, (kept.map RetrievedChunk.chunkId).Nodup →
      ((chunks.foldl keepBest kept).map RetrievedChunk.chunkId).Nodup := by
    intro chunks
    induction chunks with
    | nil => exact fun kept h ↦ h
    | cons chunk chunks ih =>
      intro kept h
      refine ih _ ?_
      rw [ids_keepBest]
      split
      · exact h
      · next hnew =>
        refine List.nodup_append.2 ⟨h, List.nodup_singleton _, fun a ha b hb ↦ ?_⟩
        rw [List.mem_singleton.1 hb]
        exact fun heq ↦ hnew (heq ▸ ha)
  exact hfold chunks [] List.nodup_nil

/-- Chunks with different ids are all kept. -/
theorem deduplicateChunks_of_nodup (h : (chunks.map RetrievedChunk.chunkId).Nodup) :
    deduplicateChunks chunks = chunks := by
  have hfold : ∀ chunks kept : List RetrievedChunk,
      ((kept ++ chunks).map RetrievedChunk.chunkId).Nodup →
        chunks.foldl keepBest kept = kept ++ chunks := by
    intro chunks
    induction chunks with
    | nil => exact fun kept _ ↦ (List.append_nil kept).symm
    | cons chunk chunks ih =>
      intro kept h
      have hnew : ¬(kept.any fun k ↦ k.chunkId = chunk.chunkId) = true := by
        intro hany
        obtain ⟨k, hk, hid⟩ := List.any_eq_true.1 hany
        rw [List.map_append, List.nodup_append] at h
        exact h.2.2 _ (List.mem_map_of_mem hk) _ List.mem_cons_self (of_decide_eq_true hid)
      have hkeep : keepBest kept chunk = kept ++ [chunk] := if_neg hnew
      show chunks.foldl keepBest (keepBest kept chunk) = _
      rw [hkeep, ih (kept ++ [chunk]) (by rw [List.append_assoc]; exact h), List.append_assoc]
      rfl
  exact hfold chunks [] h

/-- Where a fused chunk comes from. -/
theorem mem_reciprocalRankFuse {lanes : List (List RetrievedChunk)} {limit k : ℤ}
    (h : chunk ∈ reciprocalRankFuse lanes limit k) :
    ∃ lane ∈ lanes, ∃ row ∈ lane, ∃ score, chunk = row.fused score := by
  rw [reciprocalRankFuse] at h
  split at h
  · exact absurd h List.not_mem_nil
  · obtain ⟨row, hrow, rfl⟩ := List.mem_map.1 h
    have hrow := deduplicateChunks_subset _
      ((List.mem_insertionSort _).1 ((takeTo_sublist limit _).mem hrow))
    obtain ⟨lane, hlane, hmem⟩ := List.mem_flatten.1 hrow
    exact ⟨lane, hlane, row, hmem, _, rfl⟩

/-- A single hit of a single lane is fused into itself. -/
theorem reciprocalRankFuse_singleton {limit : ℤ} (k : ℤ) (hlimit : 1 ≤ limit)
    (chunk : RetrievedChunk) :
    ∃ score, reciprocalRankFuse [[], [chunk]] limit k = [chunk.fused score] := by
  have htake : takeTo limit [chunk] = [chunk] := by
    rw [takeTo, if_pos (by omega), List.take_of_length_le (by simp only [List.length_singleton]; omega)]
  refine ⟨fusedScore [[], [chunk]] k chunk.chunkId, ?_⟩
  rw [reciprocalRankFuse, if_neg (by omega)]
  show (takeTo limit [chunk]).map _ = _
  rw [htake]
  rfl

end Selections

end GenericApp
