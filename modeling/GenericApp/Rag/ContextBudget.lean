import GenericApp.Foundation.StableSort
import GenericApp.Rag.EvaluationService
import Mathlib.Algebra.Order.BigOperators.Group.List

/-!
# The budget of the context

`trim_chunks_to_token_budget` keeps the best chunks that fit: each costs what the estimator says of its content, and
48 tokens more. A best chunk that does not fit is cut, to one token at least, and stands alone.

That one token is too much for a budget of at most 48: what is cut for it costs 48 and more.
`withinBudget_iff` says when the budget is kept. The estimator is any function of a text.
-/

namespace GenericApp

open Py

/-! ### Cutting a text -/

section Truncate

variable (estimateTokens : String → ℤ) {content : String} {maxTokens : ℤ}

theorem prefix_rstrip (s : String) : (rstrip s).toList <+: s.toList := by
  rw [rstrip, String.toList_ofList]
  have hsuffix := (List.dropWhile_suffix (l := s.toList.reverse) isSpace)
  have hpre := List.reverse_prefix.2 hsuffix
  rwa [List.reverse_reverse] at hpre

theorem prefix_slice (n : ℕ) (s : String) : (slice n s).toList <+: s.toList := by
  rw [slice, String.toList_ofList]
  exact List.take_prefix n s.toList

/-- What the search has found: a prefix, within the tokens unless it is empty. -/
def CutTo (content : String) (maxTokens : ℤ) (best : String) : Prop :=
  best.toList <+: content.toList ∧ (best = "" ∨ estimateTokens best ≤ maxTokens)

theorem cutTo_truncateLoop {fuel : ℕ} {low high : ℤ} {best : String}
    (hbest : CutTo estimateTokens content maxTokens best) :
    CutTo estimateTokens content maxTokens (truncateLoop estimateTokens content maxTokens fuel low high best) := by
  induction fuel generalizing low high best with
  | zero => exact hbest
  | succ fuel ih =>
    rw [truncateLoop]
    split
    · dsimp only
      split
      · next hfits => exact ih ⟨(prefix_rstrip _).trans (prefix_slice _ _), .inr hfits⟩
      · exact ih hbest
    · exact hbest

theorem cutTo_truncateToTokens : CutTo estimateTokens content maxTokens
    (truncateToTokens estimateTokens content maxTokens) := by
  rw [truncateToTokens]
  split
  · exact ⟨List.nil_prefix, .inl rfl⟩
  · split
    · next hfits => exact ⟨List.prefix_rfl, .inr hfits⟩
    · exact cutTo_truncateLoop estimateTokens ⟨List.nil_prefix, .inl rfl⟩

end Truncate

/-! ### Trimming -/

/-- `trim_chunks_to_token_budget` -/
def RagContextBuilder.trimChunksToTokenBudget (estimateTokens : String → ℕ) (chunks : List RetrievedChunk)
    (maxTokens reservedTokens : ℤ) : List RetrievedChunk :=
  let budget := max 0 (maxTokens - reservedTokens)
  if chunks.isEmpty ∨ maxTokens ≤ 0 ∨ budget ≤ 0 then []
  else byScore (trimLoop (fun text ↦ estimateTokens text) budget [] 0 (byScore chunks))

/-- Retrieval and the workbench take the default reserve. -/
theorem trimChunksToTokenBudget_default (estimateTokens : String → ℕ) (chunks : List RetrievedChunk)
    (maxTokens : ℤ) : trimChunksToTokenBudget (fun text ↦ estimateTokens text) chunks maxTokens =
      RagContextBuilder.trimChunksToTokenBudget estimateTokens chunks maxTokens 512 := rfl

section Trim

variable (estimateTokens : String → ℕ)

/-- What the chunks cost. -/
def contextCost (chunks : List RetrievedChunk) : ℤ :=
  (chunks.map fun chunk ↦ (estimateTokens chunk.content : ℤ) + 48).sum

/-- The chunk, cut to a text. -/
def truncatedChunk (chunk : RetrievedChunk) (text : String) : RetrievedChunk :=
  { chunk with
    content := text
    metadata := Dict.put chunk.metadata "context_truncated" (.bool true) }

/-- What the context is made of: chunks that were given, or the best of them alone, cut to a prefix. -/
def ContextFrom (chunks context : List RetrievedChunk) : Prop :=
  context.Subperm chunks ∨
    ∃ best ∈ chunks, (∀ chunk ∈ chunks, chunk.score ≤ best.score) ∧
      ∃ text : String, text.toList <+: best.content.toList ∧ context = [truncatedChunk best text]

/-- What is promised of a context. -/
structure WithinBudget (chunks context : List RetrievedChunk) (budget : ℤ) : Prop where
  cost : contextCost estimateTokens context ≤ budget
  ordered : context.Pairwise fun a b ↦ b.score ≤ a.score
  source : ContextFrom chunks context

variable {estimateTokens} {chunks : List RetrievedChunk} {budget : ℤ}

theorem pairwise_byScore (chunks : List RetrievedChunk) : (byScore chunks).Pairwise fun a b ↦ b.score ≤ a.score :=
  pairwise_insertionSort_desc RetrievedChunk.score chunks

theorem perm_byScore (chunks : List RetrievedChunk) : (byScore chunks).Perm chunks :=
  List.perm_insertionSort _ chunks

theorem contextCost_perm {context context' : List RetrievedChunk} (h : context.Perm context') :
    contextCost estimateTokens context = contextCost estimateTokens context' :=
  (h.map _).sum_eq

theorem contextCost_append (context more : List RetrievedChunk) :
    contextCost estimateTokens (context ++ more) =
      contextCost estimateTokens context + contextCost estimateTokens more := by
  rw [contextCost, List.map_append, List.sum_append]
  rfl

/-- With something selected, the loop adds what fits. -/
theorem trimLoop_of_ne_nil {selected : List RetrievedChunk} (hselected : selected ≠ []) {used : ℤ}
    (hused : used = contextCost estimateTokens selected) (hbudget : used ≤ budget) :
    ∃ more, more.Sublist chunks ∧
      trimLoop (fun text ↦ estimateTokens text) budget selected used chunks = selected ++ more ∧
      contextCost estimateTokens (selected ++ more) ≤ budget := by
  induction chunks generalizing selected used with
  | nil => exact ⟨[], List.Sublist.refl [], (List.append_nil _).symm, by rw [List.append_nil, ← hused]; exact hbudget⟩
  | cons chunk chunks ih =>
    have hempty : ¬selected.isEmpty := by rwa [List.isEmpty_iff]
    rw [trimLoop]
    dsimp only
    split
    · obtain ⟨more, hmore, hloop, hcost⟩ := ih hselected hused hbudget
      exact ⟨more, hmore.cons _, hloop, hcost⟩
    · next hfits =>
      rw [if_neg fun h ↦ hempty h.1]
      have hcost : used + (estimateTokens chunk.content + 48) ≤ budget := by
        by_contra hgt
        exact hfits ⟨hempty, by omega⟩
      have hadded : used + (estimateTokens chunk.content + 48) =
          contextCost estimateTokens (selected ++ [chunk]) := by
        rw [contextCost_append, hused]
        exact congrArg _ (add_zero _).symm
      have hsome : selected ++ [chunk] ≠ [] := List.append_ne_nil_of_right_ne_nil _ (List.cons_ne_nil _ _)
      obtain ⟨more, hmore, hloop, htotal⟩ := ih hsome hadded hcost
      refine ⟨chunk :: more, hmore.cons_cons _, ?_, ?_⟩
      · rw [hloop, List.append_assoc]
        rfl
      · rwa [List.append_assoc] at htotal

/-- The first chunk: it stays, or what is cut of it stands alone. -/
theorem trimLoop_cons (best : RetrievedChunk) (chunks : List RetrievedChunk) :
    trimLoop (fun text ↦ estimateTokens text) budget [] 0 (best :: chunks) =
      if (estimateTokens best.content + 48 : ℤ) > budget then
        let text := truncateToTokens (fun text ↦ estimateTokens text) best.content (max 1 (budget - 48))
        if text = "" then [] else [truncatedChunk best text]
      else trimLoop (fun text ↦ estimateTokens text) budget [best] (0 + (estimateTokens best.content + 48)) chunks := by
  rw [trimLoop]
  dsimp only
  rw [if_neg fun h ↦ h.1 rfl]
  by_cases hfits : (estimateTokens best.content + 48 : ℤ) > budget
  · rw [if_pos ⟨rfl, hfits⟩, if_pos hfits]
    rfl
  · rw [if_neg fun h ↦ hfits h.2, if_neg hfits]
    rfl

theorem withinBudget_nil (hbudget : 0 ≤ budget) : WithinBudget estimateTokens chunks [] budget :=
  ⟨hbudget, List.Pairwise.nil, .inl List.nil_subperm⟩

/-- A chunk that was cut keeps the budget if the cut does. -/
theorem withinBudget_truncated {best : RetrievedChunk} {text : String} (hbest : best ∈ chunks)
    (hfirst : ∀ chunk ∈ chunks, chunk.score ≤ best.score) (hpre : text.toList <+: best.content.toList) :
    WithinBudget estimateTokens chunks [truncatedChunk best text] budget ↔
      (estimateTokens text + 48 : ℤ) ≤ budget := by
  have hcost : contextCost estimateTokens [truncatedChunk best text] = estimateTokens text + 48 := add_zero _
  refine ⟨fun h ↦ hcost ▸ h.cost, fun h ↦ ⟨hcost ▸ h, List.pairwise_singleton _ _, .inr ?_⟩⟩
  exact ⟨best, hbest, hfirst, text, hpre, rfl⟩

/-- What is sorted again costs the same. -/
theorem withinBudget_of_sublist {context : List RetrievedChunk} (hsublist : context.Sublist (byScore chunks))
    (hcost : contextCost estimateTokens context ≤ budget) :
    WithinBudget estimateTokens chunks (byScore context) budget where
  cost := by rwa [contextCost_perm (perm_byScore context)]
  ordered := pairwise_byScore context
  source := .inl (((perm_byScore context).subperm.trans hsublist.subperm).trans (perm_byScore chunks).subperm)

/-- The first of the sorted chunks has the highest score. -/
theorem best_of_byScore {best : RetrievedChunk} {rest : List RetrievedChunk} (h : byScore chunks = best :: rest) :
    best ∈ chunks ∧ ∀ chunk ∈ chunks, chunk.score ≤ best.score := by
  have hmem : ∀ chunk, chunk ∈ chunks ↔ chunk ∈ best :: rest := fun chunk ↦ h ▸ (perm_byScore chunks).mem_iff.symm
  refine ⟨(hmem best).2 List.mem_cons_self, fun chunk hchunk ↦ ?_⟩
  rcases List.mem_cons.1 ((hmem chunk).1 hchunk) with rfl | hrest
  · exact le_refl _
  · have hpairwise : (best :: rest).Pairwise fun a b ↦ b.score ≤ a.score := h ▸ pairwise_byScore chunks
    exact (List.pairwise_cons.1 hpairwise).1 chunk hrest

/-- **When the budget is kept.** Always, for 49 tokens or more. With less, if nothing is left of the best chunk when
it is cut to one token. The order of the context, and where it comes from, are right in any case. -/
theorem withinBudget_iff (estimateTokens : String → ℕ) (chunks : List RetrievedChunk)
    (maxTokens reservedTokens : ℤ) :
    let budget := max 0 (maxTokens - reservedTokens)
    WithinBudget estimateTokens chunks
        (RagContextBuilder.trimChunksToTokenBudget estimateTokens chunks maxTokens reservedTokens) budget ↔
      budget = 0 ∨ maxTokens ≤ 0 ∨ 49 ≤ budget ∨ ∀ best, (byScore chunks).head? = some best →
        let text := truncateToTokens (fun text ↦ estimateTokens text) best.content 1
        text = "" ∨ budget = 48 ∧ estimateTokens text = 0 := by
  intro budget
  have hnonneg : 0 ≤ budget := le_max_left _ _
  rw [RagContextBuilder.trimChunksToTokenBudget]
  by_cases hnone : chunks.isEmpty ∨ maxTokens ≤ 0 ∨ budget ≤ 0
  · rw [if_pos hnone]
    refine iff_of_true (withinBudget_nil hnonneg) ?_
    rcases hnone with hempty | hmax | hzero
    · rw [List.isEmpty_iff.1 hempty]
      exact .inr <| .inr <| .inr fun best hbest ↦ nomatch hbest
    · exact .inr (.inl hmax)
    · exact .inl (le_antisymm hzero hnonneg)
  rw [if_neg hnone]
  obtain ⟨hsome, hmax, hpos⟩ : chunks ≠ [] ∧ 0 < maxTokens ∧ 0 < budget := by
    simpa [not_or, List.isEmpty_iff] using hnone
  obtain ⟨best, rest, hsorted⟩ : ∃ best rest, byScore chunks = best :: rest := by
    refine List.exists_cons_of_ne_nil fun h ↦ hsome ?_
    exact List.nil_perm.1 (h ▸ perm_byScore chunks)
  obtain ⟨hbest, hfirst⟩ := best_of_byScore hsorted
  have hhead : ∀ other, (byScore chunks).head? = some other ↔ best = other := by simp [hsorted]
  simp only [hhead, forall_eq', hpos.ne', hmax.not_ge, false_or]
  rw [hsorted, trimLoop_cons]
  by_cases hfits : (estimateTokens best.content + 48 : ℤ) > budget
  · rw [if_pos hfits]
    obtain ⟨hpre, hcut⟩ : CutTo (fun text ↦ estimateTokens text) best.content (max 1 (budget - 48)) _ :=
      cutTo_truncateToTokens _
    dsimp only
    split
    · next hblank =>
      refine iff_of_true (withinBudget_nil hnonneg) ?_
      rcases le_or_gt 49 budget with henough | hsmall
      · exact .inl henough
      · rw [max_eq_left (by omega)] at hblank
        exact .inr (.inl hblank)
    · next htext =>
      have hcut := hcut.resolve_left htext
      have halone : byScore [truncatedChunk best (truncateToTokens (fun text ↦ estimateTokens text) best.content
          (max 1 (budget - 48)))] = [truncatedChunk best _] := rfl
      rw [halone, withinBudget_truncated hbest hfirst hpre]
      rcases le_or_gt 49 budget with henough | hsmall
      · rw [max_eq_right (by omega)] at hcut ⊢
        dsimp only at hcut
        exact iff_of_true (by omega) (.inl henough)
      · rw [max_eq_left (by omega)] at htext ⊢
        constructor
        · intro hcost
          exact .inr (.inr ⟨by omega, by omega⟩)
        · rintro (henough | hblank | ⟨hexact, hzero⟩)
          · omega
          · exact absurd hblank htext
          · omega
  · rw [if_neg hfits]
    have hused : (0 + (estimateTokens best.content + 48) : ℤ) = contextCost estimateTokens [best] := by
      simp [contextCost]
    have hroom : (0 + (estimateTokens best.content + 48) : ℤ) ≤ budget := by omega
    obtain ⟨more, hmore, hloop, hcost⟩ := trimLoop_of_ne_nil (List.cons_ne_nil best []) hused hroom
    rw [hloop]
    refine iff_of_true (withinBudget_of_sublist (hsorted ▸ hmore.cons_cons best) hcost) ?_
    rcases le_or_gt 49 budget with henough | hsmall
    · exact .inl henough
    · -- a budget of 48, and a text that costs nothing
      have hwhole : truncateToTokens (fun text ↦ (estimateTokens text : ℤ)) best.content 1 = best.content := by
        rw [truncateToTokens, if_neg (by decide), if_pos (by omega)]
      rw [hwhole]
      exact .inr (.inr ⟨by omega, by omega⟩)

/-- A letter is left of the text, and is paid for with 49 tokens. -/
theorem context_overruns :
    let chunk : RetrievedChunk :=
      { chunkId := 1, documentId := 1, content := "terms", score := 1, filename := "handbook.txt", chunkIndex := 0,
        pageNumber := none, metadata := [] }
    RagContextBuilder.trimChunksToTokenBudget String.length [chunk] 10 0 = [truncatedChunk chunk "t"] ∧
      ¬WithinBudget String.length [chunk]
        (RagContextBuilder.trimChunksToTokenBudget String.length [chunk] 10 0) (max 0 (10 - 0)) := by
  intro chunk
  have hcut : RagContextBuilder.trimChunksToTokenBudget String.length [chunk] 10 0 = [truncatedChunk chunk "t"] := by
    have htext : truncateToTokens (fun text ↦ (text.length : ℤ)) "terms" (max 1 (10 - 48)) = "t" := by decide +kernel
    have hloop : trimLoop (fun text ↦ (text.length : ℤ)) 10 [] 0 [chunk] = [truncatedChunk chunk "t"] := by
      rw [trimLoop_cons, if_pos (by decide +kernel)]
      dsimp only [chunk]
      rw [htext]
      exact if_neg (by decide)
    exact congrArg byScore hloop
  refine ⟨hcut, fun h ↦ ?_⟩
  have hcost := h.cost
  rw [hcut] at hcost
  exact absurd hcost (by decide +kernel)

end Trim

end GenericApp
