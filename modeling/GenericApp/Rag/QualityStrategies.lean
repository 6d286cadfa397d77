import GenericApp.Rag.RetrievalRanker
import Mathlib.Data.List.Perm.Basic

/-!
# Quality strategies

`quality_strategies`: what is done to the ranked chunks under the options of the configuration. The
options are off by default.

The steps drop chunks and change their order, with two exceptions. `expand_parent_content` puts the text
of a parent in the place of the text of its child, and `merge_neighbor_chunks` adds chunks. SHA-256 is a
parameter of which nothing is used.

* `mem_applyQualityStrategies`: a chunk that is left is one that was there, expanded if the option says
  so.
* `applyQualityStrategies_singleton`: a single chunk is kept.
* `mergeNeighborChunks_eq`: the new ones of the neighbours are added as long as there is room.
-/

namespace GenericApp

open Py

/-! ### The configuration -/

/-- `RagConfig` with the fields that are read once the candidates have been planned. -/
structure RetrievalConfig extends RagConfig where
  scoreThreshold : ℚ
  rerankerBackend : String := "lightweight"
  parentChildRetrievalEnabled : Bool := false
  dedupExactEnabled : Bool := false
  dedupNearEnabled : Bool := false
  dedupNearThreshold : ℚ := 9 / 10
  perDocumentLimit : ℤ := 0
  mmrEnabled : Bool := false
  mmrLambda : ℚ := 7 / 10
  neighborExpansionEnabled : Bool := false
  neighborWindow : ℤ := 1
  deriving DecidableEq, Repr

/-- `QualityOptions`. -/
structure QualityOptions where
  exactDedup : Bool := false
  nearDedup : Bool := false
  nearDedupThreshold : ℚ := 9 / 10
  perDocumentLimit : ℤ := 0
  mmrEnabled : Bool := false
  mmrLambda : ℚ := 7 / 10
  neighborExpansion : Bool := false
  neighborWindow : ℤ := 1
  parentChildExpand : Bool := false
  deriving DecidableEq, Repr

/-- `quality_options_from_config`. A threshold or a weight of zero is the default one. -/
def qualityOptionsFromConfig (config : RetrievalConfig) : QualityOptions where
  exactDedup := config.dedupExactEnabled
  nearDedup := config.dedupNearEnabled
  nearDedupThreshold := orRat config.dedupNearThreshold (9 / 10)
  perDocumentLimit := config.perDocumentLimit
  mmrEnabled := config.mmrEnabled
  mmrLambda := orRat config.mmrLambda (7 / 10)
  neighborExpansion := config.neighborExpansionEnabled
  neighborWindow := max 0 config.neighborWindow
  parentChildExpand := config.parentChildRetrievalEnabled

/-! ### Chunks that repeat others -/

/-- `_tokens` -/
def tokens (text : String) : List String := (findTokens text).eraseDups

/-- `_content_fingerprint` -/
def contentFingerprint (sha256 : String → String) (text : String) : String := sha256 (strip text)

/-- `jaccard`, of two sets. -/
def jaccard (a b : List String) : ℚ :=
  if a = [] ∧ b = [] then 1
  else if a = [] ∨ b = [] then 0
  else
    let common := (a.filter b.contains).length
    (common : ℚ) / (a.length + b.length - common : ℕ)

/-- `exact_deduplicate`. -/
def exactDeduplicate (sha256 : String → String) (chunks : List RetrievedChunk) :
    List RetrievedChunk :=
  keepBy (fun kept chunk ↦ kept.all fun k ↦
    contentFingerprint sha256 k.content ≠ contentFingerprint sha256 chunk.content) [] chunks

/-- `near_deduplicate`. -/
def nearDeduplicate (threshold : ℚ) (chunks : List RetrievedChunk) : List RetrievedChunk :=
  keepBy (fun kept chunk ↦ kept.all fun k ↦
    jaccard (tokens chunk.content) (tokens k.content) < threshold) [] chunks

/-- `apply_per_document_limit`. -/
def applyPerDocumentLimit (limit : ℤ) (chunks : List RetrievedChunk) : List RetrievedChunk :=
  if limit < 1 then chunks
  else keepBy (fun kept chunk ↦
    ((kept.countP fun k ↦ k.documentId = chunk.documentId : ℕ) : ℤ) < limit) [] chunks

/-! ### Maximal marginal relevance -/

/-- The redundancy of a chunk beside those that are selected. -/
def redundancy (selected : List RetrievedChunk) (chunk : RetrievedChunk) : ℚ :=
  (selected.map fun prior ↦ jaccard (tokens chunk.content) (tokens prior.content)).foldl max 0

/-- The value of a chunk beside those that are selected. -/
def mmrValue (lambdaMult maxScore : ℚ) (selected : List RetrievedChunk) (chunk : RetrievedChunk) : ℚ :=
  lambdaMult * (chunk.score / maxScore) - (1 - lambdaMult) * redundancy selected chunk

/-- The place of the best of the chunks: the first of the best, and of close ones that with the least
id. -/
def bestIndex (value : RetrievedChunk → ℚ) (remaining : List RetrievedChunk) : ℕ :=
  let best : Option (ℚ × Uuid × ℕ) := remaining.zipIdx.foldl (fun best place ↦
    match best with
    | none => some (value place.1, place.1.chunkId, place.2)
    | some (bestValue, bestId, _) =>
      if bestValue < value place.1 ∨
          (isclose (value place.1) bestValue = true ∧ place.1.chunkId < bestId) then
        some (value place.1, place.1.chunkId, place.2)
      else best) none
  (best.map fun b ↦ b.2.2).getD 0

/-- The loop of `mmr_select`, for as many rounds as there is room. -/
def mmrLoop (lambdaMult maxScore : ℚ) : ℕ → List RetrievedChunk → List RetrievedChunk →
    List RetrievedChunk
  | 0, selected, _ => selected
  | room + 1, selected, remaining =>
    let index := bestIndex (mmrValue lambdaMult maxScore selected) remaining
    match remaining[index]? with
    | none => selected
    | some chosen =>
      mmrLoop lambdaMult maxScore room (selected ++ [chosen]) (remaining.eraseIdx index)

/-- `max(chunk.score for chunk in remaining) or 1.0` -/
def maxScore : List RetrievedChunk → ℚ
  | [] => 1
  | chunk :: chunks => orRat ((chunks.map RetrievedChunk.score).foldl max chunk.score) 1

/-- `mmr_select`. -/
def mmrSelect (limit : ℤ) (lambdaMult : ℚ) (chunks : List RetrievedChunk) : List RetrievedChunk :=
  if limit < 1 ∨ chunks.length ≤ 1 then takeTo limit chunks
  else mmrLoop lambdaMult (maxScore chunks) limit.toNat [] chunks

/-! ### Parents -/

/-- The texts of parents, by document and index. -/
abbrev ParentTexts := Uuid → ℤ → Option String

/-- A text that says something. -/
def nonblank (text : String) : Bool := strip text ≠ ""

/-- The text of the parent in the metadata of older chunks. -/
def legacyParent (metadata : Dict) : Option String :=
  (Dict.get metadata "parent_content").asStr.filter nonblank

/-- The index of the parent in the metadata. -/
def parentIndex (metadata : Dict) : Option ℤ := (Dict.get metadata "parent_chunk_index").asInt

/-- The text that takes the place of the content of a chunk. -/
def parentText (parents : ParentTexts) (chunk : RetrievedChunk) : Option String :=
  (legacyParent chunk.metadata).or
    ((parentIndex chunk.metadata).bind fun index ↦ (parents chunk.documentId index).filter nonblank)

/-- The chunk with the text of its parent. -/
def expandChunk (parents : ParentTexts) (chunk : RetrievedChunk) : RetrievedChunk :=
  match parentText parents chunk with
  | none => chunk
  | some parent =>
    { chunk with
      content := parent
      metadata := Dict.without (Dict.put (Dict.put chunk.metadata "retrieved_as_child" (.bool true))
        "child_content" (.str chunk.content)) ["parent_content"] }

/-- `expand_parent_content`. -/
def expandParentContent (parents : ParentTexts) (chunks : List RetrievedChunk) : List RetrievedChunk :=
  chunks.map (expandChunk parents)

/-! ### All strategies -/

/-- `apply_quality_strategies`. -/
def applyQualityStrategies (sha256 : String → String) (options : QualityOptions) (finalLimit : ℤ)
    (parents : ParentTexts) (chunks : List RetrievedChunk) : List RetrievedChunk :=
  let result := if options.parentChildExpand then expandParentContent parents chunks else chunks
  let result := if options.exactDedup then exactDeduplicate sha256 result else result
  let result := if options.nearDedup then nearDeduplicate options.nearDedupThreshold result else result
  let result :=
    if options.perDocumentLimit > 0 then applyPerDocumentLimit options.perDocumentLimit result
    else result
  let result :=
    if options.mmrEnabled then mmrSelect finalLimit options.mmrLambda result else result
  takeTo finalLimit result

section Strategies

variable {chunks : List RetrievedChunk} {chunk : RetrievedChunk}

theorem mmrLoop_subperm (lambdaMult maxScore : ℚ) : ∀ (room : ℕ) (selected remaining : List RetrievedChunk),
    (mmrLoop lambdaMult maxScore room selected remaining).Subperm (selected ++ remaining)
  | 0, selected, remaining => (List.sublist_append_left selected remaining).subperm
  | room + 1, selected, remaining => by
    rw [mmrLoop]
    split
    · exact (List.sublist_append_left selected remaining).subperm
    · next chosen hchosen =>
      obtain ⟨hlt, rfl⟩ := List.getElem?_eq_some_iff.1 hchosen
      refine (mmrLoop_subperm lambdaMult maxScore room _ _).trans ?_
      rw [List.append_assoc]
      exact ((List.getElem_cons_eraseIdx_perm hlt).append_left selected).subperm

theorem mmrSelect_subperm (limit : ℤ) (lambdaMult : ℚ) (chunks : List RetrievedChunk) :
    (mmrSelect limit lambdaMult chunks).Subperm chunks := by
  rw [mmrSelect]
  split
  · exact takeTo_subperm limit chunks
  · exact mmrLoop_subperm _ _ _ [] chunks

/-- The chunks before they are dropped. -/
def expandedChunks (options : QualityOptions) (parents : ParentTexts) (chunks : List RetrievedChunk) :
    List RetrievedChunk :=
  if options.parentChildExpand then expandParentContent parents chunks else chunks

theorem applyPerDocumentLimit_sublist (limit : ℤ) (chunks : List RetrievedChunk) :
    (applyPerDocumentLimit limit chunks).Sublist chunks := by
  rw [applyPerDocumentLimit]
  split
  · exact List.Sublist.refl chunks
  · exact keepBy_sublist _ chunks []

/-- **The strategies select.** -/
theorem applyQualityStrategies_subperm (sha256 : String → String) (options : QualityOptions)
    (finalLimit : ℤ) (parents : ParentTexts) (chunks : List RetrievedChunk) :
    (applyQualityStrategies sha256 options finalLimit parents chunks).Subperm
      (expandedChunks options parents chunks) := by
  refine (takeTo_subperm finalLimit _).trans ?_
  have hexact : ∀ c : List RetrievedChunk,
      (if options.exactDedup then exactDeduplicate sha256 c else c).Subperm c := by
    intro c
    split
    · exact (keepBy_sublist _ c []).subperm
    · exact List.Subperm.refl c
  have hnear : ∀ c : List RetrievedChunk,
      (if options.nearDedup then nearDeduplicate options.nearDedupThreshold c else c).Subperm c := by
    intro c
    split
    · exact (keepBy_sublist _ c []).subperm
    · exact List.Subperm.refl c
  have hlimit : ∀ c : List RetrievedChunk, (if options.perDocumentLimit > 0 then
      applyPerDocumentLimit options.perDocumentLimit c else c).Subperm c := by
    intro c
    split
    · exact (applyPerDocumentLimit_sublist _ c).subperm
    · exact List.Subperm.refl c
  have hmmr : ∀ c : List RetrievedChunk,
      (if options.mmrEnabled then mmrSelect finalLimit options.mmrLambda c else c).Subperm c := by
    intro c
    split
    · exact mmrSelect_subperm _ _ c
    · exact List.Subperm.refl c
  exact (hmmr _).trans ((hlimit _).trans ((hnear _).trans (hexact _)))

/-- A chunk that is left was there, and has the text of its parent if it is to be expanded. -/
theorem mem_applyQualityStrategies {sha256 : String → String} {options : QualityOptions}
    {finalLimit : ℤ} {parents : ParentTexts}
    (h : chunk ∈ applyQualityStrategies sha256 options finalLimit parents chunks) :
    ∃ c ∈ chunks, chunk = if options.parentChildExpand then expandChunk parents c else c := by
  have h := (applyQualityStrategies_subperm sha256 options finalLimit parents chunks).subset h
  rw [expandedChunks] at h
  split at h
  · next hexpand =>
    obtain ⟨c, hc, rfl⟩ := List.mem_map.1 h
    exact ⟨c, hc, (if_pos hexpand).symm⟩
  · next hexpand => exact ⟨chunk, h, (if_neg hexpand).symm⟩

@[simp] theorem expandChunk_chunkId (parents : ParentTexts) (chunk : RetrievedChunk) :
    (expandChunk parents chunk).chunkId = chunk.chunkId := by
  rw [expandChunk]
  split <;> rfl

@[simp] theorem expandChunk_documentId (parents : ParentTexts) (chunk : RetrievedChunk) :
    (expandChunk parents chunk).documentId = chunk.documentId := by
  rw [expandChunk]
  split <;> rfl

@[simp] theorem expandChunk_chunkIndex (parents : ParentTexts) (chunk : RetrievedChunk) :
    (expandChunk parents chunk).chunkIndex = chunk.chunkIndex := by
  rw [expandChunk]
  split <;> rfl

theorem ids_expandedChunks (options : QualityOptions) (parents : ParentTexts)
    (chunks : List RetrievedChunk) : (expandedChunks options parents chunks).map RetrievedChunk.chunkId =
      chunks.map RetrievedChunk.chunkId := by
  rw [expandedChunks]
  split
  · rw [expandParentContent, List.map_map]
    exact List.map_congr_left fun chunk _ ↦ expandChunk_chunkId parents chunk
  · rfl

/-- No id is left twice. -/
theorem nodup_applyQualityStrategies (sha256 : String → String) (options : QualityOptions)
    (finalLimit : ℤ) (parents : ParentTexts) (hids : (chunks.map RetrievedChunk.chunkId).Nodup) :
    ((applyQualityStrategies sha256 options finalLimit parents chunks).map
      RetrievedChunk.chunkId).Nodup :=
  nodup_ids_of_subperm (applyQualityStrategies_subperm sha256 options finalLimit parents chunks)
    (by rw [ids_expandedChunks]; exact hids)

theorem expandChunk_content (parents : ParentTexts) (chunk : RetrievedChunk) :
    (expandChunk parents chunk).content = (parentText parents chunk).getD chunk.content := by
  rw [expandChunk]
  split
  · next h => rw [h, Option.getD_none]
  · next h => rw [h, Option.getD_some]

/-- Expanding leaves the other metadata alone. -/
theorem get_expandChunk {key : String} (parents : ParentTexts) (chunk : RetrievedChunk)
    (hkey : key ∉ ["retrieved_as_child", "child_content", "parent_content"]) :
    Dict.get (expandChunk parents chunk).metadata key = Dict.get chunk.metadata key := by
  simp only [List.mem_cons, List.not_mem_nil, or_false, not_or] at hkey
  obtain ⟨hchild, hcontent, hparent⟩ := hkey
  rw [expandChunk]
  split
  · rfl
  · rw [Dict.get_without_of_notMem (by simpa using hparent), Dict.get_put_of_ne hcontent,
      Dict.get_put_of_ne hchild]

theorem takeTo_singleton {n : ℤ} (hn : 1 ≤ n) (chunk : RetrievedChunk) :
    takeTo n [chunk] = [chunk] := by
  rw [takeTo, if_pos (by omega), List.take_of_length_le (by simp only [List.length_singleton]; omega)]

/-- **A single chunk is kept.** -/
theorem applyQualityStrategies_singleton (sha256 : String → String) (options : QualityOptions)
    {finalLimit : ℤ} (hlimit : 1 ≤ finalLimit) (parents : ParentTexts) (chunk : RetrievedChunk) :
    applyQualityStrategies sha256 options finalLimit parents [chunk] =
      [if options.parentChildExpand then expandChunk parents chunk else chunk] := by
  have hkeep : ∀ (admits : List RetrievedChunk → RetrievedChunk → Bool) (c : RetrievedChunk),
      admits [] c = true → keepBy admits [] [c] = [c] := fun admits c h ↦ by
    rw [keepBy, if_pos h]
    rfl
  have hexact : ∀ c, exactDeduplicate sha256 [c] = [c] := fun c ↦ hkeep _ c rfl
  have hnear : ∀ c, nearDeduplicate options.nearDedupThreshold [c] = [c] := fun c ↦ hkeep _ c rfl
  have hper : ∀ c, applyPerDocumentLimit options.perDocumentLimit [c] = [c] := by
    intro c
    rw [applyPerDocumentLimit]
    split
    · rfl
    · refine hkeep _ c (decide_eq_true ?_)
      rw [List.countP_nil]
      omega
  have hmmr : ∀ c, mmrSelect finalLimit options.mmrLambda [c] = [c] := by
    intro c
    rw [mmrSelect, if_pos (Or.inr (show [c].length ≤ 1 from Nat.le_refl 1)), takeTo_singleton hlimit]
  have hexpand : (if options.parentChildExpand then expandParentContent parents [chunk] else [chunk]) =
      [if options.parentChildExpand then expandChunk parents chunk else chunk] := by
    split <;> rfl
  simp only [applyQualityStrategies, hexpand, hexact, hnear, hper, hmmr, ite_self,
    takeTo_singleton hlimit]

end Strategies

/-! ### Neighbours -/

/-- A neighbour as it is added. -/
def asNeighbor (neighbor : RetrievedChunk) : RetrievedChunk :=
  { neighbor with metadata := Dict.put neighbor.metadata "neighbor_expansion" (.bool true) }

/-- The loop of `merge_neighbor_chunks`. -/
def mergeLoop (limit : ℤ) : List RetrievedChunk → List RetrievedChunk → List RetrievedChunk
  | ordered, [] => ordered
  | ordered, neighbor :: neighbors =>
    if ordered.any fun chunk ↦ chunk.chunkId = neighbor.chunkId then mergeLoop limit ordered neighbors
    else
      let ordered := ordered ++ [asNeighbor neighbor]
      if limit ≤ ordered.length then ordered else mergeLoop limit ordered neighbors

/-- `merge_neighbor_chunks`. -/
def mergeNeighborChunks (primary neighbors : List RetrievedChunk) (limit : ℤ) : List RetrievedChunk :=
  takeTo limit (mergeLoop limit primary neighbors)

/-- The neighbours that are not there yet. -/
def newNeighbors (primary neighbors : List RetrievedChunk) : List RetrievedChunk :=
  neighbors.filter fun neighbor ↦ !(primary.any fun chunk ↦ chunk.chunkId = neighbor.chunkId)

/-- The loop adds one more than there is room for if there is none. -/
theorem mergeLoop_eq (limit : ℤ) (neighbors : List RetrievedChunk)
    (hids : (neighbors.map RetrievedChunk.chunkId).Nodup) : ∀ ordered,
      mergeLoop limit ordered neighbors = ordered ++
        ((newNeighbors ordered neighbors).take (max 1 (limit - ordered.length).toNat)).map
          asNeighbor := by
  induction neighbors with
  | nil =>
    intro ordered
    rw [mergeLoop, newNeighbors, List.filter_nil, List.take_nil, List.map_nil, List.append_nil]
  | cons neighbor neighbors ih =>
    intro ordered
    rw [List.map_cons, List.nodup_cons] at hids
    by_cases hthere : (ordered.any fun chunk ↦ chunk.chunkId = neighbor.chunkId) = true
    · have hnew : newNeighbors ordered (neighbor :: neighbors) = newNeighbors ordered neighbors :=
        List.filter_cons_of_neg (by rw [hthere]; exact Bool.false_ne_true)
      rw [mergeLoop, if_pos hthere, ih hids.2, hnew]
    · have hfalse := Bool.eq_false_iff.2 hthere
      have hnew : newNeighbors ordered (neighbor :: neighbors) =
          neighbor :: newNeighbors ordered neighbors :=
        List.filter_cons_of_pos (by rw [hfalse]; rfl)
      -- The neighbour itself does not come again.
      have hrest : newNeighbors (ordered ++ [asNeighbor neighbor]) neighbors =
          newNeighbors ordered neighbors := by
        refine List.filter_congr fun other hother ↦ ?_
        have hne : decide ((asNeighbor neighbor).chunkId = other.chunkId) = false :=
          decide_eq_false fun heq ↦ hids.1 (heq ▸ List.mem_map_of_mem hother)
        rw [List.any_append, List.any_cons, hne, List.any_nil, Bool.or_false, Bool.or_false]
      rw [mergeLoop, if_neg hthere, hnew]
      dsimp only
      have hlength : (ordered ++ [asNeighbor neighbor]).length = ordered.length + 1 :=
        List.length_append
      split
      · next hfull =>
        rw [hlength] at hfull
        have hone : max 1 (limit - ordered.length).toNat = 1 := by omega
        rw [hone]
        rfl
      · next hroom =>
        rw [hlength] at hroom
        obtain ⟨room, hone, hmore⟩ : ∃ room, max 1 (limit - ordered.length).toNat = room + 1 ∧
            max 1 (limit - (ordered.length + 1 : ℕ)).toNat = room :=
          ⟨(limit - ordered.length).toNat - 1, by omega, by omega⟩
        rw [ih hids.2, hrest, hlength, hone, hmore, List.take_succ_cons, List.map_cons,
          List.append_assoc]
        rfl

/-- **The new neighbours are added as long as there is room.** -/
theorem mergeNeighborChunks_eq {limit : ℤ} (hlimit : 0 ≤ limit) (primary : List RetrievedChunk)
    {neighbors : List RetrievedChunk} (hids : (neighbors.map RetrievedChunk.chunkId).Nodup) :
    mergeNeighborChunks primary neighbors limit =
      (primary ++ (newNeighbors primary neighbors).map asNeighbor).take limit.toNat := by
  rw [mergeNeighborChunks, takeTo, if_pos hlimit, mergeLoop_eq limit neighbors hids,
    List.take_append, List.take_append, List.map_take, List.take_take]
  congr 2
  omega

/-- Neighbours are added under ids of their own. -/
theorem nodup_mergeNeighborChunks (limit : ℤ) {primary : List RetrievedChunk}
    (hids : (primary.map RetrievedChunk.chunkId).Nodup) (neighbors : List RetrievedChunk) :
    ((mergeNeighborChunks primary neighbors limit).map RetrievedChunk.chunkId).Nodup := by
  have hloop : ∀ neighbors ordered : List RetrievedChunk, (ordered.map RetrievedChunk.chunkId).Nodup →
      ((mergeLoop limit ordered neighbors).map RetrievedChunk.chunkId).Nodup := by
    intro neighbors
    induction neighbors with
    | nil => exact fun ordered hordered ↦ hordered
    | cons neighbor neighbors ih =>
      intro ordered hordered
      rw [mergeLoop]
      split
      · exact ih ordered hordered
      · next hnew =>
        have hadded : ((ordered ++ [asNeighbor neighbor]).map RetrievedChunk.chunkId).Nodup := by
          rw [List.map_append]
          refine List.nodup_append.2 ⟨hordered, List.nodup_singleton _, fun a ha b hb heq ↦ ?_⟩
          obtain ⟨chunk, hchunk, rfl⟩ := List.mem_map.1 ha
          rw [List.map_singleton, List.mem_singleton] at hb
          exact hnew (List.any_eq_true.2 ⟨chunk, hchunk, decide_eq_true (heq.trans hb)⟩)
        dsimp only
        split
        · exact hadded
        · exact ih _ hadded
  exact (hloop neighbors primary hids).sublist ((takeTo_sublist limit _).map _)

/-- A negative limit drops what the loop adds. -/
theorem mergeNeighborChunks_subset_of_neg {limit : ℤ} (hlimit : limit < 0)
    (primary : List RetrievedChunk) {neighbors : List RetrievedChunk}
    (hids : (neighbors.map RetrievedChunk.chunkId).Nodup) :
    mergeNeighborChunks primary neighbors limit ⊆ primary := by
  have hone : max 1 (limit - primary.length).toNat = 1 := by omega
  rw [mergeNeighborChunks, takeTo, if_neg (by omega), mergeLoop_eq limit neighbors hids, hone]
  intro chunk hchunk
  have hlength : ((newNeighbors primary neighbors).take 1).length ≤ 1 := List.length_take_le 1 _
  rw [List.take_append_of_le_length (by rw [List.length_append, List.length_map]; omega)] at hchunk
  exact List.mem_of_mem_take hchunk

end GenericApp
