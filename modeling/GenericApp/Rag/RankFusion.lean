import GenericApp.Foundation.Ranking
import GenericApp.Rag.RetrievalRanker
import Mathlib.Tactic.Positivity

/-!
# What fusing ranks

The specification of `reciprocal_rank_fuse`. In a lane without repetitions an id has one rank, and its
score is the sum of `1 / (k + rank)` over the lanes it is in. Fusing lists the ids in the one ranking by
that score and cuts it off. So the order of the lanes does not matter, an id that is nowhere behind
another one comes before it, and of a single lane the ranking is the lane itself: that is why retrieval
may skip the fusion when the lexical lane has no hits.

A chunk that is fused has the best row of its id.
-/

namespace GenericApp

open Py

/-! ### The specification -/

/-- The ids of some chunks. -/
def laneIds (lane : List RetrievedChunk) : List Uuid := lane.map RetrievedChunk.chunkId

/-- What a lane adds to the score of an id. Ranks begin with one. -/
def laneShare (k : ℤ) (ids : List Uuid) (id : Uuid) : ℚ :=
  if id ∈ ids then 1 / (k + (ids.idxOf id + 1 : ℕ)) else 0

/-- The reciprocal rank score of an id. -/
def reciprocalRankScore (lanes : List (List RetrievedChunk)) (k : ℤ) (id : Uuid) : ℚ :=
  (lanes.map fun lane ↦ laneShare k (laneIds lane) id).sum

/-- `a` is in every lane that `b` is in, and not behind it there. -/
def Dominates (lanes : List (List RetrievedChunk)) (a b : Uuid) : Prop :=
  ∀ lane ∈ lanes, b ∈ laneIds lane →
    a ∈ laneIds lane ∧ (laneIds lane).idxOf a ≤ (laneIds lane).idxOf b

/-- The chunk has the best score of its id. -/
def BestOfLanes (lanes : List (List RetrievedChunk)) (chunk : RetrievedChunk) : Prop :=
  (∃ lane ∈ lanes, ∃ row ∈ lane, row.chunkId = chunk.chunkId ∧ row.score = chunk.score) ∧
    ∀ lane ∈ lanes, ∀ row ∈ lane, row.chunkId = chunk.chunkId → row.score ≤ chunk.score

/-! ### Scores -/

section Scores

variable {lanes : List (List RetrievedChunk)} {k : ℤ} {id a b : Uuid}

/-- Adding up in a loop. -/
theorem foldl_add {α : Type} (f : α → ℚ) (l : List α) (x : ℚ) :
    l.foldl (fun sum y ↦ sum + f y) x = x + (l.map f).sum := by
  induction l generalizing x with
  | nil => exact (add_zero x).symm
  | cons y l ih => rw [List.foldl_cons, ih, List.map_cons, List.sum_cons, add_assoc]

/-- The places of an id in a lane: there is one, or none. -/
theorem sum_places (k : ℤ) (id : Uuid) {lane : List RetrievedChunk} (hids : (laneIds lane).Nodup)
    (n : ℕ) : (((lane.zipIdx n).filter fun place ↦ place.1.chunkId = id).map fun place ↦
      (1 / (k + place.2 : ℚ))).sum =
        if id ∈ laneIds lane then (1 / (k + ((laneIds lane).idxOf id + n : ℕ) : ℚ)) else 0 := by
  induction lane generalizing n with
  | nil => rfl
  | cons chunk lane ih =>
    obtain ⟨hnew, hids⟩ := List.nodup_cons.1 hids
    have hrest := ih hids (n + 1)
    rcases eq_or_ne chunk.chunkId id with rfl | hne
    · have hmem : chunk.chunkId ∈ laneIds (chunk :: lane) := List.mem_cons_self
      have hidx : (laneIds (chunk :: lane)).idxOf chunk.chunkId = 0 := List.idxOf_cons_self
      rw [if_neg (show chunk.chunkId ∉ laneIds lane from hnew)] at hrest
      rw [List.zipIdx_cons, List.filter_cons, if_pos (decide_eq_true rfl), List.map_cons,
        List.sum_cons, hrest, add_zero, if_pos hmem, hidx, Nat.zero_add]
    · have hmem : id ∈ laneIds (chunk :: lane) ↔ id ∈ laneIds lane :=
        ⟨fun h ↦ (List.mem_cons.1 h).resolve_left hne.symm, List.mem_cons_of_mem _⟩
      have hidx : (laneIds (chunk :: lane)).idxOf id = (laneIds lane).idxOf id + 1 :=
        List.idxOf_cons_ne _ hne
      rw [List.zipIdx_cons, List.filter_cons_of_neg (by simpa using hne), hrest, hidx]
      simp only [hmem, Nat.add_right_comm, Nat.add_assoc]

theorem fusedScore_eq (hlanes : ∀ lane ∈ lanes, (laneIds lane).Nodup) :
    fusedScore lanes k id = reciprocalRankScore lanes k id := by
  rw [fusedScore, foldl_add, zero_add, List.filter_flatMap, List.map_flatMap, List.flatMap_def,
    List.sum_flatten, List.map_map, reciprocalRankScore]
  exact congrArg List.sum (List.map_congr_left fun lane hlane ↦ sum_places k id (hlanes lane hlane) 1)

/-- The order of the lanes does not matter. -/
theorem reciprocalRankScore_perm {lanes' : List (List RetrievedChunk)} (h : lanes'.Perm lanes) :
    reciprocalRankScore lanes' k = reciprocalRankScore lanes k :=
  funext fun _ ↦ (h.map _).sum_eq

theorem laneShare_nonneg (hk : 1 ≤ k) (ids : List Uuid) (id : Uuid) : 0 ≤ laneShare k ids id := by
  have hkq : (1 : ℚ) ≤ k := by exact_mod_cast hk
  rw [laneShare]
  split
  · positivity
  · exact le_rfl

theorem laneShare_lt (hk : 1 ≤ k) {ids : List Uuid} (ha : a ∈ ids) (hb : b ∈ ids)
    (h : ids.idxOf a < ids.idxOf b) : laneShare k ids b < laneShare k ids a := by
  have hkq : (1 : ℚ) ≤ k := by exact_mod_cast hk
  have hlt : ((ids.idxOf a + 1 : ℕ) : ℚ) < (ids.idxOf b + 1 : ℕ) := by
    exact_mod_cast Nat.succ_lt_succ h
  rw [laneShare, laneShare, if_pos ha, if_pos hb]
  exact one_div_lt_one_div_of_lt (by positivity) ((add_lt_add_iff_left _).2 hlt)

/-- **An id that is nowhere behind another one has the higher score.** -/
theorem score_lt_of_dominates (hk : 1 ≤ k) (hdom : Dominates lanes a b) (hne : a ≠ b)
    (hb : ∃ lane ∈ lanes, b ∈ laneIds lane) :
    reciprocalRankScore lanes k b < reciprocalRankScore lanes k a := by
  have hlane : ∀ lane ∈ lanes, b ∈ laneIds lane →
      laneShare k (laneIds lane) b < laneShare k (laneIds lane) a := by
    intro lane hlane hb
    obtain ⟨ha, hle⟩ := hdom lane hlane hb
    refine laneShare_lt hk ha hb (lt_of_le_of_ne hle fun heq ↦ hne ?_)
    exact (List.idxOf_inj ha).1 heq
  refine List.sum_lt_sum _ _ (fun lane hmem ↦ ?_) ?_
  · by_cases hb : b ∈ laneIds lane
    · exact (hlane lane hmem hb).le
    · have hzero : laneShare k (laneIds lane) b = 0 := if_neg hb
      rw [hzero]
      exact laneShare_nonneg hk _ _
  · obtain ⟨lane, hmem, hb⟩ := hb
    exact ⟨lane, hmem, hlane lane hmem hb⟩

/-- Lanes without hits add nothing. -/
theorem reciprocalRankScore_filter (lanes : List (List RetrievedChunk)) (k : ℤ) (id : Uuid) :
    reciprocalRankScore (lanes.filter fun lane ↦ !lane.isEmpty) k id =
      reciprocalRankScore lanes k id := by
  induction lanes with
  | nil => rfl
  | cons lane lanes ih =>
    rcases lane with - | ⟨chunk, lane⟩
    · have hempty : laneShare k (laneIds []) id = 0 := if_neg List.not_mem_nil
      rw [List.filter_cons_of_neg (by decide), ih]
      show _ = laneShare k (laneIds []) id + reciprocalRankScore lanes k id
      rw [hempty, zero_add]
    · rw [List.filter_cons_of_pos rfl]
      exact congrArg (laneShare k (laneIds (chunk :: lane)) id + ·) ih

end Scores

/-! ### Best rows -/

section Rows

variable {chunks kept : List RetrievedChunk} {chunk k : RetrievedChunk}

/-- A round keeps the ids and adds that of the chunk. -/
theorem mem_ids_keepBest {id : Uuid} : id ∈ laneIds (keepBest kept chunk) ↔
    id ∈ laneIds kept ∨ id = chunk.chunkId := by
  rw [laneIds, ids_keepBest]
  split
  · next hmem => exact ⟨Or.inl, fun h ↦ h.elim (fun h ↦ h) fun h ↦ h ▸ hmem⟩
  · rw [List.mem_append, List.mem_singleton]
    exact Iff.rfl

theorem nodup_keepBest (h : (laneIds kept).Nodup) : (laneIds (keepBest kept chunk)).Nodup := by
  rw [laneIds, ids_keepBest]
  split
  · exact h
  · next hnew =>
    exact List.nodup_append.2 ⟨h, List.nodup_singleton _, fun a ha b hb heq ↦
      hnew (List.mem_singleton.1 hb ▸ heq ▸ ha)⟩

/-- After a round no row that was kept, and not the new one, is better than the one of its id. -/
theorem score_le_keepBest (hids : (laneIds kept).Nodup) (hk : k ∈ keepBest kept chunk)
    {c : RetrievedChunk} (hc : c ∈ chunk :: kept) (hid : c.chunkId = k.chunkId) :
    c.score ≤ k.score := by
  have hsame : ∀ c ∈ kept, ∀ d ∈ kept, c.chunkId = d.chunkId → c = d := fun c hc d hd h ↦
    List.inj_on_of_nodup_map hids hc hd h
  rw [keepBest] at hk
  split at hk
  · obtain ⟨old, hold, rfl⟩ := List.mem_map.1 hk
    split at hid
    · next hbetter =>
      rw [if_pos hbetter]
      rcases List.mem_cons.1 hc with rfl | hc
      · exact le_rfl
      · rw [hsame c hc old hold (hid.trans hbetter.1.symm)]
        exact hbetter.2.le
    · next hnot =>
      rw [if_neg hnot]
      rcases List.mem_cons.1 hc with rfl | hc
      · exact not_lt.1 fun hlt ↦ hnot ⟨hid.symm, hlt⟩
      · rw [hsame c hc old hold hid]
  · next hnew =>
    have hnew' : ∀ c ∈ kept, c.chunkId ≠ chunk.chunkId := fun c hc heq ↦
      hnew (List.any_eq_true.2 ⟨c, hc, decide_eq_true heq⟩)
    rcases List.mem_append.1 hk with hkept | hkept
    · rcases List.mem_cons.1 hc with rfl | hc
      · exact absurd hid.symm (hnew' k hkept)
      · rw [hsame c hc k hkept hid]
    · obtain rfl := List.mem_singleton.1 hkept
      rcases List.mem_cons.1 hc with rfl | hc
      · exact le_rfl
      · exact absurd hid (hnew' c hc)

theorem mem_ids_foldl {id : Uuid} : id ∈ laneIds (chunks.foldl keepBest kept) ↔
    id ∈ laneIds kept ∨ id ∈ laneIds chunks := by
  induction chunks generalizing kept with
  | nil => exact (or_iff_left List.not_mem_nil).symm
  | cons chunk chunks ih =>
    rw [List.foldl_cons, ih, mem_ids_keepBest, or_assoc]
    exact or_congr_right List.mem_cons.symm

theorem score_le_foldl (hids : (laneIds kept).Nodup) (hk : k ∈ chunks.foldl keepBest kept)
    {c : RetrievedChunk} (hc : c ∈ kept ++ chunks) (hid : c.chunkId = k.chunkId) :
    c.score ≤ k.score := by
  induction chunks generalizing kept c with
  | nil =>
    rw [List.append_nil] at hc
    rw [List.inj_on_of_nodup_map hids hc hk hid]
  | cons chunk chunks ih =>
    have hnodup : (laneIds (keepBest kept chunk)).Nodup := nodup_keepBest hids
    have hsplit : c ∈ chunk :: kept ∨ c ∈ chunks := by
      rcases List.mem_append.1 hc with hold | hnew
      · exact .inl (List.mem_cons_of_mem chunk hold)
      · rcases List.mem_cons.1 hnew with rfl | hlater
        · exact .inl List.mem_cons_self
        · exact .inr hlater
    rcases hsplit with hround | hlater
    · -- The row of its id after this round is as good.
      have hmem : c.chunkId ∈ laneIds (keepBest kept chunk) := by
        rw [mem_ids_keepBest]
        exact (List.mem_cons.1 hround).symm.imp (fun h ↦ List.mem_map_of_mem h) fun h ↦ by rw [h]
      obtain ⟨best, hbest, heq⟩ := List.mem_map.1 hmem
      have hbetter := ih hnodup hk (List.mem_append_left chunks hbest) (heq.trans hid)
      exact (score_le_keepBest hids hbest hround heq.symm).trans hbetter
    · exact ih hnodup hk (List.mem_append_right _ hlater) hid

/-- **One row for every id, and no row of it is better.** -/
theorem deduplicateChunks_best (chunks : List RetrievedChunk) :
    (∀ id, id ∈ laneIds (deduplicateChunks chunks) ↔ id ∈ laneIds chunks) ∧
      ∀ k ∈ deduplicateChunks chunks, ∀ c ∈ chunks, c.chunkId = k.chunkId → c.score ≤ k.score := by
  rw [deduplicateChunks_eq]
  refine ⟨fun id ↦ ?_, fun k hk c hc hid ↦
    @score_le_foldl chunks [] k List.nodup_nil hk c hc hid⟩
  rw [mem_ids_foldl]
  exact or_iff_right List.not_mem_nil

end Rows

/-! ### The ranking -/

section Fusion

variable {lanes : List (List RetrievedChunk)} {k limit : ℤ} {chunk : RetrievedChunk}

/-- The ids that are sorted are ranked. -/
theorem ranks_fused (hlanes : ∀ lane ∈ lanes, (laneIds lane).Nodup) :
    Ranks (reciprocalRankScore lanes k) (laneIds lanes.flatten)
      (laneIds ((deduplicateChunks lanes.flatten).insertionSort
        fun a b ↦ fusedBefore lanes k a b = true)) := by
  have hrel : ∀ x y : RetrievedChunk, fusedBefore lanes k x y = true ↔
      reciprocalRankScore lanes k y.chunkId < reciprocalRankScore lanes k x.chunkId ∨
        (reciprocalRankScore lanes k x.chunkId = reciprocalRankScore lanes k y.chunkId ∧
          x.chunkId ≤ y.chunkId) := by
    intro x y
    rw [fusedBefore, fusedScore_eq hlanes, fusedScore_eq hlanes]
    exact decide_eq_true_iff
  have hranks := ranks_insertionSort hrel (nodup_deduplicateChunks lanes.flatten)
  exact ⟨hranks.nodup, fun id ↦ (hranks.mem_iff id).trans ((deduplicateChunks_best _).1 id),
    hranks.ahead⟩

theorem takeTo_of_one_le {α : Type} (hlimit : 1 ≤ limit) (xs : List α) :
    takeTo limit xs = xs.take limit.toNat := by
  rw [takeTo, if_pos (by omega)]

/-- The ids of the fused chunks are the first of the ranking. -/
theorem ids_reciprocalRankFuse (hlimit : 1 ≤ limit) {ordered : List Uuid}
    (hlanes : ∀ lane ∈ lanes, (laneIds lane).Nodup)
    (h : Ranks (reciprocalRankScore lanes k) (laneIds lanes.flatten) ordered) :
    laneIds (reciprocalRankFuse lanes limit k) = ordered.take limit.toNat := by
  rw [h.unique (ranks_fused hlanes) fun _ ↦ Iff.rfl, reciprocalRankFuse, if_neg (by omega),
    takeTo_of_one_le hlimit, laneIds, laneIds, List.map_map, ← List.map_take]
  rfl

theorem bestOfLanes_of_mem (h : chunk ∈ reciprocalRankFuse lanes limit k) :
    BestOfLanes lanes chunk := by
  rw [reciprocalRankFuse] at h
  split at h
  · exact absurd h List.not_mem_nil
  · obtain ⟨row, hrow, rfl⟩ := List.mem_map.1 h
    have hkept : row ∈ deduplicateChunks lanes.flatten :=
      (List.mem_insertionSort _).1 ((takeTo_sublist limit _).mem hrow)
    obtain ⟨lane, hlane, hmem⟩ := List.mem_flatten.1 (deduplicateChunks_subset _ hkept)
    exact ⟨⟨lane, hlane, row, hmem, rfl, rfl⟩, fun lane hlane row' hrow' hid ↦
      (deduplicateChunks_best _).2 row hkept row' (List.mem_flatten.2 ⟨lane, hlane, hrow'⟩) hid⟩

/-- **A single lane is its own ranking.** -/
theorem ranks_lane (hk : 1 ≤ k) {lane : List RetrievedChunk} (hids : (laneIds lane).Nodup) :
    Ranks (reciprocalRankScore [lane] k) (laneIds lane) (laneIds lane) := by
  refine ⟨hids, fun _ ↦ Iff.rfl, List.pairwise_iff_getElem.2 fun i j hi hj hij ↦ .inl ?_⟩
  have hscore (id : Uuid) : reciprocalRankScore [lane] k id = laneShare k (laneIds lane) id := by
    rw [reciprocalRankScore, List.map_singleton, List.sum_singleton]
  rw [hscore, hscore]
  refine laneShare_lt hk (List.getElem_mem hi) (List.getElem_mem hj) ?_
  rwa [hids.idxOf_getElem, hids.idxOf_getElem]

theorem laneIds_flatten_filter (lanes : List (List RetrievedChunk)) :
    (lanes.filter fun lane ↦ !lane.isEmpty).flatten = lanes.flatten :=
  List.flatten_filter_not_isEmpty

/-- The only lane with hits is ranked as it stands. -/
theorem ids_of_single_lane (hk : 1 ≤ k) (hlimit : 1 ≤ limit) {lane : List RetrievedChunk}
    (hlanes : ∀ lane ∈ lanes, (laneIds lane).Nodup)
    (hsingle : (lanes.filter fun lane ↦ !lane.isEmpty) = [lane]) :
    laneIds (reciprocalRankFuse lanes limit k) = laneIds (takeTo limit lane) := by
  have hmem : lane ∈ lanes := List.mem_of_mem_filter (hsingle ▸ List.mem_singleton_self lane)
  have hflatten : lanes.flatten = lane := by
    rw [← laneIds_flatten_filter, hsingle, List.flatten_singleton]
  have hscore : reciprocalRankScore lanes k = reciprocalRankScore [lane] k :=
    funext fun id ↦ by rw [← reciprocalRankScore_filter, hsingle]
  have hranks : Ranks (reciprocalRankScore lanes k) (laneIds lanes.flatten) (laneIds lane) := by
    rw [hscore, hflatten]
    exact ranks_lane hk (hlanes lane hmem)
  rw [ids_reciprocalRankFuse hlimit hlanes hranks, takeTo_of_one_le hlimit]
  exact (List.map_take ..).symm

/-- Retrieval skips the fusion when the lexical lane has no hits. -/
theorem retrieveCandidates_of_no_lexical {world : RetrievalWorld} {plan : CandidatePlan}
    {request : RetrievalRequest} {filters : RetrievalFilters} {embedding : Option Embedding}
    {vectorChunks : List RetrievedChunk} (hplan : plan.strategy = .hybridRrf)
    (hvector : similaritySearch world request filters embedding plan.vectorLimit = .ok vectorChunks)
    (hlexical : world.lexicalSearchIndexed request filters plan.lexicalLimit = .ok []) :
    retrieveCandidates world plan request filters embedding =
      .ok (takeTo plan.fuseLimit vectorChunks) := by
  simp only [retrieveCandidates, hplan, hvector, hlexical, List.isEmpty_nil, if_true]

/-- What is fused from the lanes: the ids are distinct, they are the first of the ranking of all ids
of the lanes, an id that dominates another one is before it, and every chunk is the best of its id. -/
structure FusedFrom (lanes : List (List RetrievedChunk)) (k limit : ℤ) (out : List RetrievedChunk) :
    Prop where
  distinct : (laneIds out).Nodup
  length : out.length = min limit.toNat (laneIds lanes.flatten).dedup.length
  ranking : ∃ ordered, Ranks (reciprocalRankScore lanes k) (laneIds lanes.flatten) ordered ∧
    laneIds out = ordered.take limit.toNat
  dominant : ∀ a b, Dominates lanes a b → ∀ j : ℕ, (laneIds out)[j]? = some b →
    ∃ i : ℕ, i ≤ j ∧ (laneIds out)[i]? = some a
  best : ∀ chunk ∈ out, BestOfLanes lanes chunk

theorem fusedFrom_reciprocalRankFuse (hk : 1 ≤ k) (hlimit : 1 ≤ limit)
    (hlanes : ∀ lane ∈ lanes, (laneIds lane).Nodup) :
    FusedFrom lanes k limit (reciprocalRankFuse lanes limit k) := by
  obtain ⟨ordered, hranks⟩ : ∃ ordered, Ranks (reciprocalRankScore lanes k)
      (laneIds lanes.flatten) ordered := ⟨_, ranks_fused hlanes⟩
  have hids := ids_reciprocalRankFuse hlimit hlanes hranks
  refine ⟨?_, ?_, ⟨ordered, hranks, hids⟩, ?_, fun chunk ↦ bestOfLanes_of_mem⟩
  · rw [hids]
    exact hranks.nodup.sublist (List.take_sublist _ _)
  · have hperm : ordered.Perm (laneIds lanes.flatten).dedup :=
      (List.perm_ext_iff_of_nodup hranks.nodup (List.nodup_dedup _)).2 fun id ↦
        (hranks.mem_iff id).trans List.mem_dedup.symm
    have hlength : (laneIds (reciprocalRankFuse lanes limit k)).length =
      min limit.toNat ordered.length := by rw [hids, List.length_take]
    rwa [laneIds, List.length_map, hperm.length_eq] at hlength
  · intro a b hdom j hb
    rcases eq_or_ne a b with rfl | hne
    · exact ⟨j, le_rfl, hb⟩
    rw [hids] at hb ⊢
    have hmem : b ∈ laneIds lanes.flatten := (hranks.mem_iff b).1
      ((List.take_sublist _ _).mem (List.mem_of_getElem? hb))
    obtain ⟨lane, hlane, hblane⟩ : ∃ lane ∈ lanes, b ∈ laneIds lane := by
      obtain ⟨row, hrow, rfl⟩ := List.mem_map.1 hmem
      obtain ⟨lane, hlane, hrow⟩ := List.mem_flatten.1 hrow
      exact ⟨lane, hlane, List.mem_map_of_mem hrow⟩
    have ha : a ∈ laneIds lanes.flatten := by
      obtain ⟨row, hrow, rfl⟩ := List.mem_map.1 (hdom lane hlane hblane).1
      exact List.mem_map_of_mem (List.mem_flatten.2 ⟨lane, hlane, hrow⟩)
    obtain ⟨i, hij, hi⟩ := hranks.exists_before hb ha
      (.inl (score_lt_of_dominates hk hdom hne ⟨lane, hlane, hblane⟩))
    exact ⟨i, hij.le, hi⟩

/-- **What `reciprocal_rank_fuse` computes.** The ids do not depend on the order of the lanes, and if
only one lane has hits they are the first ones of that lane; so what retrieval returns without fusing
has the ids that fusing would give. -/
theorem reciprocalRankFuse_ranks (hk : 1 ≤ k) (hlimit : 1 ≤ limit)
    (hlanes : ∀ lane ∈ lanes, (laneIds lane).Nodup) :
    FusedFrom lanes k limit (reciprocalRankFuse lanes limit k) ∧
      (∀ lanes', lanes'.Perm lanes →
        laneIds (reciprocalRankFuse lanes' limit k) = laneIds (reciprocalRankFuse lanes limit k)) ∧
      (∀ lane, (lanes.filter fun lane ↦ !lane.isEmpty) = [lane] →
        laneIds (reciprocalRankFuse lanes limit k) = laneIds (lane.take limit.toNat)) ∧
      ∀ (world : RetrievalWorld) (plan : CandidatePlan) (request : RetrievalRequest)
        (filters : RetrievalFilters) (embedding : Option Embedding)
        (vectorChunks : List RetrievedChunk), plan.strategy = .hybridRrf → plan.fuseLimit = limit →
        similaritySearch world request filters embedding plan.vectorLimit = .ok vectorChunks →
        world.lexicalSearchIndexed request filters plan.lexicalLimit = .ok [] →
        lanes = [vectorChunks, []] →
          ∃ candidates, retrieveCandidates world plan request filters embedding = .ok candidates ∧
            laneIds candidates = laneIds (reciprocalRankFuse lanes limit k) := by
  refine ⟨fusedFrom_reciprocalRankFuse hk hlimit hlanes, fun lanes' hperm ↦ ?_, fun lane hsingle ↦ ?_,
    ?_⟩
  · have hlanes' : ∀ lane ∈ lanes', (laneIds lane).Nodup := fun lane hlane ↦
      hlanes lane (hperm.mem_iff.1 hlane)
    obtain ⟨ordered, hranks⟩ : ∃ ordered, Ranks (reciprocalRankScore lanes k)
        (laneIds lanes.flatten) ordered := ⟨_, ranks_fused hlanes⟩
    have hranks' : Ranks (reciprocalRankScore lanes' k) (laneIds lanes'.flatten) ordered := by
      rw [reciprocalRankScore_perm hperm]
      exact ⟨hranks.nodup, fun id ↦ (hranks.mem_iff id).trans
        ((hperm.flatten.map _).mem_iff).symm, hranks.ahead⟩
    rw [ids_reciprocalRankFuse hlimit hlanes hranks, ids_reciprocalRankFuse hlimit hlanes' hranks']
  · rw [ids_of_single_lane hk hlimit hlanes hsingle, takeTo_of_one_le hlimit]
  · rintro world plan request filters embedding vectorChunks hplan rfl hvector hlexical rfl
    refine ⟨_, retrieveCandidates_of_no_lexical hplan hvector hlexical, ?_⟩
    rcases vectorChunks with - | ⟨chunk, vectorChunks⟩
    · -- There are no hits at all.
      have hempty : laneIds (reciprocalRankFuse [[], []] plan.fuseLimit k) = [] := by
        have hranks : Ranks (reciprocalRankScore [[], []] k) (laneIds [[], []].flatten) [] :=
          ⟨List.nodup_nil, fun _ ↦ Iff.rfl, List.Pairwise.nil⟩
        rw [ids_reciprocalRankFuse hlimit hlanes hranks, List.take_nil]
      rw [hempty, takeTo_of_one_le hlimit, List.take_nil]
      rfl
    · exact (ids_of_single_lane hk hlimit hlanes rfl).symm

end Fusion

/-- A hit with this id and score. -/
def hit (id : Uuid) (score : ℚ) : RetrievedChunk := ⟨id, 0, "", score, "", 0, none, []⟩

theorem reciprocalRankFuse_ranks_two :
    laneIds (reciprocalRankFuse [[hit 1 0, hit 2 0], [hit 2 1]] 2 60) = [2, 1] ∧
      FusedFrom [[hit 1 0, hit 2 0], [hit 2 1]] 60 2
        (reciprocalRankFuse [[hit 1 0, hit 2 0], [hit 2 1]] 2 60) :=
  ⟨by decide +kernel, (reciprocalRankFuse_ranks (by decide) (by decide) (by decide)).1⟩

end GenericApp
