import GenericApp.Foundation.DiscountedSums
import GenericApp.Foundation.Mapping
import GenericApp.Foundation.StableSort
import Mathlib.Analysis.SpecialFunctions.Log.Base

/-!
# The metrics of retrieval

`retrieval_metrics` measures a ranking against graded judgments: recall, precision, the reciprocal rank of the first
hit, and the discounted gains of the ranking over those of the best one.

The discount of a rank, `1 / log2(rank + 1)` in the source, is any `Discount`, and numbers are those of any ordered
field: nothing is rounded. `wellNormalised_retrievalMetrics` has what is then true of them.
-/

namespace GenericApp

open Py

universe u

/-! ### Metrics -/

/-- `judgments.get(chunk_id, 0)` -/
def gradeOf (judgments : Mapping ℤ) (chunkId : String) : ℤ := (judgments.get? chunkId).getD 0

/-- `judgments_from_expected` -/
def judgmentsFromExpected (expectedChunkIds : Option (List String)) (judgments : Option (Mapping ℤ)) : Mapping ℤ :=
  let merged := (expectedChunkIds.getD []).foldl (fun merged chunkId ↦
    merged.put chunkId (max (gradeOf merged chunkId) 1)) Mapping.empty
  (judgments.getD Mapping.empty).entries.foldl (fun merged judgment ↦
    merged.put judgment.1 (max judgment.2 (gradeOf merged judgment.1))) merged

/-- What `retrieval_metrics` returns. -/
structure RetrievalMetrics (K : Type u) where
  recallAtK : K
  precisionAtK : K
  mrr : K
  ndcgAtK : K

section Metrics

variable {K : Type u} [Field K] [LinearOrder K] [IsStrictOrderedRing K]

/-- `(2 ** grade) - 1` -/
def gainOf (grade : ℤ) : K := 2 ^ grade - 1

/-- The ids with a positive grade. -/
def relevantIds (judgments : Mapping ℤ) : List String :=
  (judgments.entries.filter fun judgment ↦ judgment.2 > 0).map Prod.fst

/-- The relevant ids that are ranked. -/
def hitIds (ranked : List String) (judgments : Mapping ℤ) : List String :=
  (relevantIds judgments).filter fun chunkId ↦ ranked.contains chunkId

/-- `dcg` -/
def dcg (d : Discount K) (ranked : List String) (judgments : Mapping ℤ) : K :=
  discounted d (ranked.map fun chunkId ↦ gainOf (gradeOf judgments chunkId))

/-- `ideal_dcg` -/
def idealDcg (d : Discount K) (judgments : Mapping ℤ) (k : ℕ) : K :=
  let idealGrades := ((judgments.entries.map Prod.snd).insertionSort fun a b ↦ b ≤ a).take k
  discounted d (idealGrades.map gainOf)

/-- `retrieval_metrics` -/
def retrievalMetrics (d : Discount K) (rankedIds : List String) (judgments : Mapping ℤ) (k : ℕ) :
    RetrievalMetrics K :=
  let ranked := rankedIds.take k
  let relevant := relevantIds judgments
  let hits := hitIds ranked judgments
  { recallAtK := if relevant.isEmpty then 1 else hits.length / relevant.length
    precisionAtK := if ranked.isEmpty then 0 else hits.length / ranked.length
    mrr := match ranked.findIdx? fun chunkId ↦ relevant.contains chunkId with
      | some index => 1 / (index + 1)
      | none => 0
    ndcgAtK := if idealDcg d judgments k = 0 then 1 else dcg d ranked judgments / idealDcg d judgments k }

end Metrics

/-! ### Judgments -/

/-- No grade is negative. -/
def Graded (judgments : Mapping ℤ) : Prop := ∀ chunkId grade, judgments.get? chunkId = some grade → 0 ≤ grade

section Judgments

variable {judgments : Mapping ℤ}

theorem gradeOf_nonneg (h : Graded judgments) (chunkId : String) : 0 ≤ gradeOf judgments chunkId := by
  rw [gradeOf]
  rcases hget : judgments.get? chunkId with - | grade
  · exact le_refl 0
  · exact h chunkId grade hget

theorem graded_put (h : Graded judgments) (chunkId : String) {grade : ℤ} (hgrade : 0 ≤ grade) :
    Graded (judgments.put chunkId grade) := by
  intro other otherGrade hget
  rw [Mapping.get?_put] at hget
  split at hget
  · exact Option.some.inj hget ▸ hgrade
  · exact h other otherGrade hget

theorem graded_foldl {β : Type} (step : Mapping ℤ → β → Mapping ℤ)
    (hstep : ∀ judgments b, Graded judgments → Graded (step judgments b)) (bs : List β) (h : Graded judgments) :
    Graded (bs.foldl step judgments) := by
  induction bs generalizing judgments with
  | nil => exact h
  | cons b bs ih => exact ih (hstep _ _ h)

theorem graded_judgmentsFromExpected (expectedChunkIds : Option (List String)) (judgments : Option (Mapping ℤ)) :
    Graded (judgmentsFromExpected expectedChunkIds judgments) := by
  refine graded_foldl _ (fun merged judgment h ↦ ?_) _ (graded_foldl _ (fun merged chunkId h ↦ ?_) _ ?_)
  · exact graded_put h _ ((gradeOf_nonneg h judgment.1).trans (le_max_right _ _))
  · exact graded_put h _ (zero_le_one.trans (le_max_right _ _))
  · exact fun chunkId grade hget ↦ nomatch hget

/-- The judged ids, the best first. -/
def idealIds (judgments : Mapping ℤ) : List String :=
  (judgments.entries.insertionSort fun a b ↦ b.2 ≤ a.2).map Prod.fst

theorem nodup_idealIds : (idealIds judgments).Nodup :=
  (((List.perm_insertionSort _ judgments.entries).map Prod.fst).nodup_iff).2 judgments.nodup

theorem map_gradeOf_idealIds : (idealIds judgments).map (gradeOf judgments) =
    (judgments.entries.insertionSort fun a b ↦ b.2 ≤ a.2).map Prod.snd := by
  rw [idealIds, List.map_map]
  refine List.map_congr_left fun judgment hjudgment ↦ ?_
  rw [Function.comp_apply, gradeOf, Mapping.get?_of_mem ((List.mem_insertionSort _).1 hjudgment), Option.getD_some]

theorem pairwise_idealIds : (idealIds judgments).Pairwise fun a b ↦ gradeOf judgments b ≤ gradeOf judgments a := by
  have hsorted := pairwise_insertionSort_desc Prod.snd judgments.entries
  have hgrades : ((idealIds judgments).map (gradeOf judgments)).Pairwise fun a b ↦ b ≤ a := by
    rw [map_gradeOf_idealIds]
    exact List.pairwise_map.2 hsorted
  exact List.pairwise_map.1 hgrades

/-- Sorted by their grades, the judged ids have the sorted grades. -/
theorem grades_of_idealIds : (idealIds judgments).map (gradeOf judgments) =
    (judgments.entries.map Prod.snd).insertionSort fun a b ↦ b ≤ a := by
  have hsorted := pairwise_insertionSort_desc id (judgments.entries.map Prod.snd)
  refine List.Perm.eq_of_pairwise (fun a b _ _ hab hba ↦ le_antisymm hba hab) (List.pairwise_map.2 pairwise_idealIds)
    hsorted ?_
  rw [map_gradeOf_idealIds]
  exact ((List.perm_insertionSort _ judgments.entries).map Prod.snd).trans
    (List.perm_insertionSort _ (judgments.entries.map Prod.snd)).symm

end Judgments

/-! ### Gains -/

section Gains

variable {K : Type u} [Field K] [LinearOrder K] [IsStrictOrderedRing K]

theorem gainOf_mono {a b : ℤ} (h : a ≤ b) : (gainOf a : K) ≤ gainOf b :=
  sub_le_sub_right (zpow_le_zpow_right₀ one_le_two h) 1

omit [LinearOrder K] [IsStrictOrderedRing K] in
theorem gainOf_zero : (gainOf 0 : K) = 0 := by
  rw [gainOf, zpow_zero, sub_self]

/-- The gain of an id. -/
def chunkGain (judgments : Mapping ℤ) (chunkId : String) : K := gainOf (gradeOf judgments chunkId)

variable {judgments : Mapping ℤ} {k : ℕ}

theorem chunkGain_nonneg (h : Graded judgments) (chunkId : String) : (0 : K) ≤ chunkGain judgments chunkId :=
  gainOf_zero.symm.le.trans (gainOf_mono (gradeOf_nonneg h chunkId))

/-- Where grades come first that are the best, so do gains. -/
theorem bestFirst_chunkGain {ranked : List String} (h : BestFirst (gradeOf judgments) k ranked) :
    BestFirst (chunkGain judgments : String → K) k ranked where
  ordered := h.ordered.imp gainOf_mono
  outside chunkId hout := by
    obtain ⟨hbelow, hshort⟩ := h.outside chunkId hout
    exact ⟨fun other hother ↦ gainOf_mono (hbelow other hother),
      fun hlength ↦ (gainOf_mono (hshort hlength)).trans gainOf_zero.le⟩

theorem bestFirst_idealIds (h : Graded judgments) (k : ℕ) : BestFirst (gradeOf judgments) k (idealIds judgments) where
  ordered := pairwise_idealIds
  outside chunkId hout := by
    have hkeys : chunkId ∉ judgments.keys := fun hmem ↦
      hout ((((List.perm_insertionSort _ judgments.entries).map Prod.fst).mem_iff).2 hmem)
    have hzero : gradeOf judgments chunkId = 0 := by
      rw [gradeOf, Mapping.get?_eq_none_iff.2 hkeys, Option.getD_none]
    exact ⟨fun other _ ↦ hzero.le.trans (gradeOf_nonneg h other), fun _ ↦ hzero.le⟩

variable (d : Discount K)

omit [IsStrictOrderedRing K] in
theorem dcg_eq (ranked : List String) :
    dcg d (ranked.take k) judgments = discounted d (gainsOf (chunkGain judgments) k ranked) := rfl

omit [IsStrictOrderedRing K] in
theorem idealDcg_eq : idealDcg d judgments k = discounted d (gainsOf (chunkGain judgments) k (idealIds judgments)) := by
  rw [idealDcg, ← grades_of_idealIds, gainsOf, ← List.map_take, List.map_map]
  rfl

/-- **No ranking gains more than the ideal one.** -/
theorem dcg_le_idealDcg (h : Graded judgments) {ranked : List String} (hdistinct : ranked.Nodup) :
    dcg d (ranked.take k) judgments ≤ idealDcg d judgments k := by
  rw [dcg_eq, idealDcg_eq]
  exact discounted_le_of_bestFirst d (bestFirst_chunkGain (bestFirst_idealIds h k)) nodup_idealIds hdistinct
    (chunkGain_nonneg h)

/-- A ranking that lists the best ids in order gains as much. -/
theorem dcg_eq_idealDcg (h : Graded judgments) {ranked : List String} (hdistinct : ranked.Nodup)
    (hbest : BestFirst (gradeOf judgments) k (ranked.take k)) :
    dcg d (ranked.take k) judgments = idealDcg d judgments k := by
  refine le_antisymm (dcg_le_idealDcg d h hdistinct) ?_
  have hideal : discounted d (gainsOf (chunkGain judgments) k (idealIds judgments)) ≤ _ :=
    discounted_le_of_bestFirst d (bestFirst_chunkGain hbest) (hdistinct.sublist (List.take_sublist k ranked))
      nodup_idealIds (chunkGain_nonneg h)
  rw [dcg_eq, idealDcg_eq]
  rwa [gainsOf, gainsOf, List.take_take, min_self] at hideal

theorem dcg_nonneg (h : Graded judgments) (ranked : List String) : 0 ≤ dcg d ranked judgments := by
  refine discounted_nonneg d fun gain hgain ↦ ?_
  obtain ⟨chunkId, -, rfl⟩ := List.mem_map.1 hgain
  exact chunkGain_nonneg h chunkId

end Gains

/-! ### Hits -/

section Hits

variable {judgments : Mapping ℤ}

theorem nodup_relevantIds : (relevantIds judgments).Nodup :=
  judgments.nodup.sublist (List.filter_sublist.map Prod.fst)

theorem length_hitIds_le (ranked : List String) : (hitIds ranked judgments).length ≤ (relevantIds judgments).length :=
  List.length_filter_le _ _

/-- Each hit has a place of its own in the ranking. -/
theorem length_hitIds_le_ranked (ranked : List String) : (hitIds ranked judgments).length ≤ ranked.length := by
  have hnodup : (hitIds ranked judgments).Nodup := nodup_relevantIds.sublist List.filter_sublist
  refine (hnodup.subperm fun chunkId hchunkId ↦ ?_).length_le
  exact List.contains_iff_mem.1 (List.mem_filter.1 hchunkId).2

/-- A longer ranking has all the hits of a shorter one. -/
theorem length_hitIds_mono {ranked ranked' : List String} (h : ranked ⊆ ranked') :
    (hitIds ranked judgments).length ≤ (hitIds ranked' judgments).length := by
  refine (List.monotone_filter_right (relevantIds judgments) fun chunkId hchunkId ↦ ?_).length_le
  exact List.contains_iff_mem.2 (h (List.contains_iff_mem.1 hchunkId))

end Hits

/-! ### The metrics -/

/-- What is promised of the metrics. -/
structure WellNormalised {K : Type u} [Field K] [LinearOrder K] (d : Discount K)
    (rankedIds : List String) (judgments : Mapping ℤ) (k : ℕ) : Prop where
  recallAtK : 0 ≤ (retrievalMetrics d rankedIds judgments k).recallAtK ∧
    (retrievalMetrics d rankedIds judgments k).recallAtK ≤ 1
  precision : 0 ≤ (retrievalMetrics d rankedIds judgments k).precisionAtK ∧
    (retrievalMetrics d rankedIds judgments k).precisionAtK ≤ 1
  mrr : 0 ≤ (retrievalMetrics d rankedIds judgments k).mrr ∧ (retrievalMetrics d rankedIds judgments k).mrr ≤ 1
  gains : 0 ≤ dcg d (rankedIds.take k) judgments ∧ dcg d (rankedIds.take k) judgments ≤ idealDcg d judgments k
  ndcg : 0 ≤ (retrievalMetrics d rankedIds judgments k).ndcgAtK ∧
    (retrievalMetrics d rankedIds judgments k).ndcgAtK ≤ 1
  best : BestFirst (gradeOf judgments) k (rankedIds.take k) → (retrievalMetrics d rankedIds judgments k).ndcgAtK = 1
  swap : ∀ before a b after, rankedIds = before ++ a :: b :: after → gradeOf judgments a ≤ gradeOf judgments b →
    (retrievalMetrics d rankedIds judgments k).ndcgAtK ≤
      (retrievalMetrics d (before ++ b :: a :: after) judgments k).ndcgAtK
  recallMono : ∀ k', k ≤ k' → (retrievalMetrics d rankedIds judgments k).recallAtK ≤
    (retrievalMetrics d rankedIds judgments k').recallAtK

section Result

variable {K : Type u} [Field K] [LinearOrder K] [IsStrictOrderedRing K] (d : Discount K)

/-- A part of a whole. -/
theorem ratio_bounds {part whole : ℕ} (h : part ≤ whole) : (0 : K) ≤ part / whole ∧ (part / whole : K) ≤ 1 :=
  ⟨div_nonneg part.cast_nonneg whole.cast_nonneg, div_le_one_of_le₀ (Nat.cast_le.2 h) whole.cast_nonneg⟩

/-- A quotient of gains grows with the gain. -/
theorem ndcg_mono {gain gain' ideal : K} (hideal : 0 ≤ ideal) (h : gain ≤ gain') :
    (if ideal = 0 then 1 else gain / ideal) ≤ if ideal = 0 then 1 else gain' / ideal := by
  split
  · exact le_refl 1
  · exact div_le_div_of_nonneg_right h hideal

/-- **The metrics are well normalised.** -/
theorem wellNormalised_retrievalMetrics {rankedIds : List String} (hdistinct : rankedIds.Nodup)
    (expectedChunkIds : Option (List String)) (judgments : Option (Mapping ℤ)) (k : ℕ) :
    WellNormalised d rankedIds (judgmentsFromExpected expectedChunkIds judgments) k := by
  have hgraded := graded_judgmentsFromExpected expectedChunkIds judgments
  generalize judgmentsFromExpected expectedChunkIds judgments = judged at hgraded
  have hnonneg := dcg_nonneg d hgraded (rankedIds.take k)
  have hbound := dcg_le_idealDcg d hgraded hdistinct (k := k)
  have hideal := hnonneg.trans hbound
  refine
    { recallAtK := ?_
      precision := ?_
      mrr := ?_
      gains := ⟨hnonneg, hbound⟩
      ndcg := ?_
      best := fun hbest ↦ ?_
      swap := fun before a b after hranked hgrades ↦ ?_
      recallMono := fun k' hk ↦ ?_ }
  · dsimp only [retrievalMetrics]
    split
    · exact ⟨zero_le_one, le_refl 1⟩
    · exact ratio_bounds (length_hitIds_le _)
  · dsimp only [retrievalMetrics]
    split
    · exact ⟨le_refl 0, zero_le_one⟩
    · exact ratio_bounds (length_hitIds_le_ranked _)
  · dsimp only [retrievalMetrics]
    split
    · next index _ =>
      have hrank : (1 : K) ≤ index + 1 := le_add_of_nonneg_left index.cast_nonneg
      exact ⟨div_nonneg zero_le_one (zero_le_one.trans hrank), div_le_one_of_le₀ hrank (zero_le_one.trans hrank)⟩
    · exact ⟨le_refl 0, zero_le_one⟩
  · dsimp only [retrievalMetrics]
    split
    · exact ⟨zero_le_one, le_refl 1⟩
    · exact ⟨div_nonneg hnonneg hideal, div_le_one_of_le₀ hbound hideal⟩
  · dsimp only [retrievalMetrics]
    split
    · rfl
    · next hsome => rw [dcg_eq_idealDcg d hgraded hdistinct hbest, div_self hsome]
  · subst hranked
    have hgain : (chunkGain judged a : K) ≤ chunkGain judged b := gainOf_mono hgrades
    exact ndcg_mono hideal (discounted_swap_le d k hgain before after)
  · dsimp only [retrievalMetrics]
    split
    · exact le_refl 1
    · refine div_le_div_of_nonneg_right (Nat.cast_le.2 (length_hitIds_mono ?_)) (Nat.cast_nonneg _)
      exact (List.take_sublist_take_left hk).subset

end Result

/-- The discounts of the source. -/
noncomputable def logDiscount : Discount ℝ where
  weight i := 1 / Real.logb 2 (i + 2)
  pos i := one_div_pos.2 (Real.logb_pos one_lt_two (by linarith [(i.cast_nonneg : (0 : ℝ) ≤ i)]))
  anti i := by
    have hi : (0 : ℝ) ≤ i := i.cast_nonneg
    refine one_div_lt_one_div_of_lt (Real.logb_pos one_lt_two (by linarith)) ?_
    exact Real.logb_lt_logb one_lt_two (by linarith) (by push_cast; linarith)

theorem wellNormalised_retrievalMetrics_log : WellNormalised logDiscount ["a", "b", "c"]
    (judgmentsFromExpected (some ["a", "d"]) none) 3 :=
  wellNormalised_retrievalMetrics logDiscount (by decide) (some ["a", "d"]) none 3

end GenericApp
