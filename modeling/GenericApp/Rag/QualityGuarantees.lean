import GenericApp.Foundation.Keeping
import GenericApp.Rag.QualityStrategies
import Mathlib.Algebra.Order.Ring.Abs
import Mathlib.Tactic.Linarith

/-!
# What the quality strategies guarantee

Each strategy gives a guarantee for the chunks it leaves, and the strategies after it keep that
guarantee: they drop chunks and change the order, and a guarantee that speaks of pairs without regard to
their order, or of how many there are of a kind, survives both.

Only maximal marginal relevance looks at scores. Its first choice is the first of the best scores, but
among scores that `math.isclose` takes for equal the least id is chosen, and closeness is not
transitive: a chain of close scores leads from the best score to the one that is chosen
(`head_mmrSelect`). With a weight of zero the scores do not count at all.
-/

namespace GenericApp

open Py

/-! ### The stages -/

/-- The chunks after the exact repetitions have been dropped. -/
def exactStage (sha256 : String → String) (options : QualityOptions) (parents : ParentTexts)
    (chunks : List RetrievedChunk) : List RetrievedChunk :=
  let result := expandedChunks options parents chunks
  if options.exactDedup then exactDeduplicate sha256 result else result

/-- The chunks after the near repetitions have been dropped. -/
def nearStage (sha256 : String → String) (options : QualityOptions) (parents : ParentTexts)
    (chunks : List RetrievedChunk) : List RetrievedChunk :=
  let result := exactStage sha256 options parents chunks
  if options.nearDedup then nearDeduplicate options.nearDedupThreshold result else result

/-- The chunks that the selection chooses from. -/
def survivors (sha256 : String → String) (options : QualityOptions) (parents : ParentTexts)
    (chunks : List RetrievedChunk) : List RetrievedChunk :=
  let result := nearStage sha256 options parents chunks
  if options.perDocumentLimit > 0 then applyPerDocumentLimit options.perDocumentLimit result
  else result

theorem applyQualityStrategies_eq (sha256 : String → String) (options : QualityOptions)
    (finalLimit : ℤ) (parents : ParentTexts) (chunks : List RetrievedChunk) :
    applyQualityStrategies sha256 options finalLimit parents chunks =
      takeTo finalLimit (if options.mmrEnabled then
        mmrSelect finalLimit options.mmrLambda (survivors sha256 options parents chunks)
        else survivors sha256 options parents chunks) := rfl

section Stages

variable (sha256 : String → String) (options : QualityOptions) (finalLimit : ℤ)
  (parents : ParentTexts) (chunks : List RetrievedChunk)

theorem nearStage_sublist :
    (nearStage sha256 options parents chunks).Sublist (exactStage sha256 options parents chunks) := by
  rw [nearStage]
  split
  · exact keepBy_sublist _ _ []
  · exact List.Sublist.refl _

theorem survivors_sublist :
    (survivors sha256 options parents chunks).Sublist (nearStage sha256 options parents chunks) := by
  rw [survivors]
  split
  · exact applyPerDocumentLimit_sublist _ _
  · exact List.Sublist.refl _

/-- The selection chooses from the survivors. -/
theorem applyQualityStrategies_subperm_survivors :
    (applyQualityStrategies sha256 options finalLimit parents chunks).Subperm
      (survivors sha256 options parents chunks) := by
  rw [applyQualityStrategies_eq]
  refine (takeTo_subperm finalLimit _).trans ?_
  split
  · exact mmrSelect_subperm _ _ _
  · exact List.Subperm.refl _

end Stages

/-- What holds of all pairs of some chunks, in either order, holds of those of a selection. -/
theorem pairwise_of_subperm {R : RetrievedChunk → RetrievedChunk → Prop}
    (hsymm : ∀ a b, R a b → R b a) {selected chunks : List RetrievedChunk}
    (h : selected.Subperm chunks) (hchunks : chunks.Pairwise R) : selected.Pairwise R := by
  obtain ⟨ordered, hperm, hsub⟩ := h
  exact (hperm.pairwise_iff fun {a b} ↦ hsymm a b).1 (hchunks.sublist hsub)

/-! ### Repetitions -/

/-- The overlap of two sets does not depend on their order. -/
theorem jaccard_comm {a b : List String} (ha : a.Nodup) (hb : b.Nodup) :
    jaccard a b = jaccard b a := by
  have hcommon : (a.filter b.contains).length = (b.filter a.contains).length := by
    refine List.Perm.length_eq ((List.perm_ext_iff_of_nodup (ha.filter _) (hb.filter _)).2 fun w ↦ ?_)
    simp only [List.mem_filter, List.contains_iff_mem]
    exact and_comm
  rw [jaccard, jaccard]
  refine if_congr and_comm rfl (if_congr or_comm rfl ?_)
  rw [hcommon, Nat.add_comm a.length]

theorem nodup_tokens (text : String) : (tokens text).Nodup := nodup_eraseDups _

/-- Two chunks overlap as much as the threshold says, or more. -/
def Overlap (threshold : ℚ) (a b : RetrievedChunk) : Prop :=
  threshold ≤ jaccard (tokens a.content) (tokens b.content)

theorem Overlap.symm {threshold : ℚ} {a b : RetrievedChunk} (h : Overlap threshold a b) :
    Overlap threshold b a := by
  rwa [Overlap, jaccard_comm (nodup_tokens _) (nodup_tokens _)]

section Repetitions

variable {sha256 : String → String} {options : QualityOptions} {parents : ParentTexts}
  {chunks : List RetrievedChunk}

theorem pairwise_exactStage (h : options.exactDedup = true) :
    (exactStage sha256 options parents chunks).Pairwise fun a b ↦ strip a.content ≠ strip b.content := by
  rw [exactStage, if_pos h, exactDeduplicate]
  refine (pairwise_keepBy (fun k x : RetrievedChunk ↦ decide
    (contentFingerprint sha256 k.content ≠ contentFingerprint sha256 x.content)) _).imp ?_
  intro a b hne heq
  exact of_decide_eq_true hne (congrArg sha256 heq)

theorem pairwise_nearStage (h : options.nearDedup = true) :
    (nearStage sha256 options parents chunks).Pairwise fun a b ↦
      ¬ Overlap options.nearDedupThreshold a b := by
  rw [nearStage, if_pos h, nearDeduplicate]
  refine (pairwise_keepBy (fun k x : RetrievedChunk ↦ decide
    (jaccard (tokens x.content) (tokens k.content) < options.nearDedupThreshold)) _).imp ?_
  intro a b hlt hoverlap
  exact not_le.2 (of_decide_eq_true hlt) hoverlap.symm

end Repetitions

/-! ### The choice of the selection -/

section Choice

theorem absRat_eq_abs (x : ℚ) : absRat x = |x| := by
  rw [absRat]
  split
  · next h => exact (abs_of_neg h).symm
  · next h => exact (abs_of_nonneg (not_lt.1 h)).symm

theorem isclose_iff {a b : ℚ} : isclose a b = true ↔ |a - b| ≤ max |a| |b| / 1000000000 := by
  rw [isclose, absRat_eq_abs, absRat_eq_abs, absRat_eq_abs]
  exact decide_eq_true_iff

@[simp] theorem isclose_self (a : ℚ) : isclose a a = true := by
  rw [isclose_iff, sub_self, abs_zero]
  exact div_nonneg (le_max_of_le_left (abs_nonneg a)) (by positivity)

/-- Closeness does not depend on the unit. -/
theorem isclose_mul {t : ℚ} (ht : 0 < t) (a b : ℚ) : isclose (t * a) (t * b) = isclose a b := by
  rw [Bool.eq_iff_iff, isclose_iff, isclose_iff, ← mul_sub, abs_mul, abs_mul, abs_mul, abs_of_pos ht,
    ← mul_max_of_nonneg _ _ ht.le, mul_div_assoc]
  exact mul_le_mul_iff_right₀ ht

/-- What lies between two close numbers is close to the greater. -/
theorem isclose_of_between {a b c : ℚ} (ha : 0 ≤ a) (hab : a ≤ b) (hbc : b ≤ c)
    (h : isclose a c = true) : isclose b c = true := by
  rw [isclose_iff] at h ⊢
  have hb : 0 ≤ b := ha.trans hab
  have hc : 0 ≤ c := hb.trans hbc
  rw [abs_of_nonneg ha, abs_of_nonneg hc, max_eq_right (hab.trans hbc),
    abs_of_nonpos (by linarith)] at h
  rw [abs_of_nonneg hb, abs_of_nonneg hc, max_eq_right hbc, abs_of_nonpos (by linarith)]
  linarith

/-- From one chunk to the next: another of the chunks, whose value is close. -/
def CloseTo (chunks : List RetrievedChunk) (value : RetrievedChunk → ℚ) (a b : RetrievedChunk) : Prop :=
  b ∈ chunks ∧ isclose (value b) (value a) = true

/-- The chunk is reached from a best one over chunks that are close, each to the one before. -/
def NearTop (chunks : List RetrievedChunk) (value : RetrievedChunk → ℚ) (seen : List RetrievedChunk)
    (chunk : RetrievedChunk) : Prop :=
  ∃ top ∈ seen, (∀ c ∈ seen, value c ≤ value top) ∧
    Relation.ReflTransGen (CloseTo chunks value) top chunk

variable {chunks seen : List RetrievedChunk} {value : RetrievedChunk → ℚ} {a b c top : RetrievedChunk}

/-- A chain of close values passes every value on its way down. -/
theorem chain_passes (hvalue : ∀ c ∈ chunks, 0 ≤ value c) (hc : c ∈ chunks)
    (h : Relation.ReflTransGen (CloseTo chunks value) top b) (hbc : value b ≤ value c)
    (hct : value c ≤ value top) : Relation.ReflTransGen (CloseTo chunks value) top c := by
  induction h with
  | refl =>
    have heq : value c = value top := le_antisymm hct hbc
    exact .single ⟨hc, by rw [heq]; exact isclose_self _⟩
  | @tail x b hchain hlink ih =>
    rcases le_or_gt (value x) (value c) with hle | hlt
    · exact ih hle
    · exact hchain.tail ⟨hc, isclose_of_between (hvalue b hlink.1) hbc hlt.le hlink.2⟩

/-- A round of the search for the best chunk: the chunk, and its place. -/
def betterOf (value : RetrievedChunk → ℚ) (best : RetrievedChunk × ℕ) (place : RetrievedChunk × ℕ) :
    RetrievedChunk × ℕ :=
  if value best.1 < value place.1 ∨
      (isclose (value place.1) (value best.1) = true ∧ place.1.chunkId < best.1.chunkId) then place
  else best

/-- The search, from the first chunk on. -/
theorem bestIndex_cons (value : RetrievedChunk → ℚ) (chunk : RetrievedChunk)
    (rest : List RetrievedChunk) :
    bestIndex value (chunk :: rest) = ((rest.zipIdx 1).foldl (betterOf value) (chunk, 0)).2 := by
  let record (best : RetrievedChunk × ℕ) : ℚ × Uuid × ℕ := (value best.1, best.1.chunkId, best.2)
  have hfold : ∀ (step : Option (ℚ × Uuid × ℕ) → RetrievedChunk × ℕ → Option (ℚ × Uuid × ℕ)),
      (∀ best place, step (some (record best)) place = some (record (betterOf value best place))) →
      ∀ (places : List (RetrievedChunk × ℕ)) (best : RetrievedChunk × ℕ),
        places.foldl step (some (record best)) = some (record (places.foldl (betterOf value) best)) := by
    intro step hstep places
    induction places with
    | nil => exact fun best ↦ rfl
    | cons place places ih =>
      intro best
      rw [List.foldl_cons, List.foldl_cons, hstep, ih]
  rw [bestIndex, List.zipIdx_cons, List.foldl_cons]
  refine congrArg (fun best : Option (ℚ × Uuid × ℕ) ↦ (best.map fun b ↦ b.2.2).getD 0)
    (hfold _ (fun best place ↦ ?_) (rest.zipIdx 1) (chunk, 0))
  rw [betterOf]
  dsimp only [record]
  split <;> rfl

/-- One round keeps to the chain. -/
theorem NearTop.better (hvalue : ∀ c ∈ chunks, 0 ≤ value c) {best place : RetrievedChunk × ℕ}
    (hbest : best.1 ∈ seen) (hplace : place.1 ∈ chunks) (h : NearTop chunks value seen best.1) :
    NearTop chunks value (seen ++ [place.1]) (betterOf value best place).1 := by
  obtain ⟨top, htop, hmax, hchain⟩ := h
  have hgrow : ∀ c ∈ seen ++ [place.1], c ∈ seen ∨ c = place.1 := fun c hc ↦
    (List.mem_append.1 hc).imp_right List.mem_singleton.1
  rcases le_or_gt (value place.1) (value top) with hle | hgt
  · -- The top stays where it is.
    refine ⟨top, List.mem_append_left _ htop, fun c hc ↦ ?_, ?_⟩
    · rcases hgrow c hc with hc | rfl
      · exact hmax c hc
      · exact hle
    rw [betterOf]
    split
    · next hbetter =>
      rcases le_or_gt (value best.1) (value place.1) with hbest | hbest
      · exact chain_passes hvalue hplace hchain hbest hle
      · rcases hbetter with hlt | ⟨hclose, -⟩
        · exact absurd hlt (not_lt.2 hbest.le)
        · exact hchain.tail ⟨hplace, hclose⟩
    · exact hchain
  · -- A new top is taken at once.
    refine ⟨place.1, List.mem_append_right _ (List.mem_singleton_self _), fun c hc ↦ ?_, ?_⟩
    · rcases hgrow c hc with hc | rfl
      · exact (hmax c hc).trans hgt.le
      · exact le_rfl
    · rw [betterOf, if_pos (.inl ((hmax _ hbest).trans_lt hgt))]

/-- With equal values the least id is kept. -/
theorem least_better {v : ℚ} (hvalue : ∀ c ∈ chunks, value c = v) {best place : RetrievedChunk × ℕ}
    (hbest : best.1 ∈ chunks) (hplace : place.1 ∈ chunks)
    (h : ∀ c ∈ seen, best.1.chunkId ≤ c.chunkId) :
    ∀ c ∈ seen ++ [place.1], (betterOf value best place).1.chunkId ≤ c.chunkId := by
  intro c hc
  have hclose : isclose (value place.1) (value best.1) = true := by
    rw [hvalue _ hplace, hvalue _ hbest]
    exact isclose_self v
  rcases List.mem_append.1 hc with hc | hc
  · rw [betterOf]
    split
    · next hbetter =>
      rcases hbetter with hlt | ⟨-, hlt⟩
      · rw [hvalue _ hplace, hvalue _ hbest] at hlt
        exact absurd hlt (lt_irrefl v)
      · exact hlt.le.trans (h c hc)
    · exact h c hc
  · rw [List.mem_singleton.1 hc, betterOf]
    split
    · exact le_rfl
    · next hworse => exact not_lt.1 fun hlt ↦ hworse (.inr ⟨hclose, hlt⟩)

/-- What a round of the search keeps, the search keeps. -/
theorem foldl_betterOf {P : List RetrievedChunk → RetrievedChunk → Prop}
    (hstep : ∀ seen (best place : RetrievedChunk × ℕ), best.1 ∈ seen → best.1 ∈ chunks →
      place.1 ∈ chunks → P seen best.1 → P (seen ++ [place.1]) (betterOf value best place).1)
    {rest : List RetrievedChunk} {best : RetrievedChunk × ℕ} (hall : chunks = seen ++ rest)
    (hplace : seen[best.2]? = some best.1) (h : P seen best.1) :
    chunks[((rest.zipIdx seen.length).foldl (betterOf value) best).2]? =
        some ((rest.zipIdx seen.length).foldl (betterOf value) best).1 ∧
      P chunks ((rest.zipIdx seen.length).foldl (betterOf value) best).1 := by
  induction rest generalizing seen best with
  | nil =>
    rw [List.append_nil] at hall
    rw [hall]
    exact ⟨hplace, h⟩
  | cons chunk rest ih =>
    have hmem : best.1 ∈ seen := List.mem_of_getElem? hplace
    have hround := hstep seen best (chunk, seen.length) hmem
      (hall ▸ List.mem_append_left _ hmem) (hall ▸ List.mem_append_right _ List.mem_cons_self) h
    have hnext : (seen ++ [chunk])[(betterOf value best (chunk, seen.length)).2]? =
        some (betterOf value best (chunk, seen.length)).1 := by
      rw [betterOf]
      split
      · exact List.getElem?_concat_length
      · rw [List.getElem?_append_left (List.getElem?_eq_some_iff.1 hplace).1, hplace]
    have hrest := ih (by rw [hall, List.append_assoc]; rfl) hnext hround
    rw [List.length_append] at hrest
    rw [List.zipIdx_cons, List.foldl_cons]
    exact hrest

theorem exists_bestIndex {P : List RetrievedChunk → RetrievedChunk → Prop}
    (hfirst : ∀ chunk, P [chunk] chunk)
    (hstep : ∀ seen (best place : RetrievedChunk × ℕ), best.1 ∈ seen → best.1 ∈ chunks →
      place.1 ∈ chunks → P seen best.1 → P (seen ++ [place.1]) (betterOf value best place).1)
    (hne : chunks ≠ []) : ∃ chunk, chunks[bestIndex value chunks]? = some chunk ∧ P chunks chunk := by
  obtain ⟨chunk, rest, rfl⟩ := List.exists_cons_of_ne_nil hne
  rw [bestIndex_cons]
  exact ⟨_, foldl_betterOf hstep (show chunk :: rest = [chunk] ++ rest from rfl)
    (show [chunk][(chunk, 0).2]? = some (chunk, 0).1 from rfl) (hfirst chunk)⟩

/-! ### The first result -/

theorem mmrLoop_prefix (lambdaMult maxScore : ℚ) (room : ℕ) (selected remaining : List RetrievedChunk) :
    selected <+: mmrLoop lambdaMult maxScore room selected remaining := by
  induction room generalizing selected remaining with
  | zero => exact List.prefix_refl selected
  | succ room ih =>
    rw [mmrLoop]
    split
    · exact List.prefix_refl selected
    · exact (List.prefix_append selected _).trans (ih _ _)

/-- The first choice is made by scores alone. -/
theorem mmrValue_nil (lambdaMult maxScore : ℚ) (chunk : RetrievedChunk) :
    mmrValue lambdaMult maxScore [] chunk = lambdaMult / maxScore * chunk.score := by
  have hnone : redundancy [] chunk = 0 := rfl
  rw [mmrValue, hnone, mul_zero, sub_zero, mul_div_assoc', div_mul_eq_mul_div]

theorem le_foldl_max (l : List ℚ) (x : ℚ) : x ≤ l.foldl max x := by
  induction l generalizing x with
  | nil => exact le_rfl
  | cons y l ih => exact (le_max_left x y).trans (ih (max x y))

theorem maxScore_pos (hscore : ∀ c ∈ chunks, 0 ≤ c.score) : 0 < maxScore chunks := by
  rcases chunks with - | ⟨chunk, chunks⟩
  · exact one_pos
  · rw [maxScore, orRat]
    split
    · exact one_pos
    · next hne =>
      have hfirst := hscore chunk List.mem_cons_self
      exact lt_of_le_of_ne (hfirst.trans (le_foldl_max _ _)) (Ne.symm hne)

/-- The head of a selection of several chunks is the first choice. -/
theorem head?_mmrSelect {limit : ℤ} (hlimit : 1 ≤ limit) (lambdaMult : ℚ) (hmany : 2 ≤ chunks.length)
    {first : RetrievedChunk} (hfirst : chunks[bestIndex
      (mmrValue lambdaMult (maxScore chunks) []) chunks]? = some first) :
    (mmrSelect limit lambdaMult chunks).head? = some first := by
  obtain ⟨room, hroom⟩ : ∃ room, limit.toNat = room + 1 := ⟨limit.toNat - 1, by omega⟩
  rw [mmrSelect, if_neg (by omega), hroom, mmrLoop]
  simp only [hfirst]
  obtain ⟨back, hback⟩ := mmrLoop_prefix lambdaMult (maxScore chunks) room ([] ++ [first])
    (chunks.eraseIdx (bestIndex (mmrValue lambdaMult (maxScore chunks) []) chunks))
  rw [← hback]
  rfl

/-- The chunks that are near the top do not depend on the unit of the scores. -/
theorem nearTop_mul {t : ℚ} (ht : 0 < t) (h : NearTop chunks (fun c ↦ t * c.score) seen a) :
    NearTop chunks RetrievedChunk.score seen a := by
  obtain ⟨top, htop, hmax, hchain⟩ := h
  refine ⟨top, htop, fun c hc ↦ le_of_mul_le_mul_left (hmax c hc) ht, ?_⟩
  refine Relation.ReflTransGen.mono (fun x y ⟨hy, hclose⟩ ↦ ⟨hy, ?_⟩) _ _ hchain
  rwa [isclose_mul ht] at hclose

theorem nearTop_singleton (chunks : List RetrievedChunk) (value : RetrievedChunk → ℚ)
    (chunk : RetrievedChunk) : NearTop chunks value [chunk] chunk :=
  ⟨chunk, List.mem_singleton_self chunk, fun _ hc ↦ (congrArg value (List.mem_singleton.1 hc)).le, .refl⟩

/-- **The first choice is near the top.** -/
theorem head_mmrSelect {limit : ℤ} (hlimit : 1 ≤ limit) {lambdaMult : ℚ}
    (hscore : ∀ c ∈ chunks, 0 ≤ c.score) {first : RetrievedChunk}
    (hfirst : (mmrSelect limit lambdaMult chunks).head? = some first) :
    (0 < lambdaMult → NearTop chunks RetrievedChunk.score chunks first) ∧
      (lambdaMult = 0 → ∀ c ∈ chunks, first.chunkId ≤ c.chunkId) := by
  rcases chunks with - | ⟨x, - | ⟨y, rest⟩⟩
  · have hnone : mmrSelect limit lambdaMult [] = [] := by
      rw [mmrSelect, if_pos (.inr (Nat.zero_le 1)), takeTo, List.take_nil]
    rw [hnone] at hfirst
    cases hfirst
  · have hone : mmrSelect limit lambdaMult [x] = [x] := by
      rw [mmrSelect, if_pos (.inr (show [x].length ≤ 1 from le_rfl)), takeTo_singleton hlimit]
    rw [hone] at hfirst
    obtain rfl := Option.some.inj hfirst
    exact ⟨fun _ ↦ nearTop_singleton _ _ _, fun _ c hc ↦ (List.mem_singleton.1 hc).symm ▸ le_rfl⟩
  · have hmany : 2 ≤ (x :: y :: rest).length := Nat.le_add_left 2 rest.length
    have hne : x :: y :: rest ≠ [] := List.cons_ne_nil _ _
    have hvalue : mmrValue lambdaMult (maxScore (x :: y :: rest)) [] =
        fun c ↦ lambdaMult / maxScore (x :: y :: rest) * c.score := funext fun c ↦ mmrValue_nil _ _ c
    constructor
    · intro hlambda
      have ht : 0 < lambdaMult / maxScore (x :: y :: rest) := div_pos hlambda (maxScore_pos hscore)
      have hnonneg : ∀ c ∈ x :: y :: rest,
          0 ≤ mmrValue lambdaMult (maxScore (x :: y :: rest)) [] c := fun c hc ↦ by
        rw [hvalue]
        exact mul_nonneg ht.le (hscore c hc)
      obtain ⟨chosen, hchosen, hnear⟩ := exists_bestIndex (nearTop_singleton (x :: y :: rest) _)
        (fun seen best place hbest _ hplace h ↦ h.better hnonneg hbest hplace) hne
      obtain rfl : chosen = first :=
        Option.some.inj ((head?_mmrSelect hlimit lambdaMult hmany hchosen).symm.trans hfirst)
      rw [hvalue] at hnear
      exact nearTop_mul ht hnear
    · rintro rfl
      have hzero : ∀ c ∈ x :: y :: rest, mmrValue 0 (maxScore (x :: y :: rest)) [] c = 0 :=
        fun c _ ↦ by rw [mmrValue_nil, zero_div, zero_mul]
      obtain ⟨chosen, hchosen, hleast⟩ := exists_bestIndex
        (P := fun seen best ↦ ∀ c ∈ seen, best.chunkId ≤ c.chunkId)
        (fun chunk c hc ↦ (List.mem_singleton.1 hc).symm ▸ le_rfl)
        (fun seen best place _ hbest hplace h ↦ least_better hzero hbest hplace h) hne
      obtain rfl : chosen = first :=
        Option.some.inj ((head?_mmrSelect hlimit 0 hmany hchosen).symm.trans hfirst)
      exact hleast

end Choice

/-! ### The guarantees -/

/-- What holds of the results, apart from which one is the first. -/
structure QualityGuarantees (sha256 : String → String) (options : QualityOptions) (finalLimit : ℤ)
    (parents : ParentTexts) (chunks out : List RetrievedChunk) : Prop where
  length_le : (out.length : ℤ) ≤ finalLimit
  distinct : (out.map RetrievedChunk.chunkId).Nodup
  fromInput : ∀ c ∈ out, ∃ given ∈ chunks,
    c = if options.parentChildExpand then expandChunk parents given else given
  exactDistinct : options.exactDedup = true →
    out.Pairwise fun a b ↦ strip a.content ≠ strip b.content
  nearDistinct : options.nearDedup = true → out.Pairwise fun a b ↦
    jaccard (tokens a.content) (tokens b.content) < options.nearDedupThreshold
  perDocument : 0 < options.perDocumentLimit → ∀ documentId,
    ((out.countP fun c ↦ c.documentId = documentId : ℕ) : ℤ) ≤ options.perDocumentLimit
  ordered : options.mmrEnabled = false → out.Sublist (expandedChunks options parents chunks)
  /-- A chunk that exact dedup drops has the text of an earlier one, which is kept. -/
  exactJustified : options.exactDedup = true → ∀ front c back,
    expandedChunks options parents chunks = front ++ c :: back →
      c ∈ exactStage sha256 options parents chunks ∨
        ∃ kept ∈ front, kept ∈ exactStage sha256 options parents chunks ∧
          contentFingerprint sha256 kept.content = contentFingerprint sha256 c.content
  /-- A chunk that near dedup drops overlaps with an earlier one, which is kept. -/
  nearJustified : options.nearDedup = true → ∀ front c back,
    exactStage sha256 options parents chunks = front ++ c :: back →
      c ∈ nearStage sha256 options parents chunks ∨
        ∃ kept ∈ front, kept ∈ nearStage sha256 options parents chunks ∧
          options.nearDedupThreshold ≤ jaccard (tokens c.content) (tokens kept.content)

section Guarantees

variable {sha256 : String → String} {options : QualityOptions} {finalLimit : ℤ}
  {parents : ParentTexts} {chunks : List RetrievedChunk}

theorem exact_justified (h : options.exactDedup = true) {front back : List RetrievedChunk}
    {c : RetrievedChunk} (hall : expandedChunks options parents chunks = front ++ c :: back) :
    c ∈ exactStage sha256 options parents chunks ∨
      ∃ kept ∈ front, kept ∈ exactStage sha256 options parents chunks ∧
        contentFingerprint sha256 kept.content = contentFingerprint sha256 c.content := by
  rw [exactStage, if_pos h, exactDeduplicate, hall]
  refine (mem_keepBy_or_refused front c back).imp_right fun ⟨hrefused, hsub⟩ ↦ ?_
  obtain ⟨kept, hkept, heq⟩ := List.all_eq_false.1 hrefused
  exact ⟨kept, (keepBy_sublist _ front []).subset hkept, hsub hkept, by simpa using heq⟩

theorem near_justified (h : options.nearDedup = true) {front back : List RetrievedChunk}
    {c : RetrievedChunk} (hall : exactStage sha256 options parents chunks = front ++ c :: back) :
    c ∈ nearStage sha256 options parents chunks ∨
      ∃ kept ∈ front, kept ∈ nearStage sha256 options parents chunks ∧
        options.nearDedupThreshold ≤ jaccard (tokens c.content) (tokens kept.content) := by
  rw [nearStage, if_pos h, nearDeduplicate, hall]
  refine (mem_keepBy_or_refused front c back).imp_right fun ⟨hrefused, hsub⟩ ↦ ?_
  obtain ⟨kept, hkept, heq⟩ := List.all_eq_false.1 hrefused
  exact ⟨kept, (keepBy_sublist _ front []).subset hkept, hsub hkept, by simpa using heq⟩

theorem countP_survivors_le (h : 0 < options.perDocumentLimit) (documentId : Uuid) :
    (((survivors sha256 options parents chunks).countP fun c ↦ c.documentId = documentId : ℕ) : ℤ) ≤
      options.perDocumentLimit := by
  rw [survivors, if_pos h, applyPerDocumentLimit, if_neg (by omega)]
  exact @countP_keepBy_le _ (nearStage sha256 options parents chunks) _ _ RetrievedChunk.documentId _ []
    (fun d ↦ h.le) documentId

theorem exactStage_sublist : (exactStage sha256 options parents chunks).Sublist
    (expandedChunks options parents chunks) := by
  rw [exactStage]
  split
  · exact keepBy_sublist _ _ []
  · exact List.Sublist.refl _

theorem survivors_sublist_expanded : (survivors sha256 options parents chunks).Sublist
    (expandedChunks options parents chunks) :=
  (survivors_sublist ..).trans ((nearStage_sublist ..).trans exactStage_sublist)

theorem qualityGuarantees (hids : (chunks.map RetrievedChunk.chunkId).Nodup)
    (hlimit : 1 ≤ finalLimit) : QualityGuarantees sha256 options finalLimit parents chunks
      (applyQualityStrategies sha256 options finalLimit parents chunks) where
  length_le := by
    have hlength := List.length_take_le finalLimit.toNat (if options.mmrEnabled then
      mmrSelect finalLimit options.mmrLambda (survivors sha256 options parents chunks)
      else survivors sha256 options parents chunks)
    rw [applyQualityStrategies_eq, takeTo, if_pos (by omega)]
    omega
  distinct := nodup_applyQualityStrategies sha256 options finalLimit parents hids
  fromInput c hc := mem_applyQualityStrategies hc
  exactDistinct h := by
    have hsurvive := ((survivors_sublist sha256 options parents chunks).trans
      (nearStage_sublist sha256 options parents chunks))
    exact pairwise_of_subperm (fun _ _ hne ↦ hne.symm)
      (applyQualityStrategies_subperm_survivors sha256 options finalLimit parents chunks)
      ((pairwise_exactStage h).sublist hsurvive)
  nearDistinct h := by
    refine (pairwise_of_subperm (fun _ _ hno hover ↦ hno hover.symm)
      (applyQualityStrategies_subperm_survivors sha256 options finalLimit parents chunks)
      ((pairwise_nearStage h).sublist (survivors_sublist sha256 options parents chunks))).imp ?_
    exact fun hno ↦ not_le.1 hno
  perDocument h documentId := by
    have hcount := (applyQualityStrategies_subperm_survivors sha256 options finalLimit parents
      chunks).countP_le fun c ↦ c.documentId = documentId
    exact (Int.ofNat_le.2 hcount).trans (countP_survivors_le h documentId)
  ordered h := by
    rw [applyQualityStrategies_eq, h]
    exact (takeTo_sublist _ _).trans survivors_sublist_expanded
  exactJustified h _ _ _ hall := exact_justified h hall
  nearJustified h _ _ _ hall := near_justified h hall

theorem head?_takeTo {α : Type} (hlimit : 1 ≤ finalLimit) (xs : List α) :
    (takeTo finalLimit xs).head? = xs.head? := by
  rw [takeTo, if_pos (by omega), List.head?_take, if_neg (by omega)]

theorem expandChunk_score (parents : ParentTexts) (chunk : RetrievedChunk) :
    (expandChunk parents chunk).score = chunk.score := by
  rw [expandChunk]
  split <;> rfl

theorem score_nonneg_survivors (hscore : ∀ c ∈ chunks, 0 ≤ c.score) :
    ∀ c ∈ survivors sha256 options parents chunks, 0 ≤ c.score := by
  intro c hc
  have hexpanded := survivors_sublist_expanded.subset hc
  rw [expandedChunks] at hexpanded
  split at hexpanded
  · obtain ⟨given, hgiven, rfl⟩ := List.mem_map.1 hexpanded
    rw [expandChunk_score]
    exact hscore given hgiven
  · exact hscore c hexpanded

end Guarantees

/-- A chunk with this id and score. -/
def scoredChunk (id : Uuid) (score : ℚ) : RetrievedChunk := ⟨id, 0, "", score, "", 0, none, []⟩

/-- The first result has the maximal score among the survivors. -/
def FirstMaximal (options : QualityOptions) (finalLimit : ℤ) (chunks : List RetrievedChunk) : Prop :=
  ∀ first, (applyQualityStrategies (fun text ↦ text) options finalLimit (fun _ _ ↦ none)
      chunks).head? = some first →
    ∀ c ∈ survivors (fun text ↦ text) options (fun _ _ ↦ none) chunks, c.score ≤ first.score

theorem not_firstMaximal {options : QualityOptions} {finalLimit : ℤ} {chunks : List RetrievedChunk}
    {score : ℚ} (hfirst : (applyQualityStrategies (fun text ↦ text) options finalLimit (fun _ _ ↦ none)
      chunks).head?.map RetrievedChunk.score = some score)
    (hbetter : ∃ c ∈ survivors (fun text ↦ text) options (fun _ _ ↦ none) chunks, score < c.score) :
    ¬ FirstMaximal options finalLimit chunks := by
  intro h
  obtain ⟨first, hhead, rfl⟩ := Option.map_eq_some_iff.1 hfirst
  obtain ⟨c, hc, hlt⟩ := hbetter
  exact absurd (h first hhead c hc) (not_le.2 hlt)

end GenericApp
