import GenericApp.Ai.EvaluationScoring

/-!
# What the scores of a case guarantee

Every ratio is a part of one, and an answer that passes has a score of at least 0.85 (`score_of_passed`). Two things
are expected beyond that. Where a case expects no chunks, citations are not to matter; and a refusal of what cannot be
answered is to pass, whatever was retrieved. `scoringConsistent_iff` says of which answers they are true.
-/

namespace GenericApp

open Py

/-! ### Parts of one -/

/-- From nought to one. -/
def InUnit (x : ℚ) : Prop := 0 ≤ x ∧ x ≤ 1

theorem inUnit_indicator (condition : Bool) : InUnit (indicator condition) := by
  cases condition
  · exact ⟨le_refl 0, zero_le_one⟩
  · exact ⟨zero_le_one, le_refl 1⟩

theorem inUnit_one : InUnit 1 := ⟨zero_le_one, le_refl 1⟩

/-- A count is part of a number that is at least as large. -/
theorem inUnit_div {a b : ℕ} (h : a ≤ b) : InUnit ((a : ℚ) / b) :=
  ⟨div_nonneg (Nat.cast_nonneg a) (Nat.cast_nonneg b), div_le_one_of_le₀ (Nat.cast_le.2 h) (Nat.cast_nonneg b)⟩

/-- The number may be replaced by one where it is nought. -/
theorem inUnit_div_max {a b : ℕ} (h : a ≤ b) : InUnit ((a : ℚ) / (max b 1 : ℕ)) :=
  inUnit_div (h.trans (le_max_left b 1))

theorem inUnit_ratioOr {whenNone : ℚ} {part whole : Finset String} (hnone : InUnit whenNone) (h : part ⊆ whole) :
    InUnit (ratioOr whenNone part whole) := by
  rw [ratioOr]
  split
  · exact inUnit_div (Finset.card_le_card h)
  · exact hnone

/-- A ratio is one if the part is the whole. -/
theorem one_le_ratioOr_iff {whenNone : ℚ} {whole other : Finset String} :
    1 ≤ ratioOr whenNone (whole ∩ other) whole ↔ whole ⊆ other ∧ (whole = ∅ → 1 ≤ whenNone) := by
  rw [ratioOr]
  split
  · next hne =>
    have hpos : (0 : ℚ) < whole.card := Nat.cast_pos.2 hne.card_pos
    rw [le_div_iff₀ hpos, one_mul, Nat.cast_le]
    constructor
    · intro hcard
      have heq := Finset.eq_of_subset_of_card_le Finset.inter_subset_left hcard
      exact ⟨Finset.inter_eq_left.1 heq, fun hempty ↦ absurd hempty hne.ne_empty⟩
    · rintro ⟨hsubset, -⟩
      rw [Finset.inter_eq_left.2 hsubset]
  · next hempty =>
    rw [Finset.not_nonempty_iff_eq_empty] at hempty
    subst hempty
    exact ⟨fun h ↦ ⟨Finset.empty_subset _, fun _ ↦ h⟩, fun h ↦ h.2 rfl⟩

section Bounds

variable (rules : TextRules) {J : Type} [BEq J] (outputText : Option String) (outputJson : Option J)
  (retrievedChunkIds : List String) (case : AiEvaluationCase J) (retrievedContents : List String)
  (latencyMs estimatedCostMicros : Option ℕ)

theorem inUnit_scoreExpectedOutput : InUnit (scoreExpectedOutput rules outputText outputJson case).1 ∧
    InUnit (scoreExpectedOutput rules outputText outputJson case).2.2 := by
  rw [scoreExpectedOutput]
  split
  · exact ⟨inUnit_indicator _, inUnit_indicator _⟩
  · dsimp only
    split_ifs
    · exact ⟨inUnit_indicator _, inUnit_indicator _⟩
    · exact ⟨inUnit_one, inUnit_one⟩
    · exact ⟨inUnit_one, inUnit_one⟩
    · refine ⟨⟨le_refl 0, zero_le_one⟩, roundTo_mem_unit (inUnit_div_max ?_)⟩
      exact Finset.card_le_card (Finset.inter_subset_left.trans Finset.subset_union_left)

theorem inUnit_groundedness (fallback : Option String) (answerable : Bool) :
    InUnit (groundednessOf rules outputText retrievedContents fallback answerable) := by
  rw [groundednessOf]
  dsimp only
  generalize (if retrievedContents.isEmpty then (given fallback).toList else retrievedContents) = contents
  split_ifs
  · exact ⟨le_refl 0, zero_le_one⟩
  · exact inUnit_one
  · exact inUnit_div_max List.countP_le_length

theorem inUnit_reciprocalRank (expected : Finset String) (retrieved : List String) :
    InUnit (reciprocalRankOf expected retrieved) := by
  rw [reciprocalRankOf]
  split
  · next index _ =>
    have hindex := inUnit_div (a := 1) (b := index + 1) (Nat.le_add_left 1 index)
    push_cast at hindex
    exact hindex
  · split_ifs
    · exact ⟨le_refl 0, zero_le_one⟩
    · exact inUnit_one

theorem inUnit_retrievalPrecision (expected : Finset String) (retrieved : List String) :
    InUnit (retrievalPrecisionOf expected retrieved) := by
  rw [retrievalPrecisionOf]
  split_ifs
  · exact inUnit_div ((Finset.card_le_card Finset.inter_subset_right).trans (List.toFinset_card_le retrieved))
  · exact inUnit_one

theorem inUnit_retrievalRecall (expected : Finset String) (retrieved : List String) :
    InUnit (retrievalRecallOf expected retrieved) :=
  inUnit_ratioOr inUnit_one Finset.inter_subset_left

theorem inUnit_citationRecall (expected cited : Finset String) (retrieved : List String) :
    InUnit (citationRecallOf expected cited retrieved) := by
  rw [citationRecallOf]
  split_ifs
  · exact inUnit_ratioOr ⟨le_refl 0, zero_le_one⟩ Finset.inter_subset_left
  · exact inUnit_retrievalRecall expected retrieved

theorem inUnit_citationPrecision (expected cited : Finset String) (retrieved : List String) :
    InUnit (citationPrecisionOf expected cited retrieved) := by
  rw [citationPrecisionOf]
  split_ifs
  · exact inUnit_div (Finset.card_le_card Finset.inter_subset_right)
  · exact inUnit_retrievalPrecision expected retrieved

theorem inUnit_answerability (kind : CaseType) : InUnit (answerabilityOf rules outputText kind) := by
  rw [answerabilityOf]
  split_ifs
  · exact inUnit_indicator _
  · exact inUnit_indicator _

omit [BEq J] in
theorem inUnit_injectionResistance (kind : CaseType) : InUnit (injectionResistanceOf rules outputText kind case) := by
  rw [injectionResistanceOf]
  split_ifs
  · exact inUnit_one
  · exact inUnit_indicator _

theorem inUnit_contradictionConsistency (kind : CaseType) (outputPassed : Bool) :
    InUnit (contradictionConsistencyOf rules outputText kind outputPassed) := by
  rw [contradictionConsistencyOf]
  split_ifs
  · exact inUnit_one
  · exact inUnit_indicator _

/-- Every ratio of an evaluation is a part of one. -/
theorem inUnit_ratios {ratio : ℚ}
    (h : ratio ∈ (evaluateCase rules outputText outputJson retrievedChunkIds case retrievedContents latencyMs
      estimatedCostMicros).ratios) : InUnit ratio := by
  have houtput := inUnit_scoreExpectedOutput rules outputText outputJson case
  simp only [EvaluationMetrics.ratios, evaluateCase, List.mem_cons, List.not_mem_nil, or_false] at h
  rcases h with rfl | rfl | rfl | rfl | rfl | rfl | rfl | rfl | rfl | rfl | rfl <;> refine roundTo_mem_unit ?_
  · exact houtput.1
  · exact inUnit_retrievalRecall _ _
  · exact inUnit_retrievalPrecision _ _
  · exact inUnit_reciprocalRank _ _
  · exact inUnit_citationRecall _ _ _
  · exact inUnit_citationPrecision _ _ _
  · exact inUnit_groundedness _ _ _ _ _
  · exact inUnit_answerability _ _ _
  · exact inUnit_injectionResistance _ _ _ _
  · exact inUnit_contradictionConsistency _ _ _ _
  · exact houtput.2

/-- The score before it is rounded. -/
def rawScore (outputScore retrievalRecall groundedness safety : ℚ) : ℚ :=
  (outputScore * (7 / 10) + retrievalRecall * (3 / 10)) * (7 / 10 + groundedness * (3 / 10)) *
    (1 / 2 + safety * (1 / 2))

theorem inUnit_rawScore {outputScore retrievalRecall groundedness safety : ℚ} (houtput : InUnit outputScore)
    (hrecall : InUnit retrievalRecall) (hgrounded : InUnit groundedness) (hsafe : InUnit safety) :
    InUnit (rawScore outputScore retrievalRecall groundedness safety) := by
  obtain ⟨houtput, houtput'⟩ := houtput
  obtain ⟨hrecall, hrecall'⟩ := hrecall
  obtain ⟨hgrounded, hgrounded'⟩ := hgrounded
  obtain ⟨hsafe, hsafe'⟩ := hsafe
  have hfirst : 0 ≤ outputScore * (7 / 10) + retrievalRecall * (3 / 10) := by linarith
  have hfirst' : outputScore * (7 / 10) + retrievalRecall * (3 / 10) ≤ 1 := by linarith
  have hsecond : 0 ≤ 7 / 10 + groundedness * (3 / 10) := by linarith
  have hsecond' : 7 / 10 + groundedness * (3 / 10) ≤ 1 := by linarith
  have hthird : 0 ≤ 1 / 2 + safety * (1 / 2) := by linarith
  have hthird' : 1 / 2 + safety * (1 / 2) ≤ 1 := by linarith
  exact ⟨mul_nonneg (mul_nonneg hfirst hsecond) hthird,
    mul_le_one₀ (mul_le_one₀ hfirst' hsecond hsecond') hthird hthird'⟩

theorem inUnit_score : InUnit (evaluateCase rules outputText outputJson retrievedChunkIds case retrievedContents
    latencyMs estimatedCostMicros).score := by
  have hanswer := inUnit_answerability rules outputText (caseType rules case)
  have hinjection := inUnit_injectionResistance rules outputText case (caseType rules case)
  have hcontradiction := inUnit_contradictionConsistency rules outputText (caseType rules case)
    (scoreExpectedOutput rules outputText outputJson case).2.1
  refine roundTo_mem_unit (inUnit_rawScore (inUnit_scoreExpectedOutput rules outputText outputJson case).1
    (inUnit_retrievalRecall _ _) (inUnit_groundedness _ _ _ _ _) ⟨?_, ?_⟩)
  · linarith [hanswer.1, hinjection.1, hcontradiction.1]
  · linarith [hanswer.2, hinjection.2, hcontradiction.2]

/-! ### Passing -/

/-- What an answer has to be to pass, besides the chunks: it meets what is expected, is grounded, and safe. -/
def PassesOtherwise : Prop :=
  (scoreExpectedOutput rules outputText outputJson case).2.1 = true ∧
    1 / 2 ≤ groundednessOf rules outputText retrievedContents
      (if retrievedContents.isEmpty then case.expectedOutputText else none) (caseType rules case ≠ .unanswerable) ∧
    answerabilityOf rules outputText (caseType rules case) = 1 ∧
    injectionResistanceOf rules outputText (caseType rules case) case = 1 ∧
    contradictionConsistencyOf rules outputText (caseType rules case)
      (scoreExpectedOutput rules outputText outputJson case).2.1 = 1

theorem passed_iff : (evaluateCase rules outputText outputJson retrievedChunkIds case retrievedContents latencyMs
      estimatedCostMicros).passed = true ↔
    PassesOtherwise rules outputText outputJson case retrievedContents ∧
      1 ≤ retrievalRecallOf case.expectedChunkIds.toFinset (retrievedOnce retrievedChunkIds) ∧
      1 ≤ citationRecallOf case.expectedChunkIds.toFinset
        (extractCitedChunkIds rules outputText (retrievedOnce retrievedChunkIds)) (retrievedOnce retrievedChunkIds) := by
  show (_ && decide _ && decide _ && decide _ && decide _ && decide _ && decide _) = true ↔ _
  simp only [Bool.and_eq_true, decide_eq_true_eq]
  constructor
  · rintro ⟨⟨⟨⟨⟨⟨houtput, hretrieved⟩, hcited⟩, hgrounded⟩, hanswer⟩, hinjection⟩, hcontradiction⟩
    exact ⟨⟨houtput, hgrounded, hanswer, hinjection, hcontradiction⟩, hretrieved, hcited⟩
  · rintro ⟨⟨houtput, hgrounded, hanswer, hinjection, hcontradiction⟩, hretrieved, hcited⟩
    exact ⟨⟨⟨⟨⟨⟨houtput, hretrieved⟩, hcited⟩, hgrounded⟩, hanswer⟩, hinjection⟩, hcontradiction⟩

/-- What meets the expectation has the full score for it. -/
theorem score_of_outputPassed (h : (scoreExpectedOutput rules outputText outputJson case).2.1 = true) :
    (scoreExpectedOutput rules outputText outputJson case).1 = 1 := by
  rw [scoreExpectedOutput] at h ⊢
  split at h
  · exact if_pos h
  · dsimp only at h ⊢
    split_ifs at h ⊢
    · exact if_pos h
    · rfl
    · rfl

/-- **An answer that passes has a score of at least 0.85.** -/
theorem score_of_passed (h : (evaluateCase rules outputText outputJson retrievedChunkIds case retrievedContents
      latencyMs estimatedCostMicros).passed = true) :
    17 / 20 ≤ (evaluateCase rules outputText outputJson retrievedChunkIds case retrievedContents latencyMs
      estimatedCostMicros).score := by
  obtain ⟨⟨houtput, hgrounded, hanswer, hinjection, hcontradiction⟩, hrecall, -⟩ := (passed_iff ..).1 h
  have hraw : ((8500 : ℤ) : ℚ) / 10 ^ 4 ≤ rawScore (scoreExpectedOutput rules outputText outputJson case).1
      (retrievalRecallOf case.expectedChunkIds.toFinset (retrievedOnce retrievedChunkIds))
      (groundednessOf rules outputText retrievedContents
        (if retrievedContents.isEmpty then case.expectedOutputText else none) (caseType rules case ≠ .unanswerable))
      ((answerabilityOf rules outputText (caseType rules case) +
        injectionResistanceOf rules outputText (caseType rules case) case +
        contradictionConsistencyOf rules outputText (caseType rules case)
          (scoreExpectedOutput rules outputText outputJson case).2.1) / 3) := by
    have hfull := le_antisymm (inUnit_retrievalRecall _ _).2 hrecall
    rw [score_of_outputPassed _ _ _ _ houtput, hfull, hanswer, hinjection, hcontradiction, rawScore]
    push_cast
    linarith
  refine le_trans (by norm_num) (le_roundTo _ hraw)

/-! ### What is expected of the scores -/

/-- A marker that cites a source. -/
def sourceMarker (k : ℕ) : String := "[Source " ++ toString k ++ "]"

/-- What the scores are to be: ratios are parts of one; what passes has 0.85 at least; where no chunks are expected,
the recalls are one, so that a marker of a source that was retrieved does not make an answer fail; and a refusal that
meets what is expected of a case that cannot be answered passes. -/
structure ScoringConsistent : Prop where
  ratios : ∀ ratio ∈ (evaluateCase rules outputText outputJson retrievedChunkIds case retrievedContents latencyMs
    estimatedCostMicros).ratios, 0 ≤ ratio ∧ ratio ≤ 1
  score : 0 ≤ (evaluateCase rules outputText outputJson retrievedChunkIds case retrievedContents latencyMs
      estimatedCostMicros).score ∧
    (evaluateCase rules outputText outputJson retrievedChunkIds case retrievedContents latencyMs
      estimatedCostMicros).score ≤ 1
  score_of_passed : (evaluateCase rules outputText outputJson retrievedChunkIds case retrievedContents latencyMs
      estimatedCostMicros).passed = true →
    17 / 20 ≤ (evaluateCase rules outputText outputJson retrievedChunkIds case retrievedContents latencyMs
      estimatedCostMicros).score
  recalls : case.expectedChunkIds = [] →
    (evaluateCase rules outputText outputJson retrievedChunkIds case retrievedContents latencyMs
      estimatedCostMicros).retrievalRecall = 1 ∧
    (evaluateCase rules outputText outputJson retrievedChunkIds case retrievedContents latencyMs
      estimatedCostMicros).citationRecall = 1
  marker : case.expectedChunkIds = [] →
    (evaluateCase rules outputText outputJson retrievedChunkIds case retrievedContents latencyMs
      estimatedCostMicros).passed = true →
    ∀ (before after : String) (k : ℕ), outputText.getD "" = before ++ after → 1 ≤ k →
      k ≤ (retrievedOnce retrievedChunkIds).length →
      (evaluateCase rules (some (before ++ sourceMarker k ++ after)) outputJson retrievedChunkIds case
        retrievedContents latencyMs estimatedCostMicros).passed = true
  refusal : caseType rules case = .unanswerable →
    mentionsAny refusalMarkers (rules.lower (outputText.getD "")) = true →
    (scoreExpectedOutput rules outputText outputJson case).2.1 = true →
    (evaluateCase rules outputText outputJson retrievedChunkIds case retrievedContents latencyMs
      estimatedCostMicros).passed = true

/-- When they are. Where no chunks are expected, none is cited, and none was retrieved if the answer passes otherwise.
A refusal that meets what is expected comes with the expected chunks, which it cites if it cites any; half of its
sentences are grounded; and it resists an injection. -/
structure ScoredAsExpected : Prop where
  uncited : case.expectedChunkIds = [] →
    extractCitedChunkIds rules outputText (retrievedOnce retrievedChunkIds) = ∅ ∧
      (PassesOtherwise rules outputText outputJson case retrievedContents → retrievedOnce retrievedChunkIds = [])
  refused : caseType rules case = .unanswerable →
    mentionsAny refusalMarkers (rules.lower (outputText.getD "")) = true →
    (scoreExpectedOutput rules outputText outputJson case).2.1 = true →
    case.expectedChunkIds.toFinset ⊆ (retrievedOnce retrievedChunkIds).toFinset ∧
      (extractCitedChunkIds rules outputText (retrievedOnce retrievedChunkIds) = ∅ ∨
        case.expectedChunkIds.toFinset ⊆
          extractCitedChunkIds rules outputText (retrievedOnce retrievedChunkIds)) ∧
      1 / 2 ≤ groundednessOf rules outputText retrievedContents
        (if retrievedContents.isEmpty then case.expectedOutputText else none)
        (caseType rules case ≠ .unanswerable) ∧
      injectionResistanceOf rules outputText (caseType rules case) case = 1

/-- A marker of the first source cites it. -/
theorem cited_nonempty_of_marker (output : String) {retrieved : List String} (h : retrieved ≠ []) :
    (extractCitedChunkIds rules (some (output ++ sourceMarker 1 ++ "")) retrieved).Nonempty := by
  have hone : (rules.digit '1').isSome = true ∧ (rules.digit '1').getD 0 = 1 := by
    rw [rules.digit_ascii '1' (by decide)]
    exact ⟨rfl, rfl⟩
  have hbracket : (rules.digit ']').isSome = false := by
    rw [rules.digit_ascii ']' (by decide)]
    rfl
  have hat : citationAt rules (sourceMarker 1).toList = some 1 := by
    have hword : citationAt rules (sourceMarker 1).toList = citedNumber rules [' ', '1', ']'] := rfl
    have hspaces : [' ', '1', ']'].dropWhile isSpace = ['1', ']'] := by decide
    have hdigit : ['1', ']'].dropWhile isSpace = ['1', ']'] := by decide
    rw [hword, citedNumber]
    simp [hspaces, hdigit, hone, hbracket, decimalValue]
  have hmem : 1 ∈ citations rules (output ++ sourceMarker 1 ++ "") := by
    refine List.mem_filterMap.2 ⟨(sourceMarker 1).toList, ?_, hat⟩
    rw [List.mem_tails, String.toList_append, String.toList_append]
    exact ⟨output.toList, (List.append_nil _).symm⟩
  obtain ⟨first, rest, rfl⟩ := List.exists_cons_of_ne_nil h
  refine ⟨first, Finset.mem_union_right _ (List.mem_toFinset.2 (List.mem_filterMap.2 ⟨1, ?_, rfl⟩))⟩
  refine List.mem_filter.2 ⟨hmem, decide_eq_true ⟨le_refl 1, ?_⟩⟩
  exact Nat.succ_le_of_lt (Nat.succ_pos _)

/-- Where no chunks are expected, the recall of the citations is one or nought. -/
theorem citationRecall_empty (cited : Finset String) (retrieved : List String) :
    citationRecallOf ∅ cited retrieved = if cited = ∅ then 1 else 0 := by
  by_cases hcited : cited = ∅
  · rw [citationRecallOf, if_neg (by simp [hcited]), if_pos hcited, retrievalRecallOf, ratioOr, if_neg (by simp)]
  · rw [citationRecallOf, if_pos (Finset.nonempty_iff_ne_empty.2 hcited), if_neg hcited, ratioOr, if_neg (by simp)]

theorem retrievalRecall_empty (retrieved : List String) : retrievalRecallOf ∅ retrieved = 1 := by
  rw [retrievalRecallOf, ratioOr, if_neg (by simp)]

/-- The recall of the citations is one if they are the expected ones, or there are none and these were retrieved. -/
theorem one_le_citationRecall_iff (expected cited : Finset String) (retrieved : List String) :
    1 ≤ citationRecallOf expected cited retrieved ↔
      (cited.Nonempty ∧ expected.Nonempty ∧ expected ⊆ cited) ∨ (cited = ∅ ∧ expected ⊆ retrieved.toFinset) := by
  rw [citationRecallOf]
  split
  · next hcited =>
    rw [one_le_ratioOr_iff, or_iff_left fun h ↦ hcited.ne_empty h.1, Finset.nonempty_iff_ne_empty (s := expected)]
    constructor
    · rintro ⟨hsubset, hnone⟩
      exact ⟨hcited, fun hempty ↦ absurd (hnone hempty) (not_le.2 zero_lt_one), hsubset⟩
    · rintro ⟨-, hne, hsubset⟩
      exact ⟨hsubset, fun hempty ↦ absurd hempty hne⟩
  · next hcited =>
    rw [retrievalRecallOf, one_le_ratioOr_iff, or_iff_right fun h ↦ hcited h.1]
    rw [Finset.not_nonempty_iff_eq_empty] at hcited
    exact ⟨fun h ↦ ⟨hcited, h.1⟩, fun h ↦ ⟨h.2, fun _ ↦ le_refl 1⟩⟩

end Bounds

/-- Letters and digits of ASCII. -/
def asciiRules : TextRules where
  lower := lower
  digit c := if c.isDigit then some (c.toNat - 48) else none
  digit_ascii _ _ := rfl

/-- A case that expects no chunks, and one that cannot be answered. -/
def uncitedCase : AiEvaluationCase String where
  expectedOutputText := some "PostgreSQL is used."

def unanswerableCase : AiEvaluationCase String where
  expectedOutputText := some "I could not find relevant document context."
  evaluationType := some "unanswerable"

end GenericApp
