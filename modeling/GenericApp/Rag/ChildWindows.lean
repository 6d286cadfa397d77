import GenericApp.Foundation.Spans
import GenericApp.Rag.ChunkingService

/-!
# The child windows of a parent

`_child_windows` has two ways. With a tokenizer it sweeps windows of `child_size` tokens over the parent:
`cover_tokenWindows` says what they cover. Without one it takes the pieces of the splitter and looks each up in
the parent, from the end of the piece before it: `located_childWindows_iff` says when it finds them. Pieces that
overlap are missed, and the splitter is asked for an overlap.
-/

namespace GenericApp

open Py

/-! ### Without a tokenizer -/

/-- The place of the window is that of its text. -/
def Located (content : String) (window : Window) : Prop :=
  window.charStart ≤ window.charEnd ∧ window.charEnd ≤ content.length ∧
    String.ofList ((content.toList.drop window.charStart).take (window.charEnd - window.charStart)) = window.content

/-- The pieces of which windows are made. -/
def shownPieces (pieces : List String) : List String := pieces.filter fun piece ↦ strip piece ≠ ""

/-- The pieces occur in the content in turn, each after the end of the one before it. -/
def OccurInTurn (content : String) (pieces : List String) : Prop :=
  InTurn content.toList 0 (pieces.map String.toList)

section Pieces

variable {content : String}

theorem shownPieces_of_blank {piece : String} (h : strip piece = "") (pieces : List String) :
    shownPieces (piece :: pieces) = shownPieces pieces := List.filter_cons_of_neg (by simpa using h)

theorem shownPieces_of_ne {piece : String} (h : strip piece ≠ "") (pieces : List String) :
    shownPieces (piece :: pieces) = piece :: shownPieces pieces := List.filter_cons_of_pos (by simpa using h)

theorem occursAt_iff {s piece : List Char} {start : ℕ} :
    OccursAt s piece start ↔ start ≤ s.length ∧ piece <+: s.drop start := by
  rw [OccursAt, List.prefix_iff_eq_take]
  constructor
  · rintro ⟨hlength, htake⟩
    exact ⟨by omega, htake.symm⟩
  · rintro ⟨hstart, htake⟩
    have hlength := congrArg List.length htake
    rw [List.length_take, List.length_drop] at hlength
    exact ⟨by omega, htake.symm⟩

/-- `str.find` finds the first place. -/
theorem findsFirst_find (content : String) (piece : List Char) :
    FindsFirst content.toList (fun piece first ↦ find content (String.ofList piece) first) piece := by
  intro first
  have hplace : ∀ i, i < content.length + 1 ∧ (first ≤ i && piece.isPrefixOf (content.toList.drop i)) = true ↔
      first ≤ i ∧ OccursAt content.toList piece i := fun i ↦ by
    rw [occursAt_iff, Bool.and_eq_true, decide_eq_true_eq, List.isPrefixOf_iff_prefix, String.length_toList,
      Nat.lt_succ_iff]
    tauto
  constructor
  · intro start hstart
    dsimp only at hstart
    rw [find, List.find?_range_eq_some, String.toList_ofList] at hstart
    obtain ⟨hfound, hmem, hbefore⟩ := hstart
    refine ⟨(hplace start).1 ⟨List.mem_range.1 hmem, hfound⟩, fun i hi ↦ ?_⟩
    obtain ⟨-, hoccurs⟩ := (hplace i).2 hi
    by_contra hlt
    have hmissed := hbefore i (not_le.1 hlt)
    rw [hoccurs] at hmissed
    exact absurd hmissed (by decide)
  · intro hnone i hi hoccurs
    dsimp only at hnone
    rw [find, List.find?_eq_none, String.toList_ofList] at hnone
    obtain ⟨hrange, hat⟩ := (hplace i).2 ⟨hi, hoccurs⟩
    exact hnone i (List.mem_range.2 hrange) hat

/-- A window that ends where its text does. -/
theorem located_iff {window : Window} (hend : window.charEnd = window.charStart + window.content.length) :
    Located content window ↔ OccursAt content.toList window.content.toList window.charStart := by
  rw [Located, OccursAt, hend, Nat.add_sub_cancel_left, String.length_toList, String.length_toList,
    ← String.toList_inj, String.toList_ofList]
  exact ⟨And.right, fun h ↦ ⟨Nat.le_add_right _ _, h⟩⟩

variable (lib : TextLibrary) (model : String)

/-- The windows stand where the pieces are placed. -/
theorem pieceWindows_placements (searchFrom : ℕ) (pieces : List String) :
    (pieceWindows lib model content searchFrom pieces).map (fun window ↦ (window.content.toList, window.charStart)) =
      placements (fun piece first ↦ find content (String.ofList piece) first) searchFrom
        ((shownPieces pieces).map String.toList) := by
  induction pieces generalizing searchFrom with
  | nil => rfl
  | cons piece pieces ih =>
    rw [pieceWindows]
    by_cases hblank : strip piece = ""
    · rw [if_pos hblank, ih, shownPieces_of_blank hblank]
    · rw [if_neg hblank, shownPieces_of_ne hblank]
      dsimp only
      rw [List.map_cons, List.map_cons, placements, ih]
      simp only [String.ofList_toList, String.length_toList]

theorem charEnd_of_mem_pieceWindows {searchFrom : ℕ} {pieces : List String} {window : Window}
    (h : window ∈ pieceWindows lib model content searchFrom pieces) :
    window.charEnd = window.charStart + window.content.length := by
  induction pieces generalizing searchFrom with
  | nil => exact absurd h List.not_mem_nil
  | cons piece pieces ih =>
    rw [pieceWindows] at h
    split at h
    · exact ih h
    · rcases List.mem_cons.1 h with rfl | h
      · rfl
      · exact ih h

theorem located_pieceWindows_iff (pieces : List String) :
    (∀ window ∈ pieceWindows lib model content 0 pieces, Located content window) ↔
      OccurInTurn content (shownPieces pieces) := by
  rw [OccurInTurn, ← forall_placements_iff fun piece _ ↦ findsFirst_find content piece,
    ← pieceWindows_placements lib model, List.forall_mem_map]
  exact forall₂_congr fun window hwindow ↦ located_iff (charEnd_of_mem_pieceWindows lib model hwindow)

theorem located_whole (tokens : ℕ) : Located content ⟨content, tokens, 0, tokens, 0, content.length⟩ := by
  refine ⟨Nat.zero_le _, le_rfl, ?_⟩
  have hlength : content.length - 0 = content.toList.length := String.length_toList.symm
  dsimp only
  rw [List.drop_zero, hlength, List.take_length, String.ofList_toList]

/-- **When the windows are where their text is.** Without a tokenizer the pieces must occur in turn: a piece that
begins before the end of the last one is not found there. -/
theorem located_childWindows_iff (content : String) (childSize childOverlap : ℤ) {splitText : String → List String}
    (hencode : lib.encodeText content model = none)
    (hbuild : lib.build (childSplitterArgs childSize childOverlap model) = .ok splitText) :
    ∃ windows, childWindows lib content childSize childOverlap model = .ok windows ∧
      ((∀ window ∈ windows, Located content window) ↔
        childSize < 1 ∨ content = "" ∨ OccurInTurn content (shownPieces (splitText content))) := by
  by_cases hnone : childSize < 1 ∨ content = ""
  · refine ⟨[], if_pos hnone, iff_of_true (fun _ h ↦ absurd h List.not_mem_nil) ?_⟩
    exact hnone.imp_right .inl
  have hturn : (childSize < 1 ∨ content = "" ∨ OccurInTurn content (shownPieces (splitText content))) ↔
      OccurInTurn content (shownPieces (splitText content)) := by tauto
  have hlocated : (∀ window ∈ pieceWindows lib model content 0 (splitText content), Located content window) ↔ _ :=
    located_pieceWindows_iff lib model (splitText content)
  rw [hturn, childWindows, if_neg hnone, hencode, hbuild]
  refine ⟨_, rfl, ?_⟩
  dsimp only
  split
  · next hempty =>
    rw [List.isEmpty_iff.1 hempty] at hlocated
    refine iff_of_true (fun window hwindow ↦ ?_) (hlocated.1 fun _ h ↦ absurd h List.not_mem_nil)
    obtain rfl := List.mem_singleton.1 hwindow
    exact located_whole _
  · exact hlocated

end Pieces

/-- A splitter that takes letter for letter, with an overlap of two, and no tokenizer. -/
def letterLibrary : TextLibrary where
  splitter _ := .ok fun _ ↦ ["abc", "bcd"]
  estimateTokens text _ := text.length
  encodeText _ _ := none
  decodeTokens _ _ := none

theorem located_childWindows_letters : ∃ windows, childWindows letterLibrary "abcd" 3 2 "letters" = .ok windows ∧
    ((∀ window ∈ windows, Located "abcd" window) ↔
      (3 : ℤ) < 1 ∨ "abcd" = "" ∨ OccurInTurn "abcd" (shownPieces ["abc", "bcd"])) :=
  located_childWindows_iff letterLibrary "letters" "abcd" 3 2 rfl rfl

/-- The second piece begins at 1. It is looked up from 3 on, not found, and put there. -/
theorem overlapping_pieces_misplaced :
    (∀ piece ∈ ["abc", "bcd"], strip piece ≠ "") ∧
      OccursAt "abcd".toList "abc".toList 0 ∧ OccursAt "abcd".toList "bcd".toList 1 ∧
      childWindows letterLibrary "abcd" 3 2 "letters" =
        .ok [⟨"abc", 3, 0, 3, 0, 3⟩, ⟨"bcd", 3, 2, 5, 3, 6⟩] ∧
      ¬Located "abcd" ⟨"bcd", 3, 2, 5, 3, 6⟩ := by
  refine ⟨by decide +kernel, by unfold OccursAt; decide +kernel, by unfold OccursAt; decide +kernel, ?_,
    fun h ↦ absurd h.2.1 (by decide +kernel)⟩
  have hwindows : pieceWindows letterLibrary "letters" "abcd" 0 ["abc", "bcd"] =
      [⟨"abc", 3, 0, 3, 0, 3⟩, ⟨"bcd", 3, 2, 5, 3, 6⟩] := by decide +kernel
  have hchild : childWindows letterLibrary "abcd" 3 2 "letters" =
      .ok (if (pieceWindows letterLibrary "letters" "abcd" 0 ["abc", "bcd"]).isEmpty then _
        else pieceWindows letterLibrary "letters" "abcd" 0 ["abc", "bcd"]) := if_neg (by decide)
  rw [hchild, hwindows]
  rfl

/-! ### With a tokenizer -/

section Tokens

variable (lib : TextLibrary) (model : String) (tokenIds : List ℕ) (size : ℕ)

/-- The text of the candidate at a start. -/
def candidateText (start : ℕ) : String := (lib.decodeTokens ((tokenIds.drop start).take size) model).getD ""

/-- The candidate is skipped: no tokens, or no text. -/
def Skipped (start : ℕ) : Prop :=
  (((tokenIds.drop start).take size).isEmpty || strip (candidateText lib model tokenIds size start) = "") = true

instance : DecidablePred (Skipped lib model tokenIds size) := fun start ↦ by
  unfold Skipped
  infer_instance

/-- The window at a start. -/
def tokenWindow (start : ℕ) : Window :=
  let piece := candidateText lib model tokenIds size start
  let count := ((tokenIds.drop start).take size).length
  let charStart := ((lib.decodeTokens (tokenIds.take start) model).getD "").length
  ⟨piece, count, start, start + count, charStart, charStart + piece.length⟩

/-- The windows are those of a sweep. -/
theorem tokenWindows_eq_sweep (starts : List ℕ) : tokenWindows lib model tokenIds size starts =
    (sweep (Skipped lib model tokenIds size) size tokenIds.length starts).map
      (tokenWindow lib model tokenIds size) := by
  induction starts with
  | nil => rfl
  | cons start starts ih =>
    rw [tokenWindows]
    by_cases hskip : Skipped lib model tokenIds size start
    · rw [sweep_of_blank hskip, ← ih]
      exact if_pos hskip
    · rw [sweep_of_not_blank hskip, List.map_cons]
      refine (if_neg hskip).trans (congrArg _ ?_)
      split
      · rfl
      · exact ih

variable {lib model tokenIds size}

theorem length_candidate (start : ℕ) :
    ((tokenIds.drop start).take size).length = min size (tokenIds.length - start) := by
  rw [List.length_take, List.length_drop]

theorem skipped_iff (hsize : 1 ≤ size) {start : ℕ} (hstart : start < tokenIds.length) :
    Skipped lib model tokenIds size start ↔ strip (candidateText lib model tokenIds size start) = "" := by
  have hsome : ((tokenIds.drop start).take size).isEmpty = false := by
    have hlength : ((tokenIds.drop start).take size).length = _ := length_candidate start
    rw [List.isEmpty_eq_false_iff, ← List.length_pos_iff]
    omega
  rw [Skipped, hsome, Bool.false_or, decide_eq_true_eq]

/-! #### The candidates -/

theorem mem_windowStarts {count step start : ℕ} (hstep : 0 < step) :
    start ∈ windowStarts count step ↔ step ∣ start ∧ start < count := by
  have hlt : ∀ i, i < (count + step - 1) / step ↔ i * step < count := fun i ↦ by
    rw [← Nat.succ_le_iff, Nat.le_div_iff_mul_le hstep, Nat.succ_mul]
    omega
  simp only [windowStarts, List.mem_map, List.mem_range, hlt]
  constructor
  · rintro ⟨i, hi, rfl⟩
    exact ⟨Nat.dvd_mul_left _ _, hi⟩
  · rintro ⟨⟨i, rfl⟩, hi⟩
    exact ⟨i, by rwa [Nat.mul_comm], Nat.mul_comm _ _⟩

theorem pairwise_windowStarts (count : ℕ) {step : ℕ} (hstep : 0 < step) :
    (windowStarts count step).Pairwise (· < ·) :=
  List.pairwise_lt_range.map _ fun _ _ h ↦ Nat.mul_lt_mul_of_pos_right h hstep

/-- Candidates no further apart than they are long leave no gap. -/
theorem exists_candidate {count step t : ℕ} (hstep : 0 < step) (hle : step ≤ size) (ht : t < count) :
    ∃ start ∈ windowStarts count step, start ≤ t ∧ t < start + size := by
  have hmod := Nat.mod_lt t hstep
  have hdiv := Nat.div_add_mod t step
  refine ⟨step * (t / step), (mem_windowStarts hstep).2 ⟨Nat.dvd_mul_right _ _, by omega⟩, by omega, by omega⟩

/-! #### The cover -/

/-- What is promised of the windows: `step` is from start to start. -/
structure WindowCover (lib : TextLibrary) (model : String) (tokenIds : List ℕ) (size step : ℕ)
    (windows : List Window) : Prop where
  tokens : ∀ window ∈ windows, 1 ≤ window.tokenCount ∧ window.tokenCount ≤ size
  span : ∀ window ∈ windows, window.tokenEnd = window.tokenStart + window.tokenCount ∧
    window.tokenEnd ≤ tokenIds.length
  text : ∀ window ∈ windows, window.content =
    (lib.decodeTokens ((tokenIds.drop window.tokenStart).take window.tokenCount) model).getD ""
  candidates : ∀ t < tokenIds.length, ∃ start ∈ windowStarts tokenIds.length step, start ≤ t ∧ t < start + size
  covered : ∀ t < tokenIds.length, (∃ window ∈ windows, window.tokenStart ≤ t ∧ t < window.tokenEnd) ∨
    ∀ start ∈ windowStarts tokenIds.length step, start ≤ t → t < start + size →
      strip (candidateText lib model tokenIds size start) = ""
  multiple : ∀ window ∈ windows, step ∣ window.tokenStart
  increasing : windows.Pairwise fun a b ↦ a.tokenStart < b.tokenStart
  notContained : windows.Pairwise fun a b ↦
    ¬(b.tokenStart ≤ a.tokenStart ∧ a.tokenEnd ≤ b.tokenEnd) ∧ ¬(a.tokenStart ≤ b.tokenStart ∧ b.tokenEnd ≤ a.tokenEnd)

/-- A window of the sweep. -/
theorem of_mem_tokenWindows {step : ℕ} (hstep : 0 < step) (hsize : 1 ≤ size) {window : Window}
    (h : window ∈ tokenWindows lib model tokenIds size (windowStarts tokenIds.length step)) :
    ∃ start, step ∣ start ∧ start < tokenIds.length ∧
      strip (candidateText lib model tokenIds size start) ≠ "" ∧
      window = tokenWindow lib model tokenIds size start := by
  rw [tokenWindows_eq_sweep] at h
  obtain ⟨start, hstart, rfl⟩ := List.mem_map.1 h
  obtain ⟨hdvd, hlt⟩ := (mem_windowStarts hstep).1 (sublist_sweep.subset hstart)
  exact ⟨start, hdvd, hlt, fun hblank ↦ not_blank_of_mem_sweep hstart ((skipped_iff hsize hlt).2 hblank), rfl⟩

/-- Of two windows of the sweep, the second begins later and ends later. -/
theorem pairwise_tokenWindows {step : ℕ} (hstep : 0 < step) :
    (tokenWindows lib model tokenIds size (windowStarts tokenIds.length step)).Pairwise fun a b ↦
      a.tokenStart < b.tokenStart ∧ a.tokenEnd < b.tokenEnd := by
  rw [tokenWindows_eq_sweep]
  have hsweep : (sweep (Skipped lib model tokenIds size) size tokenIds.length
      (windowStarts tokenIds.length step)).Pairwise fun a b ↦ a < b ∧ a + size < tokenIds.length :=
    pairwise_sweep (pairwise_windowStarts _ hstep)
  refine List.pairwise_map.2 (hsweep.imp_of_mem fun {a b} _ hb hab ↦ ?_)
  obtain ⟨-, hlt⟩ := (mem_windowStarts hstep).1 (sublist_sweep.subset hb)
  refine ⟨hab.1, ?_⟩
  dsimp only [tokenWindow]
  rw [length_candidate, length_candidate]
  omega

/-- **What the windows of the loop cover.** -/
theorem cover_tokenWindows {step : ℕ} (hstep : 0 < step) (hsize : 1 ≤ size) (hle : step ≤ size) :
    WindowCover lib model tokenIds size step
      (tokenWindows lib model tokenIds size (windowStarts tokenIds.length step)) where
  tokens window hwindow := by
    obtain ⟨start, -, hlt, -, rfl⟩ := of_mem_tokenWindows hstep hsize hwindow
    dsimp only [tokenWindow]
    rw [length_candidate]
    omega
  span window hwindow := by
    obtain ⟨start, -, hlt, -, rfl⟩ := of_mem_tokenWindows hstep hsize hwindow
    refine ⟨rfl, ?_⟩
    dsimp only [tokenWindow]
    rw [length_candidate]
    omega
  text window hwindow := by
    obtain ⟨start, -, hlt, -, rfl⟩ := of_mem_tokenWindows hstep hsize hwindow
    dsimp only [tokenWindow]
    rw [List.length_take, ← List.take_eq_take_min]
    rfl
  candidates t ht := exists_candidate hstep hle ht
  covered t ht := by
    by_cases hblank : ∀ start ∈ windowStarts tokenIds.length step, start ≤ t → t < start + size →
        strip (candidateText lib model tokenIds size start) = ""
    · exact .inr hblank
    · push Not at hblank
      obtain ⟨start, hmem, hstart, hend, htext⟩ := hblank
      obtain ⟨-, hlt⟩ := (mem_windowStarts hstep).1 hmem
      have hskip : ¬Skipped lib model tokenIds size start := fun h ↦ htext ((skipped_iff hsize hlt).1 h)
      obtain ⟨a, ha, hfrom, hto⟩ := exists_mem_sweep (pairwise_windowStarts _ hstep) hmem hskip ht hstart hend
      refine .inl ⟨tokenWindow lib model tokenIds size a, ?_, hfrom, ?_⟩
      · rw [tokenWindows_eq_sweep]
        exact List.mem_map_of_mem ha
      · dsimp only [tokenWindow]
        rw [length_candidate]
        omega
  multiple window hwindow := by
    obtain ⟨start, hdvd, -, -, rfl⟩ := of_mem_tokenWindows hstep hsize hwindow
    exact hdvd
  increasing := (pairwise_tokenWindows hstep).imp And.left
  notContained := (pairwise_tokenWindows hstep).imp fun {a b} h ↦ by omega

/-- A window is kept if some candidate is not blank. -/
theorem tokenWindows_ne_nil {step : ℕ} (hstep : 0 < step) (hsize : 1 ≤ size) {start : ℕ}
    (hmem : start ∈ windowStarts tokenIds.length step)
    (htext : strip (candidateText lib model tokenIds size start) ≠ "") :
    tokenWindows lib model tokenIds size (windowStarts tokenIds.length step) ≠ [] := by
  obtain ⟨-, hlt⟩ := (mem_windowStarts hstep).1 hmem
  have hskip : ¬Skipped lib model tokenIds size start := fun h ↦ htext ((skipped_iff hsize hlt).1 h)
  obtain ⟨a, ha, -⟩ := exists_mem_sweep (pairwise_windowStarts _ hstep) hmem hskip hlt le_rfl
    (Nat.lt_add_of_pos_right hsize)
  rw [tokenWindows_eq_sweep]
  exact List.ne_nil_of_mem (List.mem_map_of_mem ha)

variable (lib model) (content : String) (childSize childOverlap : ℤ)

/-- **The windows with a tokenizer.** Those of the loop, which cover the parent, if a candidate is not blank. If all
are, one window holds the whole parent, with the estimate of its tokens, whatever the size of a child. -/
theorem childWindows_tokens (hcontent : content ≠ "") (hsize : 1 ≤ childSize) (hoverlap : 0 ≤ childOverlap)
    (hencode : lib.encodeText content model = some tokenIds) :
    let size := childSize.toNat
    let step := (max 1 (childSize - childOverlap)).toNat
    let blank := fun start ↦ strip (candidateText lib model tokenIds size start) = ""
    ∃ windows, childWindows lib content childSize childOverlap model = .ok windows ∧ windows ≠ [] ∧
      ((∃ start ∈ windowStarts tokenIds.length step, ¬blank start) →
        WindowCover lib model tokenIds size step windows) ∧
      ((∀ start ∈ windowStarts tokenIds.length step, blank start) →
        windows = [⟨content, lib.estimateTokens content model, 0, lib.estimateTokens content model, 0,
          content.length⟩]) := by
  intro size step blank
  have hpos : 1 ≤ size := by omega
  have hstep : 0 < step := by omega
  have hle : step ≤ size := by omega
  have hcover : WindowCover lib model tokenIds size step _ := cover_tokenWindows hstep hpos hle
  have hsome : ¬(childSize < 1 ∨ content = "") := not_or.2 ⟨by omega, hcontent⟩
  rw [childWindows, if_neg hsome, hencode]
  dsimp only [Except.map]
  split
  · next hempty =>
    refine ⟨_, rfl, List.cons_ne_nil _ _, ?_, fun _ ↦ rfl⟩
    rintro ⟨start, hmem, htext⟩
    exact absurd (List.isEmpty_iff.1 hempty) (tokenWindows_ne_nil hstep hpos hmem htext)
  · next hwindows =>
    refine ⟨_, rfl, fun h ↦ hwindows (List.isEmpty_iff.2 h), fun _ ↦ hcover, fun hblank ↦ ?_⟩
    refine absurd (List.isEmpty_iff.2 (List.eq_nil_iff_forall_not_mem.2 fun window hwindow ↦ ?_)) hwindows
    obtain ⟨start, hdvd, hlt, htext, -⟩ := of_mem_tokenWindows hstep hpos hwindow
    exact htext (hblank start ((mem_windowStarts hstep).2 ⟨hdvd, hlt⟩))

end Tokens

/-- Every letter is a token. -/
def spaceLibrary : TextLibrary where
  splitter _ := .error "not used"
  estimateTokens text _ := text.length
  encodeText text _ := some (text.toList.map Char.toNat)
  decodeTokens tokens _ := some (String.ofList (tokens.map Char.ofNat))

theorem childWindows_tokens_letters :
    let size := (2 : ℤ).toNat
    let step := (max 1 (2 - 1) : ℤ).toNat
    let blank := fun start ↦ strip (candidateText spaceLibrary "letters" [97, 98, 99] size start) = ""
    ∃ windows, childWindows spaceLibrary "abc" 2 1 "letters" = .ok windows ∧ windows ≠ [] ∧
      ((∃ start ∈ windowStarts 3 step, ¬blank start) →
        WindowCover spaceLibrary "letters" [97, 98, 99] size step windows) ∧
      ((∀ start ∈ windowStarts 3 step, blank start) →
        windows = [⟨"abc", "abc".length, 0, "abc".length, 0, "abc".length⟩]) := by
  have hencode : spaceLibrary.encodeText "abc" "letters" = some [97, 98, 99] := by decide +kernel
  exact childWindows_tokens spaceLibrary "letters" "abc" 2 1 (by decide) (by decide) (by decide) hencode

/-- A blank parent of three tokens is one window of three tokens, where two are the size of a child. -/
theorem blank_window_too_long :
    childWindows spaceLibrary "   " 2 1 "letters" = .ok [⟨"   ", 3, 0, 3, 0, 3⟩] ∧
      ¬∀ windows, childWindows spaceLibrary "   " 2 1 "letters" = .ok windows →
        ∀ window ∈ windows, 1 ≤ window.tokenCount ∧ (window.tokenCount : ℤ) ≤ 2 := by
  have hwindows : childWindows spaceLibrary "   " 2 1 "letters" = .ok [⟨"   ", 3, 0, 3, 0, 3⟩] := by
    have hencode : spaceLibrary.encodeText "   " "letters" = some [32, 32, 32] := by decide +kernel
    have hloop : tokenWindows spaceLibrary "letters" [32, 32, 32] (2 : ℤ).toNat
        (windowStarts [32, 32, 32].length (max 1 (2 - 1) : ℤ).toNat) = [] := by decide +kernel
    have hlength : "   ".length = 3 := by decide +kernel
    rw [childWindows, if_neg (by decide +kernel), hencode]
    dsimp only [Except.map]
    rw [hloop]
    dsimp only [spaceLibrary]
    rw [hlength]
    rfl
  refine ⟨hwindows, fun h ↦ ?_⟩
  exact absurd (h _ hwindows _ List.mem_cons_self).2 (by decide)

end GenericApp
