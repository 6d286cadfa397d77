import GenericApp.Scaffold.Markers

/-!
# Merging a line into a marked block

`merge_line_into_marked_block` puts a line among those that stand between two marks. The marks are found again in what it
writes, around the lines that were there and the new one, each of them once (`mergeLine_written`). From this follow the
rest: a line that is there already changes nothing, and two lines that are merged in order can be merged in either order
(`mergeLine_safe`).

The marks stand each on one line and are not blank; the closing mark is looked for behind the opening one, and a text
where it does not stand there is refused, even if both are in it (`mergeLine_refused`).
-/

namespace GenericApp

open Py

/-- A mark stands on one line and is not blank. -/
structure IsMarker (mark : Text) : Prop where
  single : IsLine mark
  visible : ∃ c ∈ mark, isIndent c = false

/-- A line that can be merged: it is one, it is not blank, and the closing mark is not in it. -/
structure Mergeable (closing line : Text) : Prop where
  single : IsLine line
  visible : isBlank line = false
  unmarked : ¬closing <:+: line

variable {opening closing text line line' : Text} {lines : List Text} {sort : Bool} {found block : Enclosed}

theorem IsMarker.ne_nil {mark : Text} (h : IsMarker mark) : mark ≠ [] := by
  obtain ⟨c, hc, -⟩ := h.visible
  exact List.ne_nil_of_mem hc

/-! ### The lines that are written -/

/-- Lines that come later do not change what is kept of the earlier ones. -/
theorem seenOnce_prefix (lines more : List Text) : seenOnce lines <+: seenOnce (lines ++ more) :=
  ⟨_, (keepBy_append []).symm⟩

theorem mem_seenOnce {l : Text} : l ∈ seenOnce lines ↔ l ∈ lines :=
  mem_keepBy_unseen.trans (and_iff_left List.not_mem_nil)

theorem mem_bodyLines_iff {l : Text} (hlines : ∀ l ∈ lines, IsLine l ∧ isBlank l = false) :
    l ∈ bodyLines sort lines ↔ l ∈ lines := by
  rw [bodyLines_of_lines hlines]
  split
  · rw [(List.mergeSort_perm _ _).mem_iff, List.mem_dedup]
  · exact mem_seenOnce

theorem pairwise_bodyLines (lines : List Text) : (bodyLines true lines).Pairwise fun a b ↦ a ≤ b := by
  have hsorted := @List.pairwise_mergeSort Text (fun a b ↦ decide (a ≤ b))
    (fun a b c hab hbc ↦ decide_eq_true ((of_decide_eq_true hab).trans (of_decide_eq_true hbc)))
    (fun a b ↦ by simpa using le_total a b) ((lines.filter fun line ↦ !isBlank line).map dropNewlines).dedup
  exact hsorted.imp fun h ↦ of_decide_eq_true h

/-- **In order, lines are known from which they are.** -/
theorem bodyLines_congr {lines' : List Text} (hlines : ∀ l ∈ lines, IsLine l ∧ isBlank l = false)
    (hlines' : ∀ l ∈ lines', IsLine l ∧ isBlank l = false) (h : ∀ l, l ∈ lines ↔ l ∈ lines') :
    bodyLines true lines = bodyLines true lines' := by
  have hperm : (bodyLines true lines).Perm (bodyLines true lines') :=
    (List.perm_ext_iff_of_nodup (nodup_bodyLines true lines) (nodup_bodyLines true lines')).2 fun l ↦ by
      rw [mem_bodyLines_iff hlines, mem_bodyLines_iff hlines', h]
  exact hperm.eq_of_pairwise (fun _ _ _ _ hab hba ↦ le_antisymm hab hba) (pairwise_bodyLines lines)
    (pairwise_bodyLines lines')

/-- Lines that were written once are written again as they are. -/
theorem bodyLines_bodyLines (hlines : ∀ l ∈ lines, IsLine l ∧ isBlank l = false) :
    bodyLines sort (bodyLines sort lines) = bodyLines sort lines := by
  have hwritten : ∀ l ∈ bodyLines sort lines, IsLine l ∧ isBlank l = false :=
    fun l hl ↦ hlines l ((mem_bodyLines_iff hlines).1 hl)
  cases sort with
  | false =>
    rw [bodyLines_of_lines hwritten, if_neg Bool.false_ne_true, seenOnce_of_nodup (nodup_bodyLines false lines)]
  | true => exact bodyLines_congr hwritten hlines fun l ↦ mem_bodyLines_iff hlines

/-! ### The block that is written -/

/-- The lines that are given to the upsert. -/
def withLine (line : Text) (found : Enclosed) : List Text :=
  if (existingLines found.body).contains line then existingLines found.body else existingLines found.body ++ [line]

theorem mem_withLine {l : Text} : l ∈ withLine line found ↔ l ∈ existingLines found.body ∨ l = line := by
  rw [withLine]
  split
  · next hline =>
    have hmem := List.contains_iff_mem.1 hline
    exact ⟨.inl, fun h ↦ h.elim id fun heq ↦ heq ▸ hmem⟩
  · rw [List.mem_append, List.mem_singleton]

theorem mergeLine_eq (h : between opening closing text = some found) :
    mergeLineIntoMarkedBlock opening closing line sort text =
      .ok ((upserted sort (withLine line found) found).text opening closing,
        (upserted sort (withLine line found) found).text opening closing ≠ text) := by
  rw [mergeLineIntoMarkedBlock, h]
  exact upsertMarkedBlock_eq h

/-- The lines of a block that is found can be merged. -/
theorem mergeable_existing {l : Text} (hclosing : IsMarker closing) (h : between opening closing text = some found)
    (hl : l ∈ existingLines found.body) : Mergeable closing l := by
  obtain ⟨rest, -, hclose⟩ := between_eq_some_iff.1 h
  obtain ⟨hline, hblank⟩ := List.mem_filter.1 hl
  exact ⟨(mem_splitLines hline).1, by simpa using hblank, fun hwithin ↦
    not_infix_of_cutAt hclosing.ne_nil hclose (hwithin.trans (infix_of_mem_splitLines hline))⟩

theorem takeWhile_append_visible {mark : Text} (h : IsMarker mark) (x : Text) :
    (mark ++ x).takeWhile isIndent = mark.takeWhile isIndent := by
  rw [List.takeWhile_append, if_neg]
  intro hall
  obtain ⟨c, hc, hvisible⟩ := h.visible
  have heq := (List.takeWhile_prefix isIndent).eq_of_length hall
  rw [← heq] at hc
  exact Bool.false_ne_true (hvisible.symm.trans (List.mem_takeWhile_imp hc))

/-- A mark is found behind an indentation. -/
theorem cutAt_indent (hclosing : IsMarker closing) (blanks after : Text) (hblanks : ∀ c ∈ blanks, isIndent c = true) : cutAt closing (blanks ++ (closing ++ after)) = some (blanks, after) := by
  induction blanks with
  | nil => exact cutAt_self hclosing.ne_nil after
  | cons c blanks ih =>
    have hnot : ¬closing <+: c :: (blanks ++ (closing ++ after)) := by
      rintro ⟨rest, hrest⟩
      -- the blanks before the mark would be those within it, and more
      have hwithin := congrArg (List.takeWhile isIndent) hrest
      rw [takeWhile_append_visible hclosing, ← List.cons_append, List.takeWhile_append_of_pos hblanks,
        takeWhile_append_visible hclosing] at hwithin
      have hlength := congrArg List.length hwithin
      rw [List.length_append, List.length_cons] at hlength
      omega
    rw [List.cons_append, cutAt_cons_of_not hnot, ih fun d hd ↦ hblanks d (List.mem_cons_of_mem c hd)]
    rfl

/-- **The closing mark is found again** behind lines that it is not in. -/
theorem cutAt_blockBody (hclosing : IsMarker closing) (hlines : ∀ l ∈ lines, Mergeable closing l) (before after : Text) :
    cutAt closing (blockBody (indentOf before) lines ++ (closing ++ after)) =
      some (blockBody (indentOf before) lines, after) := by
  have hnewline := newline_notMem_of_isLine hclosing.single
  have hnil : ¬closing <:+: [] := fun h ↦ hclosing.ne_nil (List.infix_nil.1 h)
  have hindent := cutAt_indent hclosing (indentOf before) after fun c hc ↦ isIndent_of_mem_indentOf hc
  have hjoined (lines : List Text) (hne : lines ≠ []) (hlines : ∀ l ∈ lines, ¬closing <:+: l) :
      cutAt closing (joinLines lines ++ '\n' :: (indentOf before ++ (closing ++ after))) =
        some (joinLines lines ++ '\n' :: indentOf before, after) := by
    induction lines with
    | nil => exact absurd rfl hne
    | cons l lines ih =>
      have hl := hlines l List.mem_cons_self
      match lines with
      | [] => rw [joinLines_singleton, cutAt_line hclosing.ne_nil hnewline hl, hindent]; rfl
      | m :: lines =>
        rw [joinLines_cons_cons, List.append_assoc, List.cons_append, cutAt_line hclosing.ne_nil hnewline hl,
          ih (List.cons_ne_nil m lines) fun l' h ↦ hlines l' (List.mem_cons_of_mem l h)]
        simp
  rw [blockBody]
  split
  · have hfirst := cutAt_line hclosing.ne_nil hnewline hnil (indentOf before ++ (closing ++ after))
    rw [hindent] at hfirst
    exact hfirst
  · next hne =>
    have hfirst := cutAt_line hclosing.ne_nil hnewline hnil
      (joinLines lines ++ '\n' :: (indentOf before ++ (closing ++ after)))
    rw [hjoined lines hne fun l hl ↦ (hlines l hl).unmarked] at hfirst
    rw [List.cons_append, List.append_assoc]
    exact hfirst

/-- The block that is written. -/
def mergedBlock (line : Text) (sort : Bool) (found : Enclosed) : Enclosed := upserted sort (withLine line found) found

theorem mergeable_withLine (hclosing : IsMarker closing) (h : between opening closing text = some found)
    (hline : Mergeable closing line) {l : Text} (hl : l ∈ withLine line found) : Mergeable closing l := by
  rcases mem_withLine.1 hl with hold | rfl
  · exact mergeable_existing hclosing h hold
  · exact hline

/-- The marks are found again around the new body. -/
theorem between_mergedBlock (hopening : IsMarker opening) (hclosing : IsMarker closing)
    (h : between opening closing text = some found) (hline : Mergeable closing line) :
    between opening closing ((mergedBlock line sort found).text opening closing) = some (mergedBlock line sort found) := by
  have hlines {l : Text} (hl : l ∈ withLine line found) := mergeable_withLine hclosing h hline hl
  obtain ⟨rest, hopen, -⟩ := between_eq_some_iff.1 h
  rw [cutAt_sound hopen] at hopen
  refine between_eq_some_iff.2 ⟨_, cutAt_append hopening.ne_nil hopen _, ?_⟩
  refine cutAt_blockBody hclosing (fun l hl ↦ hlines ?_) found.before found.after
  exact (mem_bodyLines_iff fun l hl ↦ ⟨(hlines hl).single, (hlines hl).visible⟩).1 hl

/-- Its lines are those that were given to the upsert. -/
theorem existingLines_mergedBlock (sort : Bool) (hclosing : IsMarker closing) (h : between opening closing text = some found)
    (hline : Mergeable closing line) :
    existingLines (mergedBlock line sort found).body = bodyLines sort (withLine line found) := by
  have hlines {l : Text} (hl : l ∈ withLine line found) := mergeable_withLine hclosing h hline hl
  refine existingLines_blockBody (fun l hl ↦ ?_) found.before
  have hmem := (mem_bodyLines_iff fun l hl ↦ ⟨(hlines hl).single, (hlines hl).visible⟩).1 hl
  exact ⟨(hlines hmem).single, (hlines hmem).visible⟩

/-- **What a block is after a line was merged into it**: the marks are found where they were, what stands before and
behind them is the same, the old lines and the new one are in it, each once, and no others; in the order they had, or
sorted. -/
structure LineMerged (opening closing line : Text) (sort : Bool) (found block : Enclosed) : Prop where
  marks : between opening closing (block.text opening closing) = some block
  before : block.before = found.before
  after : block.after = found.after
  old : ∀ l ∈ existingLines found.body, (existingLines block.body).count l = 1
  new : (existingLines block.body).count line = 1
  only : ∀ l ∈ existingLines block.body, l ∈ existingLines found.body ∨ l = line
  order : sort = false → seenOnce (existingLines found.body) <+: existingLines block.body
  sorted : sort = true → (existingLines block.body).Pairwise fun a b ↦ a ≤ b

theorem mergeLine_written (hopening : IsMarker opening) (hclosing : IsMarker closing)
    (h : between opening closing text = some found) (hline : Mergeable closing line) :
    LineMerged opening closing line sort found (mergedBlock line sort found) := by
  have hlines : ∀ l ∈ withLine line found, IsLine l ∧ isBlank l = false := fun l hl ↦
    ⟨(mergeable_withLine hclosing h hline hl).single, (mergeable_withLine hclosing h hline hl).visible⟩
  have hbody := existingLines_mergedBlock sort hclosing h hline
  have honce {l : Text} (hl : l ∈ withLine line found) : (existingLines (mergedBlock line sort found).body).count l = 1 := by
    rw [hbody]
    exact List.count_eq_one_of_mem (nodup_bodyLines sort _) ((mem_bodyLines_iff hlines).2 hl)
  refine ⟨between_mergedBlock hopening hclosing h hline, rfl, rfl, fun l hl ↦ honce (mem_withLine.2 (.inl hl)),
    honce (mem_withLine.2 (.inr rfl)), fun l hl ↦ ?_, ?_, ?_⟩
  · rw [hbody] at hl
    exact mem_withLine.1 ((mem_bodyLines_iff hlines).1 hl)
  · rintro rfl
    rw [hbody, bodyLines_of_lines hlines, if_neg Bool.false_ne_true, withLine]
    split
    · exact List.prefix_refl _
    · exact seenOnce_prefix _ _
  · rintro rfl
    rw [hbody]
    exact pairwise_bodyLines _

/-- **A line that was merged changes nothing.** -/
theorem mergedBlock_again (sort : Bool) (hclosing : IsMarker closing) (h : between opening closing text = some found)
    (hline : Mergeable closing line) : mergedBlock line sort (mergedBlock line sort found) = mergedBlock line sort found := by
  have hlines : ∀ l ∈ withLine line found, IsLine l ∧ isBlank l = false := fun l hl ↦
    ⟨(mergeable_withLine hclosing h hline hl).single, (mergeable_withLine hclosing h hline hl).visible⟩
  have hbody := existingLines_mergedBlock sort hclosing h hline
  have hsame : withLine line (mergedBlock line sort found) = bodyLines sort (withLine line found) := by
    rw [withLine, hbody, if_pos]
    exact List.contains_iff_mem.2 ((mem_bodyLines_iff hlines).2 (mem_withLine.2 (.inr rfl)))
  rw [mergedBlock, hsame, upserted, bodyLines_bodyLines hlines]
  rfl

/-- **In order, two lines are merged in either order.** -/
theorem mergedBlock_comm (hclosing : IsMarker closing) (h : between opening closing text = some found)
    (hline : Mergeable closing line) (hline' : Mergeable closing line') :
    mergedBlock line' true (mergedBlock line true found) = mergedBlock line true (mergedBlock line' true found) := by
  have hmem {one other : Text} (hone : Mergeable closing one) (l : Text) :
      l ∈ withLine other (mergedBlock one true found) ↔ (l ∈ existingLines found.body ∨ l = one) ∨ l = other := by
    have hlines : ∀ l ∈ withLine one found, IsLine l ∧ isBlank l = false := fun l hl ↦
      ⟨(mergeable_withLine hclosing h hone hl).single, (mergeable_withLine hclosing h hone hl).visible⟩
    rw [mem_withLine, existingLines_mergedBlock true hclosing h hone, mem_bodyLines_iff hlines, mem_withLine]
  have hall {one other : Text} (hone : Mergeable closing one) (hother : Mergeable closing other) :
      ∀ l ∈ withLine other (mergedBlock one true found), IsLine l ∧ isBlank l = false := fun l hl ↦ by
    rcases (hmem hone l).1 hl with (hold | rfl) | rfl
    · exact ⟨(mergeable_existing hclosing h hold).single, (mergeable_existing hclosing h hold).visible⟩
    · exact ⟨hone.single, hone.visible⟩
    · exact ⟨hother.single, hother.visible⟩
  have hlines := bodyLines_congr (hall hline hline') (hall hline' hline) fun l ↦ by
    rw [hmem hline, hmem hline', or_right_comm]
  exact congrArg (fun lines ↦ ({ found with body := blockBody (indentOf found.before) lines } : Enclosed)) hlines

/-- **Merging a line is a safe edit.** Wherever the closing mark stands behind an opening one: what is around the block
stays; its lines and the new one are in it, each once, in the order they had or sorted; a second call changes nothing;
and two lines that are merged in order give the same text in either order. -/
theorem mergeLine_safe (hopening : IsMarker opening) (hclosing : IsMarker closing) (hline : Mergeable closing line)
    (hline' : Mergeable closing line') {before middle after : Text}
    (htext : text = before ++ (opening ++ (middle ++ (closing ++ after)))) :
    ∃ found, found.text opening closing = text ∧ between opening closing text = some found ∧
      (∃ block, LineMerged opening closing line sort found block ∧
        mergeLineIntoMarkedBlock opening closing line sort text =
          .ok (block.text opening closing, block.text opening closing ≠ text) ∧
        mergeLineIntoMarkedBlock opening closing line sort (block.text opening closing) =
          .ok (block.text opening closing, false)) ∧
      ∃ merged,
        ((mergeLineIntoMarkedBlock opening closing line true text).bind fun result ↦
          mergeLineIntoMarkedBlock opening closing line' true result.1).map Prod.fst = .ok merged ∧
        ((mergeLineIntoMarkedBlock opening closing line' true text).bind fun result ↦
          mergeLineIntoMarkedBlock opening closing line true result.1).map Prod.fst = .ok merged := by
  obtain ⟨found, h⟩ := exists_between hopening.ne_nil hclosing.ne_nil before middle after
  rw [← htext] at h
  refine ⟨found, (between_sound h).symm, h, ⟨mergedBlock line sort found,
    mergeLine_written hopening hclosing h hline, mergeLine_eq h, ?_⟩,
    (mergedBlock line' true (mergedBlock line true found)).text opening closing, ?_, ?_⟩
  · rw [mergeLine_eq (between_mergedBlock hopening hclosing h hline)]
    have hagain := mergedBlock_again sort hclosing h hline
    unfold mergedBlock at hagain ⊢
    rw [hagain, decide_eq_false (not_not.2 rfl)]
  · rw [mergeLine_eq h]
    exact congrArg (Except.map Prod.fst) (mergeLine_eq (between_mergedBlock hopening hclosing h hline))
  · rw [mergeLine_eq h, mergedBlock_comm hclosing h hline hline']
    exact congrArg (Except.map Prod.fst) (mergeLine_eq (between_mergedBlock hopening hclosing h hline'))

/-! ### On the marks of the task routes -/

/-- The marks of the task routes. -/
def routesOpening : Text := "# <generic-app:task-routes>".toList

@[inherit_doc routesOpening]
def routesClosing : Text := "# </generic-app:task-routes>".toList

theorem isLine_of_all {x : Text} (h : (x.all fun c ↦ !isLineBreak c) = true) : IsLine x := fun c hc ↦ by
  simpa using List.all_eq_true.1 h c hc

theorem isMarker_routes : IsMarker routesOpening ∧ IsMarker routesClosing :=
  ⟨⟨isLine_of_all (by decide +kernel), '#', by decide +kernel, by decide⟩,
    ⟨isLine_of_all (by decide +kernel), '#', by decide +kernel, by decide⟩⟩

theorem mergeable_of_all {c : Char} (hline : (line.all fun d ↦ !isLineBreak d) = true) (hvisible : isBlank line = false)
    (hc : c ∈ closing) (hnot : c ∉ line) : Mergeable closing line :=
  ⟨isLine_of_all hline, hvisible, fun h ↦ hnot (h.subset hc)⟩

theorem mergeable_route {line : Text} (hline : (line.all fun d ↦ !isLineBreak d) = true) (hvisible : isBlank line = false)
    (hnot : '<' ∉ line) : Mergeable routesClosing line :=
  mergeable_of_all hline hvisible (show '<' ∈ routesClosing by decide +kernel) hnot

/-- Two routes are merged in either order. -/
theorem mergeLine_safe_routes : ∃ merged,
    ((mergeLineIntoMarkedBlock routesOpening routesClosing "    \"b\": 2,".toList true
        ([] ++ (routesOpening ++ ("\n    ".toList ++ (routesClosing ++ "\n".toList))))).bind fun result ↦
      mergeLineIntoMarkedBlock routesOpening routesClosing "    \"a\": 1,".toList true result.1).map Prod.fst =
      .ok merged ∧
    ((mergeLineIntoMarkedBlock routesOpening routesClosing "    \"a\": 1,".toList true
        ([] ++ (routesOpening ++ ("\n    ".toList ++ (routesClosing ++ "\n".toList))))).bind fun result ↦
      mergeLineIntoMarkedBlock routesOpening routesClosing "    \"b\": 2,".toList true result.1).map Prod.fst =
      .ok merged := by
  have hb : Mergeable routesClosing "    \"b\": 2,".toList :=
    mergeable_route (by decide +kernel) (by decide +kernel) (by decide +kernel)
  have ha : Mergeable routesClosing "    \"a\": 1,".toList :=
    mergeable_route (by decide +kernel) (by decide +kernel) (by decide +kernel)
  obtain ⟨-, -, -, -, hboth⟩ := @mergeLine_safe _ _ _ _ _ true isMarker_routes.1 isMarker_routes.2 hb ha
    [] "\n    ".toList "\n".toList rfl
  exact hboth

/-- **Where the closing mark stands before the opening one, the call raises.** -/
theorem mergeLine_refused :
    ¬∀ opening closing line text : Text, ∀ sort, IsMarker opening → IsMarker closing → Mergeable closing line →
      opening <:+: text → closing <:+: text →
      ∃ result, mergeLineIntoMarkedBlock opening closing line sort text = .ok result := by
  intro h
  obtain ⟨result, hresult⟩ := h routesOpening routesClosing "x".toList (routesClosing ++ '\n' :: routesOpening) true
    isMarker_routes.1 isMarker_routes.2
    (mergeable_route (by decide +kernel) (by decide +kernel) (by decide +kernel))
    ⟨routesClosing ++ ['\n'], [], by simp⟩ ⟨[], '\n' :: routesOpening, rfl⟩
  have hnone : between routesOpening routesClosing (routesClosing ++ '\n' :: routesOpening) = none := by
    decide +kernel
  rw [mergeLineIntoMarkedBlock, hnone] at hresult
  exact nomatch hresult

end GenericApp
