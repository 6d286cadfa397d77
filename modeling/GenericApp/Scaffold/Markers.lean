import Mathlib.Data.Char
import Mathlib.Data.List.Dedup
import Mathlib.Data.List.Lex
import Mathlib.Data.List.Sort
import Mathlib.Data.List.TakeWhile
import GenericApp.Foundation.Keeping
import GenericApp.Foundation.Text

/-!
# Marked blocks of a source file

The helper that the scaffolding uses to rewrite what stands between two marks of a file. The lines it is given
are written one below the other, none of them twice, and the closing mark is indented as the opening one is.

`between_upsertMarkedBlock` says that the marks are found again where they were, around the new body, as
long as no line holds the first character of the closing mark; and `entryLines_blockBody` that the lines of
the new body are the lines that were written, each of them once.
-/

namespace GenericApp

open Py

/-- A required section of marks is missing. -/
structure MarkerError where
  message : String
deriving DecidableEq

/-- Leading white space of a line. -/
def isIndent (c : Char) : Bool := c = ' ' ∨ c = '\t'

/-- The white space right before the opening mark. -/
def indentOf (before : Text) : Text := (before.reverse.takeWhile isIndent).reverse

/-- What stands before that. -/
def unindented (before : Text) : Text := (before.reverse.dropWhile isIndent).reverse

theorem unindented_append_indentOf (before : Text) : unindented before ++ indentOf before = before := by
  rw [unindented, indentOf, ← List.reverse_append, List.takeWhile_append_dropWhile, List.reverse_reverse]

/-- `line.rstrip("\n")` -/
def dropNewlines (line : Text) : Text := (line.reverse.dropWhile (· = '\n')).reverse

/-- The lines in order, each where it is seen first. -/
def seenOnce (lines : List Text) : List Text := keepBy (fun seen line ↦ !seen.contains line) [] lines

/-- The lines that a block is given. -/
def bodyLines (sort : Bool) (lines : List Text) : List Text :=
  let kept := (lines.filter fun line ↦ !isBlank line).map dropNewlines
  if sort then kept.dedup.mergeSort (fun a b ↦ a ≤ b) else seenOnce kept

/-- The text between the marks. -/
def blockBody (indent : Text) (lines : List Text) : Text :=
  if lines = [] then '\n' :: indent else '\n' :: (joinLines lines ++ '\n' :: indent)

/-- Replaces what stands between the marks by the given lines, and says whether that changes the text. -/
def upsertMarkedBlock (opening closing : Text) (lines : List Text) (sort : Bool) (text : Text) :
    Except MarkerError (Text × Bool) :=
  match between opening closing text with
  | none => .error ⟨s!"Missing marker block '{String.ofList opening}' … '{String.ofList closing}'"⟩
  | some found =>
    let indent := indentOf found.before
    let body := blockBody indent (bodyLines sort lines)
    let replacement := indent ++ (opening ++ (body ++ closing))
    let newText := unindented found.before ++ (replacement ++ found.after)
    .ok (newText, newText ≠ text)

/-- The lines of a text that are not blank. -/
def existingLines (body : Text) : List Text := (splitLines body).filter fun l ↦ !isBlank l

/-- `merge_line_into_marked_block` -/
def mergeLineIntoMarkedBlock (opening closing line : Text) (sort : Bool) (text : Text) :
    Except MarkerError (Text × Bool) :=
  match between opening closing text with
  | none => .error ⟨s!"Missing marker block '{String.ofList opening}' … '{String.ofList closing}'"⟩
  | some found =>
    let existing := existingLines found.body
    upsertMarkedBlock opening closing (if existing.contains line then existing else existing ++ [line]) sort text

/-! ### What is written -/

variable {opening closing text indent : Text} {lines : List Text} {sort : Bool} {found : Enclosed}

/-- The block that the given lines make of one that is found. -/
def upserted (sort : Bool) (lines : List Text) (found : Enclosed) : Enclosed :=
  { found with body := blockBody (indentOf found.before) (bodyLines sort lines) }

theorem upsertMarkedBlock_eq (h : between opening closing text = some found) :
    upsertMarkedBlock opening closing lines sort text =
      .ok ((upserted sort lines found).text opening closing,
        (upserted sort lines found).text opening closing ≠ text) := by
  have htext (body : Text) :
      unindented found.before ++
        ((indentOf found.before ++ (opening ++ (body ++ closing))) ++ found.after) =
      ({ found with body := body } : Enclosed).text opening closing := by
    rw [Enclosed.text, List.append_assoc, ← List.append_assoc (unindented found.before),
      unindented_append_indentOf, List.append_assoc, List.append_assoc]
  rw [upsertMarkedBlock, h]
  show Except.ok (_, decide (_ ≠ text)) = _
  rw [htext, upserted]

/-! ### The lines of a block -/

theorem isIndent_of_mem_indentOf {before : Text} {c : Char} (h : c ∈ indentOf before) :
    isIndent c = true :=
  List.mem_takeWhile_imp (List.mem_reverse.1 h)

theorem isBlank_indentOf (before : Text) : isBlank (indentOf before) = true := by
  refine List.all_eq_true.2 fun c hc ↦ ?_
  have hindent := isIndent_of_mem_indentOf hc
  simp only [isIndent, decide_eq_true_eq] at hindent
  obtain rfl | rfl := hindent <;> decide

theorem isLine_indentOf (before : Text) : IsLine (indentOf before) := by
  intro c hc
  have hindent := isIndent_of_mem_indentOf hc
  simp only [isIndent, decide_eq_true_eq] at hindent
  obtain rfl | rfl := hindent <;> decide

theorem dropNewlines_of_isLine {line : Text} (h : IsLine line) : dropNewlines line = line := by
  have hdrop : line.reverse.dropWhile (· = '\n') = line.reverse := by
    refine List.dropWhile_eq_self_iff.2 fun hlt ↦ ?_
    have hmem : line.reverse[0] ∈ line := List.mem_reverse.1 (List.getElem_mem hlt)
    intro hnewline
    exact newline_notMem_of_isLine h (of_decide_eq_true hnewline ▸ hmem)
  rw [dropNewlines, hdrop, List.reverse_reverse]

/-- No line is written twice. -/
theorem nodup_seenOnce (lines : List Text) : (seenOnce lines).Nodup := nodup_keepBy_unseen

theorem nodup_bodyLines (sort : Bool) (lines : List Text) : (bodyLines sort lines).Nodup := by
  rw [bodyLines]
  split
  · exact (List.mergeSort_perm _ _).nodup_iff.2 (List.nodup_dedup _)
  · exact nodup_seenOnce _

/-- Lines that are not repeated are all kept. -/
theorem seenOnce_of_nodup {lines : List Text} (h : lines.Nodup) : seenOnce lines = lines := by
  have key : ∀ lines seen : List Text, (seen ++ lines).Nodup →
      keepBy (fun seen line ↦ !seen.contains line) seen lines = lines := by
    intro lines
    induction lines with
    | nil => exact fun _ _ ↦ rfl
    | cons line lines ih =>
      intro seen hnodup
      have hline : line ∉ seen := fun h ↦
        (List.nodup_append.1 hnodup).2.2 line h line List.mem_cons_self rfl
      rw [keepBy, if_pos (by simpa using hline), ih (seen ++ [line]) (by simpa using hnodup)]
  exact key lines [] h

theorem mem_bodyLines {l : Text} (hlines : ∀ l ∈ lines, IsLine l) (h : l ∈ bodyLines sort lines) :
    l ∈ lines ∧ isBlank l = false := by
  have hkept : l ∈ (lines.filter fun line ↦ !isBlank line).map dropNewlines := by
    rw [bodyLines] at h
    split at h
    · exact List.mem_dedup.1 ((List.mergeSort_perm _ _).mem_iff.1 h)
    · exact (keepBy_sublist _ _ _).subset h
  obtain ⟨line, hline, rfl⟩ := List.mem_map.1 hkept
  obtain ⟨hmem, hblank⟩ := List.mem_filter.1 hline
  rw [dropNewlines_of_isLine (hlines line hmem)]
  exact ⟨hmem, by simpa using hblank⟩

/-- The lines of an upsert, of which none is blank and none has a newline. -/
theorem bodyLines_of_lines (hlines : ∀ l ∈ lines, IsLine l ∧ isBlank l = false) : bodyLines sort lines =
    if sort then lines.dedup.mergeSort (fun a b ↦ a ≤ b) else seenOnce lines := by
  have hfilter : lines.filter (fun line ↦ !isBlank line) = lines :=
    List.filter_eq_self.2 fun l hl ↦ by simp [(hlines l hl).2]
  have hmap : lines.map dropNewlines = lines :=
    (List.map_congr_left fun l hl ↦ dropNewlines_of_isLine (hlines l hl).1).trans lines.map_id
  rw [bodyLines, hfilter, hmap]

/-- Lines without blank and repeated ones are written as they are. -/
theorem bodyLines_of_nodup (hlines : ∀ l ∈ lines, IsLine l ∧ isBlank l = false) (h : lines.Nodup) :
    bodyLines false lines = lines := by
  rw [bodyLines_of_lines hlines, if_neg Bool.false_ne_true, seenOnce_of_nodup h]

/-- The lines of a block are those that it is given. -/
theorem existingLines_blockBody (hlines : ∀ l ∈ lines, IsLine l ∧ isBlank l = false) (before : Text) :
    existingLines (blockBody (indentOf before) lines) = lines := by
  have hindent : (splitLines (indentOf before)).filter (fun l ↦ !isBlank l) = [] := by
    rw [splitLines_of_isLine (isLine_indentOf before)]
    split
    · rfl
    · simp [isBlank_indentOf before]
  have hnil : IsLine ([] : Text) := fun _ h ↦ absurd h List.not_mem_nil
  rw [existingLines, blockBody]
  split
  · next hempty =>
    rw [← List.nil_append ('\n' :: indentOf before), splitLines_append_cons hnil,
      List.filter_cons_of_neg (by decide), hindent, hempty]
  · next hne =>
    rw [← List.nil_append ('\n' :: (joinLines lines ++ _)), splitLines_append_cons hnil,
      splitLines_joinLines_append hne fun l hl ↦ (hlines l hl).1, List.filter_cons_of_neg (by decide),
      List.filter_append, hindent, List.append_nil]
    exact List.filter_eq_self.2 fun l hl ↦ by simp [(hlines l hl).2]

theorem mem_blockBody {c : Char} (h : c ∈ blockBody indent lines) :
    c = '\n' ∨ c ∈ indent ∨ ∃ l ∈ lines, c ∈ l := by
  rw [blockBody] at h
  split at h
  · exact (List.mem_cons.1 h).imp_right .inl
  · obtain rfl | h := List.mem_cons.1 h
    · exact .inl rfl
    · obtain h | h := List.mem_append.1 h
      · exact (mem_joinLines h).imp_right .inr
      · exact (List.mem_cons.1 h).imp_right .inl

end GenericApp
