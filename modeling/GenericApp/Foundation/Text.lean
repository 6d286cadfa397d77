import Mathlib.Data.List.Infix
import GenericApp.Foundation.Python

/-!
# Texts, their lines, and what stands between two marks

A text is the list of its characters. Three things are done with texts here: reading one with universal
newlines, cutting it into lines as `str.splitlines` does, and finding what stands between the first occurrence
of one pattern and the next occurrence of another, which is what a search for `opening(.*?)closing` finds.

`cutAt` is the search for one pattern. Where the first occurrence is depends on nothing that comes after it
(`cutAt_append`), so that a text can be rewritten behind a mark and the mark is found again. The lines of a
text are cut off one at a time at a newline (`splitLines_append_cons`).
-/

namespace Py

abbrev Text := List Char

/-! ### UTF-8 -/

/-- `bytes.decode("utf-8")` -/
def decodeText (bytes : ByteArray) : Option Text := (String.fromUTF8? bytes).map String.toList

/-- `x.encode("utf-8")`, and what `write_text(x, encoding="utf-8")` puts into a file. -/
def encodeText (x : Text) : ByteArray := (String.ofList x).toUTF8

/-- The characters of a literal, without decoding it. -/
theorem toList_of_eq {s : String} {x : Text} (h : s = String.ofList x) : s.toList = x := by
  rw [h, String.toList_ofList]

theorem encodeText_of_decodeText {bytes : ByteArray} {x : Text} (h : decodeText bytes = some x) :
    encodeText x = bytes := by
  obtain ⟨s, hs, rfl⟩ := Option.map_eq_some_iff.1 h
  rw [encodeText, String.ofList_toList]
  rw [String.fromUTF8?] at hs
  split at hs
  · obtain rfl := Option.some.inj hs
    rfl
  · exact nomatch hs

theorem decodeText_encodeText (x : Text) : decodeText (encodeText x) = some x := by
  have h : String.fromUTF8? (encodeText x) = some (String.ofList x) := by
    rw [String.fromUTF8?]
    split
    · rfl
    · next hinvalid =>
      exact absurd (String.ofList x).isValidUTF8 hinvalid
  rw [decodeText, h, Option.map_some, String.toList_ofList]

theorem encodeText_injective {x y : Text} (h : encodeText x = encodeText y) : x = y :=
  String.ofList_injective (String.toByteArray_inj.1 h)

/-! ### Newlines -/

/-- `"\r\n"` as one character. -/
def mergeCrlf : Text → Text
  | '\r' :: '\n' :: cs => '\n' :: mergeCrlf cs
  | c :: cs => c :: mergeCrlf cs
  | [] => []

/-- What a text file holds, as `read_text` returns it. -/
def universalNewlines (x : Text) : Text := (mergeCrlf x).map fun c ↦ if c = '\r' then '\n' else c

theorem mergeCrlf_other {c : Char} {x : Text} (h : ∀ y, c = '\r' → x = '\n' :: y → False) :
    mergeCrlf (c :: x) = c :: mergeCrlf x := by
  rw [mergeCrlf]
  exact h

theorem mergeCrlf_cons {c : Char} (hc : c ≠ '\r') (x : Text) :
    mergeCrlf (c :: x) = c :: mergeCrlf x :=
  mergeCrlf_other fun _ h ↦ absurd h hc

theorem mergeCrlf_of_notMem {x : Text} (h : '\r' ∉ x) : mergeCrlf x = x := by
  induction x with
  | nil => rfl
  | cons c x ih =>
    obtain ⟨hc, hx⟩ := not_or.1 (mt List.mem_cons.2 h)
    rw [mergeCrlf_cons (Ne.symm hc), ih hx]

theorem mem_of_mem_mergeCrlf {c : Char} {x : Text} (h : c ∈ mergeCrlf x) : c ∈ x := by
  fun_induction mergeCrlf x with
  | case1 x ih =>
    obtain rfl | h := List.mem_cons.1 h
    · exact List.mem_cons_of_mem _ List.mem_cons_self
    · exact List.mem_cons_of_mem _ (List.mem_cons_of_mem _ (ih h))
  | case2 d x hx ih =>
    obtain rfl | h := List.mem_cons.1 h
    · exact List.mem_cons_self
    · exact List.mem_cons_of_mem d (ih h)
  | case3 => exact h

theorem universalNewlines_cons {c : Char} (hc : c ≠ '\r') (x : Text) :
    universalNewlines (c :: x) = c :: universalNewlines x := by
  rw [universalNewlines, mergeCrlf_cons hc, List.map_cons, if_neg hc, universalNewlines]

theorem universalNewlines_crlf (x : Text) :
    universalNewlines ('\r' :: '\n' :: x) = '\n' :: universalNewlines x := rfl

theorem universalNewlines_cr {x : Text} (hx : ∀ y, x ≠ '\n' :: y) :
    universalNewlines ('\r' :: x) = '\n' :: universalNewlines x := by
  rw [universalNewlines, mergeCrlf_other fun y _ heq ↦ hx y heq]
  rfl

theorem return_notMem_universalNewlines (x : Text) : '\r' ∉ universalNewlines x := by
  intro h
  obtain ⟨c, -, hc⟩ := List.mem_map.1 h
  split at hc
  · exact absurd hc (by decide)
  · next hne => exact hne hc

/-- A text without carriage returns is read as it is. -/
theorem universalNewlines_of_notMem {x : Text} (h : '\r' ∉ x) : universalNewlines x = x := by
  rw [universalNewlines, mergeCrlf_of_notMem h]
  refine (List.map_congr_left fun c hc ↦ if_neg ?_).trans x.map_id
  rintro rfl
  exact h hc

theorem mergeCrlf_append {l : Text} (hl : '\r' ∉ l) (x : Text) :
    mergeCrlf (l ++ x) = l ++ mergeCrlf x := by
  induction l with
  | nil => rfl
  | cons c l ih =>
    obtain ⟨hc, hl⟩ := not_or.1 (mt List.mem_cons.2 hl)
    rw [List.cons_append, mergeCrlf_cons (Ne.symm hc), ih hl, List.cons_append]

theorem universalNewlines_append_left {l : Text} (hl : '\r' ∉ l) (x : Text) :
    universalNewlines (l ++ x) = l ++ universalNewlines x := by
  have hself := universalNewlines_of_notMem hl
  rw [universalNewlines, mergeCrlf_of_notMem hl] at hself
  rw [universalNewlines, mergeCrlf_append hl, List.map_append, hself, universalNewlines]

/-- And only such a text is. -/
theorem universalNewlines_eq_self_iff {x : Text} : universalNewlines x = x ↔ '\r' ∉ x :=
  ⟨fun h ↦ h ▸ return_notMem_universalNewlines x, universalNewlines_of_notMem⟩

/-- A text is read in two parts where the second one does not begin in the middle of a newline. -/
theorem universalNewlines_append (x : Text) {c : Char} (hc : c ≠ '\n') (y : Text) :
    universalNewlines (x ++ c :: y) = universalNewlines x ++ universalNewlines (c :: y) := by
  simp only [universalNewlines, ← List.map_append]
  congr 1
  fun_induction mergeCrlf x with
  | case1 x ih => rw [List.cons_append, List.cons_append, mergeCrlf, ih, List.cons_append]
  | case2 d x hx ih =>
    rw [List.cons_append, List.cons_append, mergeCrlf, ih]
    rintro cs rfl hcs
    match x with
    | [] => exact hc (List.cons.inj hcs).1
    | e :: x => exact hx x rfl (by rw [(List.cons.inj hcs).1])
  | case3 => rfl

/-! ### Lines -/

/-- The characters that end a line for `str.splitlines`. -/
def isLineBreak (c : Char) : Bool :=
  let n := c.toNat
  (10 ≤ n ∧ n ≤ 13) ∨ (28 ≤ n ∧ n ≤ 30) ∨ n = 133 ∨ n = 8232 ∨ n = 8233

/-- The lines of a text, of which `run` has been read of the first one, backwards. -/
def linesFrom : Text → Text → List Text
  | [], [] => []
  | run, [] => [run.reverse]
  | run, c :: cs => if isLineBreak c then run.reverse :: linesFrom [] cs else linesFrom (c :: run) cs

theorem linesFrom_cons (run : Text) (c : Char) (x : Text) :
    linesFrom run (c :: x) =
      if isLineBreak c then run.reverse :: linesFrom [] x else linesFrom (c :: run) x := by
  cases run with
  | nil => rfl
  | cons d run => rfl

/-- `s.splitlines()` -/
def splitLines (x : Text) : List Text := linesFrom [] (mergeCrlf x)

/-- `"\n".join(lines)` -/
def joinLines (lines : List Text) : Text := ['\n'].intercalate lines

theorem joinLines_cons_cons (l m : Text) (lines : List Text) :
    joinLines (l :: m :: lines) = l ++ '\n' :: joinLines (m :: lines) := by
  simp [joinLines, List.intercalate, List.intersperse]

@[simp] theorem joinLines_singleton (l : Text) : joinLines [l] = l := by
  simp [joinLines, List.intercalate, List.intersperse]

@[simp] theorem joinLines_nil : joinLines [] = [] := rfl

/-- The characters of joined lines are theirs, and newlines. -/
theorem mem_joinLines {c : Char} {lines : List Text} (h : c ∈ joinLines lines) :
    c = '\n' ∨ ∃ l ∈ lines, c ∈ l := by
  induction lines with
  | nil => exact absurd h List.not_mem_nil
  | cons l lines ih =>
    match lines with
    | [] => exact .inr ⟨l, List.mem_singleton_self l, by simpa using h⟩
    | m :: lines =>
      rw [joinLines_cons_cons] at h
      obtain h | h := List.mem_append.1 h
      · exact .inr ⟨l, List.mem_cons_self, h⟩
      · obtain rfl | h := List.mem_cons.1 h
        · exact .inl rfl
        · exact (ih h).imp_right fun ⟨m', hm, hc⟩ ↦ ⟨m', List.mem_cons_of_mem l hm, hc⟩

/-- `not s.strip()` -/
def isBlank (x : Text) : Bool := x.all isSpace

theorem isBlank_universalNewlines {x : Text} (h : isBlank x = true) :
    isBlank (universalNewlines x) = true := by
  refine List.all_eq_true.2 fun c hc ↦ ?_
  obtain ⟨d, hd, rfl⟩ := List.mem_map.1 hc
  split
  · decide
  · exact List.all_eq_true.1 h d (mem_of_mem_mergeCrlf hd)

/-- A text in which no line ends. -/
def IsLine (x : Text) : Prop := ∀ c ∈ x, isLineBreak c = false

theorem return_notMem_of_isLine {x : Text} (h : IsLine x) : '\r' ∉ x :=
  fun hmem ↦ absurd (h _ hmem) (by decide)

theorem newline_notMem_of_isLine {x : Text} (h : IsLine x) : '\n' ∉ x :=
  fun hmem ↦ absurd (h _ hmem) (by decide)

theorem linesFrom_append (run : Text) {l : Text} (hl : IsLine l) (x : Text) :
    linesFrom run (l ++ x) = linesFrom (l.reverse ++ run) x := by
  induction l generalizing run with
  | nil => rfl
  | cons c l ih =>
    have hc : isLineBreak c = false := hl c List.mem_cons_self
    rw [List.cons_append, linesFrom, hc, if_neg Bool.false_ne_true,
      ih (c :: run) fun d hd ↦ hl d (List.mem_cons_of_mem c hd), List.reverse_cons,
      List.append_assoc, List.singleton_append]

/-- A text begins with the line that stands before its first newline. -/
theorem splitLines_append_cons {l : Text} (hl : IsLine l) (x : Text) :
    splitLines (l ++ '\n' :: x) = l :: splitLines x := by
  have hbreak : isLineBreak '\n' = true := by decide
  rw [splitLines, mergeCrlf_append (return_notMem_of_isLine hl), mergeCrlf_cons (by decide),
    linesFrom_append [] hl, linesFrom, hbreak, if_pos rfl, List.append_nil, List.reverse_reverse,
    splitLines]

@[simp] theorem splitLines_nil : splitLines [] = [] := rfl

/-- What stands after the last newline is a line if there is anything. -/
theorem splitLines_of_isLine {l : Text} (hl : IsLine l) :
    splitLines l = if l = [] then [] else [l] := by
  match l with
  | [] => rfl
  | c :: l =>
    have key := linesFrom_append [] hl []
    obtain ⟨d, run, hrun⟩ := List.exists_cons_of_ne_nil
      (List.reverse_ne_nil_iff.2 (List.cons_ne_nil c l))
    rw [List.append_nil, List.append_nil, hrun, linesFrom, ← hrun, List.reverse_reverse] at key
    · rw [if_neg (List.cons_ne_nil c l), splitLines,
        mergeCrlf_of_notMem (return_notMem_of_isLine hl), key]
    · exact List.cons_ne_nil d run

/-- Joined lines are cut at the same places again. -/
theorem splitLines_joinLines_append {lines : List Text} (hne : lines ≠ [])
    (hlines : ∀ l ∈ lines, IsLine l) (x : Text) :
    splitLines (joinLines lines ++ '\n' :: x) = lines ++ splitLines x := by
  induction lines with
  | nil => exact absurd rfl hne
  | cons l lines ih =>
    have hl := hlines l List.mem_cons_self
    match lines with
    | [] => rw [joinLines_singleton, splitLines_append_cons hl, List.singleton_append]
    | m :: lines =>
      rw [joinLines_cons_cons, List.append_assoc, List.cons_append, splitLines_append_cons hl,
        ih (List.cons_ne_nil m lines) fun l' h ↦ hlines l' (List.mem_cons_of_mem l h)]
      rfl

theorem splitLines_joinLines {lines : List Text} (hlines : ∀ l ∈ lines, IsLine l ∧ l ≠ []) :
    splitLines (joinLines lines) = lines := by
  induction lines with
  | nil => rfl
  | cons l lines ih =>
    obtain ⟨hl, hne⟩ := hlines l List.mem_cons_self
    match lines with
    | [] => rw [joinLines_singleton, splitLines_of_isLine hl, if_neg hne]
    | m :: lines =>
      rw [joinLines_cons_cons, splitLines_append_cons hl,
        ih fun l' h ↦ hlines l' (List.mem_cons_of_mem l h)]

theorem mem_linesFrom {run x l : Text} (hrun : IsLine run) (h : l ∈ linesFrom run x) :
    IsLine l ∧ ∀ c ∈ l, c ∈ run ∨ c ∈ x := by
  have hrun' : IsLine run.reverse ∧ ∀ x : Text, ∀ c ∈ run.reverse, c ∈ run ∨ c ∈ x :=
    ⟨fun c hc ↦ hrun c (List.mem_reverse.1 hc), fun _ c hc ↦ .inl (List.mem_reverse.1 hc)⟩
  induction x generalizing run with
  | nil =>
    match run with
    | [] => exact absurd h List.not_mem_nil
    | d :: run =>
      obtain rfl := List.mem_singleton.1 h
      exact ⟨hrun'.1, hrun'.2 []⟩
  | cons d x ih =>
    rw [linesFrom_cons] at h
    split at h
    · obtain rfl | h := List.mem_cons.1 h
      · exact ⟨hrun'.1, hrun'.2 _⟩
      · obtain ⟨hl, hmem⟩ := @ih [] (fun _ h ↦ absurd h List.not_mem_nil) h
          ⟨fun _ h ↦ absurd h List.not_mem_nil, fun _ _ h ↦ absurd h List.not_mem_nil⟩
        exact ⟨hl, fun c hc ↦ .inr ((hmem c hc).elim (absurd · List.not_mem_nil)
          (List.mem_cons_of_mem d))⟩
    · next hbreak =>
      have hline : IsLine (d :: run) := by
        intro c hc
        obtain rfl | hc := List.mem_cons.1 hc
        · exact Bool.eq_false_iff.2 hbreak
        · exact hrun c hc
      obtain ⟨hl, hmem⟩ := ih hline h
        ⟨fun c hc ↦ hline c (List.mem_reverse.1 hc), fun _ c hc ↦ .inl (List.mem_reverse.1 hc)⟩
      refine ⟨hl, fun c hc ↦ ?_⟩
      obtain hc | hc := hmem c hc
      · obtain rfl | hc := List.mem_cons.1 hc
        · exact .inr List.mem_cons_self
        · exact .inl hc
      · exact .inr (List.mem_cons_of_mem d hc)

/-- Lines are made of characters of the text, and no line ends within one. -/
theorem mem_splitLines {x l : Text} (h : l ∈ splitLines x) : IsLine l ∧ ∀ c ∈ l, c ∈ x := by
  obtain ⟨hl, hmem⟩ := mem_linesFrom (fun _ h ↦ absurd h List.not_mem_nil) h
  exact ⟨hl, fun c hc ↦ mem_of_mem_mergeCrlf ((hmem c hc).resolve_left List.not_mem_nil)⟩

theorem infix_of_mem_linesFrom {run x l : Text} (h : l ∈ linesFrom run x) : l <:+: run.reverse ++ x := by
  induction x generalizing run with
  | nil =>
    match run with
    | [] => exact absurd h List.not_mem_nil
    | d :: run =>
      rw [List.mem_singleton.1 h, List.append_nil]
  | cons c x ih =>
    rw [linesFrom_cons] at h
    split at h
    · obtain rfl | h := List.mem_cons.1 h
      · exact (List.prefix_append _ _).isInfix
      · obtain ⟨u, v, heq⟩ := ih h
        rw [List.reverse_nil, List.nil_append] at heq
        exact ⟨run.reverse ++ c :: u, v, by simp [← heq]⟩
    · have hl := ih h
      rwa [List.reverse_cons, List.append_assoc, List.singleton_append] at hl

/-- What has no newline and stands in a text whose newlines are merged stood there before. -/
theorem infix_of_infix_mergeCrlf {l x : Text} (hl : '\n' ∉ l) (h : l <:+: mergeCrlf x) : l <:+: x := by
  have hstart (l x : Text) (hl : '\n' ∉ l) (h : l <+: mergeCrlf x) : l <+: x := by
    fun_induction mergeCrlf x generalizing l with
    | case1 x ih =>
      match l with
      | [] => exact List.nil_prefix
      | c :: l => exact absurd (List.mem_cons.2 (.inl (List.cons_prefix_cons.1 h).1.symm)) hl
    | case2 c x hx ih =>
      match l with
      | [] => exact List.nil_prefix
      | d :: l =>
        obtain ⟨rfl, hrest⟩ := List.cons_prefix_cons.1 h
        exact List.cons_prefix_cons.2 ⟨rfl, ih l (fun hmem ↦ hl (List.mem_cons_of_mem _ hmem)) hrest⟩
    | case3 => exact h
  fun_induction mergeCrlf x with
  | case1 x ih =>
    obtain h | h := List.infix_cons_iff.1 h
    · match l with
      | [] => exact List.nil_infix
      | c :: l => exact absurd (List.mem_cons.2 (.inl (List.cons_prefix_cons.1 h).1.symm)) hl
    · exact (ih h).trans ⟨['\r', '\n'], [], by simp⟩
  | case2 c x hx ih =>
    have hmerge : mergeCrlf (c :: x) = c :: mergeCrlf x := mergeCrlf_other hx
    obtain hfirst | h := List.infix_cons_iff.1 h
    · exact (hstart l (c :: x) hl (hmerge ▸ hfirst)).isInfix
    · exact List.infix_cons (ih h)
  | case3 => exact h

/-- A line stands in the text. -/
theorem infix_of_mem_splitLines {x l : Text} (h : l ∈ splitLines x) : l <:+: x := by
  refine infix_of_infix_mergeCrlf (newline_notMem_of_isLine (mem_splitLines h).1) ?_
  have hinfix := infix_of_mem_linesFrom h
  rwa [List.reverse_nil, List.nil_append] at hinfix

/-! ### The first occurrence of a pattern -/

/-- What stands before the first occurrence of `p`, which is not empty, and what stands after it. -/
def cutAt (p : Text) : Text → Option (Text × Text)
  | [] => none
  | c :: cs =>
    if p <+: c :: cs then some ([], (c :: cs).drop p.length)
    else (cutAt p cs).map fun cut ↦ (c :: cut.1, cut.2)

theorem cutAt_cons (p : Text) (c : Char) (x : Text) :
    cutAt p (c :: x) =
      if p <+: c :: x then some ([], (c :: x).drop p.length)
      else (cutAt p x).map fun cut ↦ (c :: cut.1, cut.2) := rfl

theorem cutAt_self {p : Text} (hp : p ≠ []) (x : Text) : cutAt p (p ++ x) = some ([], x) := by
  obtain ⟨c, q, rfl⟩ := List.exists_cons_of_ne_nil hp
  show cutAt (c :: q) (c :: (q ++ x)) = some ([], x)
  rw [cutAt_cons, ← List.cons_append, if_pos (List.prefix_append _ _), List.drop_left]

theorem cutAt_sound {p x b a : Text} (h : cutAt p x = some (b, a)) : x = b ++ (p ++ a) := by
  induction x generalizing b a with
  | nil => exact nomatch h
  | cons c x ih =>
    rw [cutAt_cons] at h
    split at h
    · next hp =>
      obtain ⟨rfl, rfl⟩ := Prod.mk.inj (Option.some.inj h)
      exact (List.prefix_iff_eq_append.1 hp).symm
    · obtain ⟨⟨b', a'⟩, hcut, heq⟩ := Option.map_eq_some_iff.1 h
      obtain ⟨rfl, rfl⟩ := Prod.mk.inj heq
      rw [ih hcut, List.cons_append]

/-- A pattern that stands in a text is found, there or before. -/
theorem exists_cutAt {p : Text} (hp : p ≠ []) (u r : Text) : ∃ b a, cutAt p (u ++ (p ++ r)) = some (b, a) ∧ r <:+ a := by
  induction u with
  | nil => exact ⟨[], r, cutAt_self hp r, List.suffix_refl r⟩
  | cons c u ih =>
    rw [List.cons_append, cutAt_cons]
    split
    · refine ⟨[], _, rfl, ?_⟩
      rw [← List.cons_append, ← List.append_assoc, List.drop_append_of_le_length]
      · exact List.suffix_append _ _
      · rw [List.length_append]
        omega
    · obtain ⟨b, a, hcut, hsuffix⟩ := ih
      exact ⟨c :: b, a, by rw [hcut]; rfl, hsuffix⟩

/-- A pattern that is found further on is found in the rest. -/
theorem cutAt_tail {p x b a : Text} {c d : Char} (h : cutAt p (c :: x) = some (d :: b, a)) :
    ¬p <+: c :: x ∧ c = d ∧ cutAt p x = some (b, a) := by
  rw [cutAt_cons] at h
  split at h
  · exact absurd (congrArg (Option.map Prod.fst) h) (by simp)
  · next hnot =>
    obtain ⟨cut, hcut, heq⟩ := Option.map_eq_some_iff.1 h
    obtain ⟨hb, ha⟩ := Prod.mk.inj heq
    obtain ⟨hcd, hb⟩ := List.cons.inj hb
    exact ⟨hnot, hcd, by rw [hcut, ← hb, ← ha]⟩

/-- Where a pattern first stands depends on nothing that follows. -/
theorem cutAt_append {p b a : Text} (hp : p ≠ []) (h : cutAt p (b ++ (p ++ a)) = some (b, a))
    (a' : Text) : cutAt p (b ++ (p ++ a')) = some (b, a') := by
  induction b with
  | nil => exact cutAt_self hp a'
  | cons c b ih =>
    obtain ⟨hnot, -, hcut⟩ := cutAt_tail h
    have hnot' : ¬p <+: c :: (b ++ (p ++ a')) := by
      intro hstart
      have hshort : p <+: c :: (b ++ p) := by
        refine List.prefix_of_prefix_length_le hstart ⟨a', by simp⟩ ?_
        simp only [List.length_cons, List.length_append]
        omega
      exact hnot (hshort.trans ⟨a, by simp⟩)
    rw [List.cons_append, cutAt_cons, if_neg hnot', ih hcut, Option.map_some]

/-- A pattern is not found where one of its characters is missing. -/
theorem cutAt_eq_none {p x : Text} {c : Char} (hp : c ∈ p) (hx : c ∉ x) : cutAt p x = none := by
  match hcut : cutAt p x with
  | none => rfl
  | some (b, a) =>
    rw [cutAt_sound hcut] at hx
    exact absurd (List.mem_append_right b (List.mem_append_left a hp)) hx

theorem cutAt_cons_of_not {p x : Text} {c : Char} (h : ¬p <+: c :: x) :
    cutAt p (c :: x) = (cutAt p x).map fun cut ↦ (c :: cut.1, cut.2) := by
  rw [cutAt_cons, if_neg h]

/-- A pattern is not found where its first character is missing. -/
theorem cutAt_append_of_notMem {c : Char} {p l : Text} (hl : c ∉ l) (x : Text) :
    cutAt (c :: p) (l ++ x) = (cutAt (c :: p) x).map fun cut ↦ (l ++ cut.1, cut.2) := by
  induction l with
  | nil => simp
  | cons d l ih =>
    obtain ⟨hd, hl⟩ := not_or.1 (mt List.mem_cons.2 hl)
    have hnot : ¬c :: p <+: d :: (l ++ x) := fun h ↦ hd (List.cons_prefix_cons.1 h).1
    rw [List.cons_append, cutAt_cons_of_not hnot, ih hl, Option.map_map]
    rfl

/-- A pattern does not stand before its first occurrence. -/
theorem not_infix_of_cutAt {p x b a : Text} (hp : p ≠ []) (h : cutAt p x = some (b, a)) : ¬p <:+: b := by
  induction b generalizing x with
  | nil => exact fun hinfix ↦ hp (List.infix_nil.1 hinfix)
  | cons c b ih =>
    have hx := cutAt_sound h
    subst hx
    obtain ⟨hnot, -, hcut⟩ := cutAt_tail h
    intro hinfix
    obtain hstart | hinfix := List.infix_cons_iff.1 hinfix
    · exact hnot (hstart.trans ⟨p ++ a, rfl⟩)
    · exact ih hcut hinfix

/-- A pattern on one line is not found in a line that it does not stand in. -/
theorem cutAt_line {p l : Text} (hp : p ≠ []) (hnewline : '\n' ∉ p) (hl : ¬p <:+: l) (x : Text) :
    cutAt p (l ++ '\n' :: x) = (cutAt p x).map fun cut ↦ (l ++ '\n' :: cut.1, cut.2) := by
  have hstart (l : Text) (h : p <+: l ++ '\n' :: x) : p <+: l := by
    rcases List.prefix_or_prefix_of_prefix h (List.prefix_append l ('\n' :: x)) with hshort | ⟨q, rfl⟩
    · exact hshort
    · match q with
      | [] => simp
      | c :: q =>
        have hq := (List.cons_prefix_cons.1 ((List.prefix_append_right_inj l).1 h)).1
        exact absurd (List.mem_append_right l (List.mem_cons.2 (.inl hq.symm))) hnewline
  induction l with
  | nil =>
    have hnot : ¬p <+: '\n' :: x := fun h ↦ hp (List.prefix_nil.1 (hstart [] h))
    exact cutAt_cons_of_not hnot
  | cons c l ih =>
    have hnot : ¬p <+: c :: (l ++ '\n' :: x) := fun h ↦ hl (hstart (c :: l) h).isInfix
    rw [List.cons_append, cutAt_cons_of_not hnot, ih fun h ↦ hl (List.infix_cons h), Option.map_map]
    rfl

/-- A pattern without newlines that a text begins with as it is read, it begins with as it is written. -/
theorem prefix_of_prefix_universalNewlines {p x : Text} (hp : ∀ c ∈ p, c ≠ '\r' ∧ c ≠ '\n')
    (h : p <+: universalNewlines x) : p <+: x := by
  induction p generalizing x with
  | nil => exact List.nil_prefix
  | cons c q ih =>
    obtain ⟨hr, hn⟩ := hp c List.mem_cons_self
    match x with
    | [] => exact absurd (List.prefix_nil.1 h) (List.cons_ne_nil c q)
    | d :: x =>
      by_cases hd : d = '\r'
      · -- a carriage return is read as a newline, with which the pattern does not begin
        obtain ⟨y, hy⟩ : ∃ y, universalNewlines (d :: x) = '\n' :: y := by
          subst hd
          by_cases hx : ∃ y, x = '\n' :: y
          · obtain ⟨y, rfl⟩ := hx
            exact ⟨_, universalNewlines_crlf y⟩
          · exact ⟨_, universalNewlines_cr (not_exists.1 hx)⟩
        rw [hy] at h
        exact absurd (List.cons_prefix_cons.1 h).1 hn
      · rw [universalNewlines_cons hd] at h
        obtain ⟨hcd, h⟩ := List.cons_prefix_cons.1 h
        exact List.cons_prefix_cons.2
          ⟨hcd, ih (fun c hc ↦ hp c (List.mem_cons_of_mem _ hc)) h⟩

/-- A pattern without newlines is found in a text that has been read where it stands in what is written. -/
theorem cutAt_universalNewlines {p : Text} (hne : p ≠ []) (hp : ∀ c ∈ p, c ≠ '\r' ∧ c ≠ '\n')
    {x b a : Text} (h : cutAt p x = some (b, a)) :
    cutAt p (universalNewlines x) = some (universalNewlines b, universalNewlines a) := by
  have hread (b : Text) : universalNewlines (b ++ (p ++ a)) =
      universalNewlines b ++ (p ++ universalNewlines a) := by
    obtain ⟨c, q, rfl⟩ := List.exists_cons_of_ne_nil hne
    show universalNewlines (b ++ c :: (q ++ a)) = _
    rw [universalNewlines_append b (hp c List.mem_cons_self).2, ← List.cons_append,
      universalNewlines_append_left fun h ↦ (hp _ h).1 rfl]
  have hnot {x : Text} (h : ¬p <+: x) : ¬p <+: universalNewlines x :=
    fun hu ↦ h (prefix_of_prefix_universalNewlines hp hu)
  have hx := cutAt_sound h
  subst hx
  rw [hread]
  fun_induction mergeCrlf b with
  | case1 b ih =>
    obtain ⟨hr, -, htail⟩ := cutAt_tail h
    obtain ⟨-, -, hcut⟩ := cutAt_tail htail
    have hr' : ¬p <+: universalNewlines ('\r' :: '\n' :: b) ++ (p ++ universalNewlines a) :=
      hread ('\r' :: '\n' :: b) ▸ hnot hr
    rw [universalNewlines_crlf, List.cons_append] at hr' ⊢
    rw [cutAt_cons_of_not hr', ih hcut, Option.map_some]
  | case2 d b hb ih =>
    obtain ⟨hd, -, hcut⟩ := cutAt_tail h
    have hd' : ¬p <+: universalNewlines (d :: b) ++ (p ++ universalNewlines a) :=
      hread (d :: b) ▸ hnot hd
    have hone : universalNewlines (d :: b) =
        (if d = '\r' then '\n' else d) :: universalNewlines b := by
      rw [universalNewlines, mergeCrlf_other hb, List.map_cons, universalNewlines]
    rw [hone, List.cons_append] at hd' ⊢
    rw [cutAt_cons_of_not hd', ih hcut, Option.map_some]
  | case3 => exact cutAt_self hne _

/-! ### What stands between two marks -/

/-- A text around what stands between two marks. -/
structure Enclosed where
  before : Text
  body : Text
  after : Text
deriving DecidableEq

/-- The text of its parts and the marks. -/
def Enclosed.text (opening closing : Text) (e : Enclosed) : Text :=
  e.before ++ (opening ++ (e.body ++ (closing ++ e.after)))

/-- What a search for `opening(.*?)closing` finds in a text. -/
def between (opening closing x : Text) : Option Enclosed :=
  match cutAt opening x with
  | none => none
  | some (before, rest) =>
    match cutAt closing rest with
    | none => none
    | some (body, after) => some ⟨before, body, after⟩

variable {opening closing x : Text} {e : Enclosed}

theorem between_eq_some_iff : between opening closing x = some e ↔
    ∃ rest, cutAt opening x = some (e.before, rest) ∧ cutAt closing rest = some (e.body, e.after) := by
  rw [between]
  constructor
  · intro h
    split at h
    · exact nomatch h
    · next before rest hopen =>
      split at h
      · exact nomatch h
      · next body after hclose =>
        obtain rfl := Option.some.inj h
        exact ⟨rest, hopen, hclose⟩
  · rintro ⟨rest, hopen, hclose⟩
    rw [hopen]
    show (match cutAt closing rest with
      | none => none
      | some (body, after) => some (⟨e.before, body, after⟩ : Enclosed)) = some e
    rw [hclose]

/-- Where the closing mark stands behind an opening one, both are found. -/
theorem exists_between (hopening : opening ≠ []) (hclosing : closing ≠ []) (u v w : Text) :
    ∃ e, between opening closing (u ++ (opening ++ (v ++ (closing ++ w)))) = some e := by
  obtain ⟨before, rest, hopen, ⟨skipped, hrest⟩⟩ := exists_cutAt hopening u (v ++ (closing ++ w))
  obtain ⟨body, after, hclose, -⟩ := exists_cutAt hclosing (skipped ++ v) w
  rw [List.append_assoc, hrest] at hclose
  exact ⟨⟨before, body, after⟩, between_eq_some_iff.2 ⟨rest, hopen, hclose⟩⟩

/-- The parts are those of the text. -/
theorem between_sound (h : between opening closing x = some e) : x = e.text opening closing := by
  obtain ⟨rest, hopen, hclose⟩ := between_eq_some_iff.1 h
  rw [Enclosed.text, ← cutAt_sound hclose, ← cutAt_sound hopen]

/-- With another body, in which the closing mark does not begin, the marks are found where they were. -/
theorem between_withBody {c : Char} {q body : Text} (hopening : opening ≠ [])
    (h : between opening (c :: q) x = some e) (hbody : c ∉ body) :
    between opening (c :: q) ({ e with body := body }.text opening (c :: q)) =
      some { e with body := body } := by
  obtain ⟨rest, hopen, -⟩ := between_eq_some_iff.1 h
  rw [cutAt_sound hopen] at hopen
  refine between_eq_some_iff.2 ⟨body ++ (c :: q ++ e.after), cutAt_append hopening hopen _, ?_⟩
  rw [cutAt_append_of_notMem hbody, cutAt_self (List.cons_ne_nil c q), Option.map_some,
    List.append_nil]

theorem between_eq_none {c : Char} (hopening : c ∈ opening) (hx : c ∉ x) :
    between opening closing x = none := by
  rw [between, cutAt_eq_none hopening hx]

/-- The text that is read has the parts that are read. -/
theorem between_universalNewlines (hopening : opening ≠ []) (hclosing : closing ≠ [])
    (hmarks : ∀ c ∈ opening ++ closing, c ≠ '\r' ∧ c ≠ '\n') (h : between opening closing x = some e) :
    between opening closing (universalNewlines x) =
      some ⟨universalNewlines e.before, universalNewlines e.body, universalNewlines e.after⟩ := by
  obtain ⟨rest, hopen, hclose⟩ := between_eq_some_iff.1 h
  refine between_eq_some_iff.2 ⟨universalNewlines rest, ?_, ?_⟩
  · exact cutAt_universalNewlines hopening (fun c hc ↦ hmarks c (List.mem_append_left _ hc)) hopen
  · exact cutAt_universalNewlines hclosing (fun c hc ↦ hmarks c (List.mem_append_right _ hc)) hclose

end Py
