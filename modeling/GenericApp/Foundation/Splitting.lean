import GenericApp.Foundation.Text

/-!
# Splitting a text that comes in pieces

`Separator.split` cuts a text at every occurrence of a separator, as `text.split(pattern)` does, and keeps what stands
behind the last one apart. A `Separator` is a pattern whose match at the beginning of a text does not depend on what
comes later, and of which no match is completed by what comes later while a match behind it already stands
(`prompt`). For such a pattern it makes no difference whether a text is split at once or piece by piece, the rest of
one piece being put before the next one (`read_eq`).

`lineEnd` and `blankLine` are the patterns `\r?\n` and `\r?\n\r?\n`.
-/

namespace Py

/-! ### Separators -/

/-- What comes before the first match of a pattern, and what comes behind it. `after` is what is left of a text that
begins with a match. -/
def cutBy (after : Text → Option Text) : Text → Option (Text × Text)
  | [] => none
  | c :: x =>
    match after (c :: x) with
    | some rest => some ([], rest)
    | none => (cutBy after x).map fun (before, rest) ↦ (c :: before, rest)

structure Separator where
  after : Text → Option Text
  shorter {x rest : Text} : after x = some rest → rest.length < x.length
  append {x rest : Text} (y : Text) : after x = some rest → after (x ++ y) = some (rest ++ y)
  prompt {c : Char} {x : Text} (y : Text) :
    after (c :: x) = none → (cutBy after x).isSome = true → after (c :: x ++ y) = none

theorem length_lt_of_cutBy (sep : Separator) {x before rest : Text} (h : cutBy sep.after x = some (before, rest)) :
    rest.length < x.length := by
  induction x generalizing before with
  | nil => exact nomatch h
  | cons c x ih =>
    rw [cutBy] at h
    split at h
    · next hafter =>
      obtain ⟨-, rfl⟩ := Prod.mk.inj (Option.some.inj h)
      exact sep.shorter hafter
    · obtain ⟨⟨before', rest'⟩, hcut, heq⟩ := Option.map_eq_some_iff.1 h
      obtain ⟨-, rfl⟩ := Prod.mk.inj heq
      exact Nat.lt_succ_of_lt (ih hcut)

theorem cutBy_append (sep : Separator) {x before rest : Text} (y : Text)
    (h : cutBy sep.after x = some (before, rest)) : cutBy sep.after (x ++ y) = some (before, rest ++ y) := by
  induction x generalizing before with
  | nil => exact nomatch h
  | cons c x ih =>
    rw [cutBy] at h
    rw [List.cons_append, cutBy]
    split at h
    · next hafter =>
      obtain ⟨rfl, rfl⟩ := Prod.mk.inj (Option.some.inj h)
      have happend : sep.after (c :: (x ++ y)) = some _ := sep.append y hafter
      rw [happend]
    · next hnone =>
      obtain ⟨⟨before', rest'⟩, hcut, heq⟩ := Option.map_eq_some_iff.1 h
      obtain ⟨rfl, rfl⟩ := Prod.mk.inj heq
      have hprompt : sep.after (c :: (x ++ y)) = none := sep.prompt y hnone (by rw [hcut]; rfl)
      rw [hprompt, ih hcut]
      rfl

namespace Separator

variable (sep : Separator)

/-- The pieces of a text before each separator, and what stands behind the last one. -/
def split (x : Text) : List Text × Text :=
  match h : cutBy sep.after x with
  | none => ([], x)
  | some (before, rest) => (before :: (split rest).1, (split rest).2)
termination_by x.length
decreasing_by
  all_goals exact length_lt_of_cutBy sep h

theorem split_of_none {x : Text} (h : cutBy sep.after x = none) : sep.split x = ([], x) := by
  rw [split]
  split
  · rfl
  · next hsome => exact nomatch h.symm.trans hsome

theorem split_of_some {x before rest : Text} (h : cutBy sep.after x = some (before, rest)) :
    sep.split x = (before :: (sep.split rest).1, (sep.split rest).2) := by
  rw [split]
  split
  · next hnone => exact nomatch h.symm.trans hnone
  · next hsome =>
    obtain ⟨rfl, rfl⟩ := Prod.mk.inj (Option.some.inj (h.symm.trans hsome))
    rfl

/-- What has been split off a text is split off it with anything behind it. -/
theorem split_append (x y : Text) :
    sep.split (x ++ y) =
      ((sep.split x).1 ++ (sep.split ((sep.split x).2 ++ y)).1, (sep.split ((sep.split x).2 ++ y)).2) := by
  fun_induction split sep x with
  | case1 x h => rfl
  | case2 x before rest h ih =>
    rw [sep.split_of_some (cutBy_append sep y h), ih]
    rfl

/-- `text.split(pattern)` -/
def pieces (x : Text) : List Text := (sep.split x).1 ++ [(sep.split x).2]

/-! ### Piece by piece -/

/-- One more piece of the text has come. -/
def feed (found : List Text × Text) (piece : Text) : List Text × Text :=
  (found.1 ++ (sep.split (found.2 ++ piece)).1, (sep.split (found.2 ++ piece)).2)

theorem foldl_feed (x : Text) (pieces : List Text) :
    pieces.foldl sep.feed (sep.split x) = sep.split (x ++ pieces.flatten) := by
  induction pieces generalizing x with
  | nil => rw [List.foldl_nil, List.flatten_nil, List.append_nil]
  | cons piece pieces ih =>
    have hfeed : sep.feed (sep.split x) piece = sep.split (x ++ piece) := (sep.split_append x piece).symm
    rw [List.foldl_cons, hfeed, ih, List.flatten_cons, List.append_assoc]

/-- Nothing is found in nothing. -/
theorem split_nil : sep.split [] = ([], []) := sep.split_of_none rfl

end Separator

/-! ### Line ends -/

/-- What is left of a text behind a `\r?\n` at its beginning. -/
def afterLineEnd : Text → Option Text
  | '\r' :: '\n' :: x => some x
  | '\n' :: x => some x
  | _ => none

/-- What is left of a text behind a `\r?\n\r?\n`. -/
def afterBlankLine (x : Text) : Option Text := (afterLineEnd x).bind afterLineEnd

theorem eq_of_afterLineEnd {x rest : Text} (h : afterLineEnd x = some rest) :
    x = '\r' :: '\n' :: rest ∨ x = '\n' :: rest := by
  unfold afterLineEnd at h
  split at h
  · exact .inl (by rw [Option.some.inj h])
  · exact .inr (by rw [Option.some.inj h])
  · exact nomatch h

theorem afterLineEnd_append {x rest : Text} (y : Text) (h : afterLineEnd x = some rest) :
    afterLineEnd (x ++ y) = some (rest ++ y) := by
  rcases eq_of_afterLineEnd h with rfl | rfl
  · rfl
  · rfl

theorem length_lt_of_afterLineEnd {x rest : Text} (h : afterLineEnd x = some rest) : rest.length < x.length := by
  rcases eq_of_afterLineEnd h with rfl | rfl
  · exact Nat.lt_succ_of_lt (Nat.lt_succ_self _)
  · exact Nat.lt_succ_self _

/-- Whether a text begins with a line end is open only if it is empty or is a carriage return. -/
theorem afterLineEnd_cases (x : Text) :
    (∃ rest, afterLineEnd x = some rest) ∨ (∀ y, afterLineEnd (x ++ y) = none) ∨ x = [] ∨ x = ['\r'] := by
  rcases x with - | ⟨c, x⟩
  · exact .inr (.inr (.inl rfl))
  rcases eq_or_ne c '\n' with rfl | hnewline
  · exact .inl ⟨x, rfl⟩
  rcases eq_or_ne c '\r' with rfl | hreturn
  · rcases x with - | ⟨d, x⟩
    · exact .inr (.inr (.inr rfl))
    rcases eq_or_ne d '\n' with rfl | hd
    · exact .inl ⟨x, rfl⟩
    · refine .inr (.inl fun y ↦ ?_)
      simp [afterLineEnd, hd]
  · refine .inr (.inl fun y ↦ ?_)
    simp [afterLineEnd, hnewline, hreturn]

/-- `/\r?\n/` -/
def lineEnd : Separator where
  after := afterLineEnd
  shorter := length_lt_of_afterLineEnd
  append := afterLineEnd_append
  prompt {c x} y hnone hcut := by
    rcases afterLineEnd_cases (c :: x) with ⟨rest, hrest⟩ | h | h | h
    · exact nomatch hnone.symm.trans hrest
    · exact h y
    · exact nomatch h
    · rw [(List.cons.inj h).2] at hcut
      exact nomatch hcut

/-- Behind a text that ends in the middle of a blank line there is no blank line. -/
theorem cutBy_of_afterLineEnd {c : Char} {x rest : Text} (h : afterLineEnd (c :: x) = some rest)
    (hrest : rest = [] ∨ rest = ['\r']) : cutBy afterBlankLine x = none := by
  rcases eq_of_afterLineEnd h with heq | heq <;> rcases hrest with rfl | rfl <;>
    (rw [(List.cons.inj heq).2]; rfl)

/-- `/\r?\n\r?\n/` -/
def blankLine : Separator where
  after := afterBlankLine
  shorter h := by
    obtain ⟨rest, hfirst, hsecond⟩ := Option.bind_eq_some_iff.1 h
    exact (length_lt_of_afterLineEnd hsecond).trans (length_lt_of_afterLineEnd hfirst)
  append y h := by
    obtain ⟨rest, hfirst, hsecond⟩ := Option.bind_eq_some_iff.1 h
    exact Option.bind_eq_some_iff.2 ⟨rest ++ y, afterLineEnd_append y hfirst, afterLineEnd_append y hsecond⟩
  prompt {c x} y hnone hcut := by
    rcases afterLineEnd_cases (c :: x) with ⟨rest, hfirst⟩ | h | h | h
    · rw [afterBlankLine, hfirst] at hnone
      rw [afterBlankLine, afterLineEnd_append y hfirst]
      rcases afterLineEnd_cases rest with ⟨rest', hsecond⟩ | h | hopen
      · exact nomatch hnone.symm.trans hsecond
      · exact h y
      · rw [cutBy_of_afterLineEnd hfirst hopen] at hcut
        exact nomatch hcut
    · rw [afterBlankLine, h y]
      rfl
    · exact nomatch h
    · rw [(List.cons.inj h).2] at hcut
      exact nomatch hcut

/-! ### Texts without line ends -/

/-- A text in which no line ends, for JavaScript's `\r?\n`. -/
def Unbroken (x : Text) : Prop := '\r' ∉ x ∧ '\n' ∉ x

theorem Unbroken.of_cons {c : Char} {x : Text} (h : Unbroken (c :: x)) :
    c ≠ '\r' ∧ c ≠ '\n' ∧ Unbroken x :=
  ⟨fun hc ↦ h.1 (hc ▸ List.mem_cons_self), fun hc ↦ h.2 (hc ▸ List.mem_cons_self),
    fun hx ↦ h.1 (List.mem_cons_of_mem c hx), fun hx ↦ h.2 (List.mem_cons_of_mem c hx)⟩

theorem afterLineEnd_of_ne {c : Char} (hreturn : c ≠ '\r') (hnewline : c ≠ '\n') (x : Text) :
    afterLineEnd (c :: x) = none := by
  simp [afterLineEnd, hreturn, hnewline]

/-- A pattern that begins with a line end is not found before one. -/
theorem cutBy_unbroken {after : Text → Option Text} (hafter : ∀ x, afterLineEnd x = none → after x = none)
    {l : Text} (hl : Unbroken l) (x : Text) :
    cutBy after (l ++ x) = (cutBy after x).map fun (before, rest) ↦ (l ++ before, rest) := by
  induction l with
  | nil =>
    rw [List.nil_append]
    cases cutBy after x with
    | none => rfl
    | some cut => rfl
  | cons c l ih =>
    obtain ⟨hreturn, hnewline, hl⟩ := hl.of_cons
    rw [List.cons_append, cutBy, hafter _ (afterLineEnd_of_ne hreturn hnewline _), ih hl, Option.map_map]
    exact rfl

theorem lineEnd_pieces_of_unbroken {l : Text} (hl : Unbroken l) : lineEnd.pieces l = [l] := by
  have hcut : cutBy afterLineEnd l = none := by
    have h := cutBy_unbroken (fun _ h ↦ h) hl []
    rwa [List.append_nil] at h
  rw [Separator.pieces, lineEnd.split_of_none hcut, List.nil_append]

/-- The first line of a text is what stands before its first newline. -/
theorem lineEnd_pieces_append {l : Text} (hl : Unbroken l) (x : Text) :
    lineEnd.pieces (l ++ '\n' :: x) = l :: lineEnd.pieces x := by
  have hcut : cutBy afterLineEnd (l ++ '\n' :: x) = some (l, x) := by
    rw [cutBy_unbroken (fun _ h ↦ h) hl]
    exact congrArg (fun y ↦ some (y, x)) (List.append_nil l)
  rw [Separator.pieces, lineEnd.split_of_some hcut]
  rfl

theorem afterBlankLine_of_none {x : Text} (h : afterLineEnd x = none) : afterBlankLine x = none := by
  rw [afterBlankLine, h]
  rfl

/-- Two newlines behind a line end a block. -/
theorem blankLine_cut {l : Text} (hl : Unbroken l) (x : Text) :
    cutBy afterBlankLine (l ++ '\n' :: '\n' :: x) = some (l, x) := by
  rw [cutBy_unbroken (fun _ ↦ afterBlankLine_of_none) hl]
  exact congrArg (fun y ↦ some (y, x)) (List.append_nil l)

/-- One newline does not, if the line behind it is not empty. -/
theorem blankLine_cut_cons {l m : Text} (hl : Unbroken l) (hm : Unbroken m) (hne : m ≠ []) (x : Text) :
    cutBy afterBlankLine (l ++ '\n' :: (m ++ '\n' :: '\n' :: x)) = some (l ++ '\n' :: m, x) := by
  obtain ⟨c, m, rfl⟩ := List.exists_cons_of_ne_nil hne
  obtain ⟨hreturn, hnewline, -⟩ := hm.of_cons
  have hfirst : afterBlankLine ('\n' :: (c :: m ++ '\n' :: '\n' :: x)) = none :=
    afterLineEnd_of_ne hreturn hnewline _
  rw [cutBy_unbroken (fun _ ↦ afterBlankLine_of_none) hl, cutBy, hfirst, blankLine_cut hm]
  rfl

end Py
