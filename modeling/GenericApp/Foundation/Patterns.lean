import GenericApp.Foundation.Text

/-!
# Substitution by patterns

Patterns that are made of characters one after the other, single ones or runs, and `pattern.sub`. The runs are matched
as long as the rest can still be matched behind them, as `re` does, which goes back to a shorter run otherwise.

A text that a pattern matches nowhere is left as it is (`substitute_eq_self`), and what a pattern matches begins as the
pattern does (`starts_of_matchPieces`).
-/

namespace Py

/-- A piece of a pattern: one character of a class, or a run of such characters. -/
inductive PatternPiece
  | one (accepts : Char → Bool)
  | run (accepts : Char → Bool)

/-- What stands for itself in a pattern. -/
def literal (x : Text) : List PatternPiece := x.map fun c ↦ .one fun d ↦ d = c

/-- Matches the pieces at the start of a text: what each of them takes, and the rest. A run is tried from the longest
one down. -/
def matchPieces : List PatternPiece → Text → Option (List Text × Text)
  | [], x => some ([], x)
  | .one _ :: _, [] => none
  | .one accepts :: pieces, c :: x =>
    if accepts c then (matchPieces pieces x).map fun (found, rest) ↦ ([c] :: found, rest) else none
  | .run accepts :: pieces, x =>
    (List.range ((x.takeWhile accepts).length + 1)).reverse.findSome? fun n ↦
      (matchPieces pieces (x.drop n)).map fun (found, rest) ↦ (x.take n :: found, rest)

/-- `pattern.sub(replace, text)` behind so many characters that the last match took. What is put in is not looked at
again. The pattern takes at least one character wherever it matches. -/
def substitute (pieces : List PatternPiece) (replace : List Text → Text) : ℕ → Text → Text
  | _, [] => []
  | skip + 1, _ :: x => substitute pieces replace skip x
  | 0, c :: x =>
    match matchPieces pieces (c :: x) with
    | some (found, rest) => replace found ++ substitute pieces replace (x.length - rest.length) x
    | none => c :: substitute pieces replace 0 x

variable {pieces : List PatternPiece} {replace : List Text → Text} {x y rest : Text} {found : List Text}

/-- A match of a literal and more begins with the literal. -/
theorem starts_of_matchPieces (h : matchPieces (literal y ++ pieces) x = some (found, rest)) : y <+: x := by
  induction y generalizing x found with
  | nil => exact List.nil_prefix
  | cons c y ih =>
    cases x with
    | nil => exact nomatch h
    | cons d x =>
      rw [literal, List.map_cons, List.cons_append, matchPieces] at h
      split at h
      · next hd =>
        obtain ⟨⟨found', rest'⟩, hmatch, heq⟩ := Option.map_eq_some_iff.1 h
        obtain ⟨-, rfl⟩ := Prod.mk.inj heq
        rw [of_decide_eq_true hd]
        exact List.cons_prefix_cons.2 ⟨rfl, ih hmatch⟩
      · exact nomatch h

/-- **A text in which the start of the pattern is not found** is left as it is. -/
theorem substitute_eq_self (h : ¬y <:+: x) : substitute (literal y ++ pieces) replace 0 x = x := by
  induction x with
  | nil => rfl
  | cons c x ih =>
    rw [List.infix_cons_iff, not_or] at h
    rw [substitute]
    split
    · next hmatch => exact absurd (starts_of_matchPieces hmatch) h.1
    · rw [ih h.2]

end Py
