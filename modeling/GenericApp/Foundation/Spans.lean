import Mathlib.Data.List.Basic
import Mathlib.Data.List.Pairwise
import Mathlib.Data.Nat.Basic
import Mathlib.Order.Bounds.Defs

/-!
# Spans of a list

Two ways to cut a list into spans. Windows of one size are swept over it: some are left out, and the sweep is over
with the first that reaches the end (`sweep`). Pieces are looked up in it: each from where the piece before it ended,
at the first place where it occurs (`placements`).

* `pairwise_sweep`: every window but the last ends before the end of the list.
* `exists_mem_sweep`: what a window covers that is not left out is covered by a window of the sweep.
* `forall_placements_iff`: the first place is the best choice. All pieces are found if and only if they occur one
  after the other at all (`InTurn`).
-/

universe u

/-! ### Windows -/

section Sweep

variable (blank : ℕ → Prop) [DecidablePred blank] (size count : ℕ)

/-- The starts of the windows that stay. A window that is left out does not end the sweep. -/
def sweep : List ℕ → List ℕ
  | [] => []
  | start :: starts =>
    if blank start then sweep starts
    else start :: if count ≤ start + size then [] else sweep starts

variable {blank size count} {starts : List ℕ} {start : ℕ}

theorem sweep_of_blank (h : blank start) : sweep blank size count (start :: starts) = sweep blank size count starts :=
  if_pos h

theorem sweep_of_not_blank (h : ¬blank start) : sweep blank size count (start :: starts) =
    start :: if count ≤ start + size then [] else sweep blank size count starts := if_neg h

theorem sublist_sweep : (sweep blank size count starts).Sublist starts := by
  induction starts with
  | nil => exact List.Sublist.refl []
  | cons start starts ih =>
    by_cases hblank : blank start
    · rw [sweep_of_blank hblank]
      exact ih.cons _
    · rw [sweep_of_not_blank hblank]
      refine List.Sublist.cons_cons _ ?_
      split
      · exact List.nil_sublist _
      · exact ih

theorem not_blank_of_mem_sweep (h : start ∈ sweep blank size count starts) : ¬blank start := by
  induction starts with
  | nil => exact absurd h List.not_mem_nil
  | cons first starts ih =>
    by_cases hblank : blank first
    · rw [sweep_of_blank hblank] at h
      exact ih h
    · rw [sweep_of_not_blank hblank] at h
      rcases List.mem_cons.1 h with rfl | h
      · exact hblank
      · split at h
        · exact absurd h List.not_mem_nil
        · exact ih h

/-- The windows but the last end before the end. -/
theorem pairwise_sweep (h : starts.Pairwise (· < ·)) :
    (sweep blank size count starts).Pairwise fun a b ↦ a < b ∧ a + size < count := by
  induction starts with
  | nil => exact List.Pairwise.nil
  | cons start starts ih =>
    obtain ⟨hfirst, hrest⟩ := List.pairwise_cons.1 h
    by_cases hblank : blank start
    · rw [sweep_of_blank hblank]
      exact ih hrest
    · rw [sweep_of_not_blank hblank]
      split
      · exact List.pairwise_singleton _ _
      · next hend =>
        refine List.pairwise_cons.2 ⟨fun b hb ↦ ⟨hfirst b (sublist_sweep.subset hb), ?_⟩, ih hrest⟩
        exact not_le.1 hend

/-- Nothing is lost by stopping: the window that reaches the end covers all that comes. -/
theorem exists_mem_sweep (h : starts.Pairwise (· < ·)) (hmem : start ∈ starts) (hblank : ¬blank start) {t : ℕ}
    (ht : t < count) (hstart : start ≤ t) (hsize : t < start + size) :
    ∃ a ∈ sweep blank size count starts, a ≤ t ∧ t < a + size := by
  induction starts with
  | nil => exact absurd hmem List.not_mem_nil
  | cons first starts ih =>
    obtain ⟨hfirst, hrest⟩ := List.pairwise_cons.1 h
    by_cases hskipped : blank first
    · rw [sweep_of_blank hskipped]
      rcases List.mem_cons.1 hmem with rfl | hmem
      · exact absurd hskipped hblank
      · exact ih hrest hmem
    · rw [sweep_of_not_blank hskipped]
      rcases List.mem_cons.1 hmem with rfl | hmem
      · exact ⟨start, List.mem_cons_self, hstart, hsize⟩
      · have hlater := hfirst start hmem
        split
        · exact ⟨first, List.mem_cons_self, by omega, by omega⟩
        · obtain ⟨a, ha, hcover⟩ := ih hrest hmem
          exact ⟨a, List.mem_cons_of_mem _ ha, hcover⟩

end Sweep

/-! ### Pieces -/

section Placements

variable {α : Type u}

/-- The piece stands there. -/
def OccursAt (s piece : List α) (start : ℕ) : Prop :=
  start + piece.length ≤ s.length ∧ (s.drop start).take piece.length = piece

/-- The pieces occur one after the other, without overlapping. -/
def InTurn (s : List α) : ℕ → List (List α) → Prop
  | _, [] => True
  | first, piece :: pieces =>
    ∃ start, first ≤ start ∧ OccursAt s piece start ∧ InTurn s (start + piece.length) pieces

theorem InTurn.mono {s : List α} {first first' : ℕ} {pieces : List (List α)} (h : InTurn s first pieces)
    (hle : first' ≤ first) : InTurn s first' pieces := by
  cases pieces with
  | nil => trivial
  | cons piece pieces =>
    obtain ⟨start, hfirst, hrest⟩ := h
    exact ⟨start, Nat.le_trans hle hfirst, hrest⟩

/-- The search finds the first place from the given one on. -/
def FindsFirst (s : List α) (search : List α → ℕ → Option ℕ) (piece : List α) : Prop :=
  ∀ first, (∀ start, search piece first = some start → IsLeast {i | first ≤ i ∧ OccursAt s piece i} start) ∧
    (search piece first = none → ∀ i, first ≤ i → ¬OccursAt s piece i)

variable (search : List α → ℕ → Option ℕ)

/-- The pieces with their places. What is not found is put where the search began. -/
def placements : ℕ → List (List α) → List (List α × ℕ)
  | _, [] => []
  | first, piece :: pieces =>
    let start := (search piece first).getD first
    (piece, start) :: placements (start + piece.length) pieces

variable {search} {s : List α} {first : ℕ} {piece : List α} {pieces : List (List α)}

/-- Each piece at its first place: the ones after it have the most room. -/
theorem inTurn_cons_iff (hsearch : FindsFirst s search piece) :
    InTurn s first (piece :: pieces) ↔ OccursAt s piece ((search piece first).getD first) ∧
      InTurn s ((search piece first).getD first + piece.length) pieces := by
  obtain ⟨hsome, hnone⟩ := hsearch first
  rcases hfound : search piece first with - | found
  · constructor
    · rintro ⟨start, hfirst, hoccurs, -⟩
      exact absurd hoccurs (hnone hfound start hfirst)
    · rintro ⟨hoccurs, -⟩
      exact absurd hoccurs (hnone hfound first le_rfl)
  · obtain ⟨⟨hfirst, hoccurs⟩, hleast⟩ := hsome found hfound
    constructor
    · rintro ⟨start, hstart, hat, hrest⟩
      exact ⟨hoccurs, hrest.mono (Nat.add_le_add_right (hleast ⟨hstart, hat⟩) _)⟩
    · rintro ⟨-, hrest⟩
      exact ⟨found, hfirst, hoccurs, hrest⟩

/-- **The first place is the best choice.** -/
theorem forall_placements_iff (hsearch : ∀ piece ∈ pieces, FindsFirst s search piece) :
    (∀ place ∈ placements search first pieces, OccursAt s place.1 place.2) ↔ InTurn s first pieces := by
  induction pieces generalizing first with
  | nil => exact iff_of_true (fun _ h ↦ absurd h List.not_mem_nil) trivial
  | cons piece pieces ih =>
    obtain ⟨hpiece, hpieces⟩ := List.forall_mem_cons.1 hsearch
    rw [inTurn_cons_iff hpiece, placements, List.forall_mem_cons, ih hpieces]

end Placements
