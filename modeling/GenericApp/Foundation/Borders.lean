import Mathlib.Data.List.Basic
import Mathlib.Order.Bounds.Basic

/-!
# Borders

A border of a list is a prefix that is a suffix as well. `Border p i k` says that the first `i` of `p` have one of
length `k`, and `LongestBorder p i l` that the longest one that is not all of them has length `l`.

A border of a border is a border, and of two borders the shorter is one of the longer. So the borders of the first
`i + 1` are among the borders of the first `i`, each a step longer; these are found by going from a border to its own
longest one, which is what the failure function of Knuth, Morris and Pratt is for.
-/

universe u

variable {α : Type u} {p : List α} {i k l : ℕ}

/-- The first `k` of the first `i` are the last `k` of them. -/
def Border (p : List α) (i k : ℕ) : Prop := k ≤ i ∧ ∀ j < k, p[j]? = p[i - k + j]?

/-- The longest border that is shorter than `i`. -/
structure LongestBorder (p : List α) (i l : ℕ) : Prop where
  lt : l < i
  border : Border p i l
  longest : ∀ k < i, Border p i k → k ≤ l

theorem border_zero : Border p i 0 := ⟨Nat.zero_le i, fun _ h ↦ absurd h (Nat.not_lt_zero _)⟩

theorem border_succ_iff : Border p (i + 1) (k + 1) ↔ Border p i k ∧ p[k]? = p[i]? := by
  constructor
  · rintro ⟨hle, h⟩
    refine ⟨⟨by omega, fun j hj ↦ ?_⟩, ?_⟩
    · rw [h j (by omega), show i + 1 - (k + 1) + j = i - k + j by omega]
    · rw [h k (by omega), show i + 1 - (k + 1) + k = i by omega]
  · rintro ⟨⟨hle, h⟩, hlast⟩
    refine ⟨by omega, fun j hj ↦ ?_⟩
    rw [show i + 1 - (k + 1) + j = i - k + j by omega]
    rcases Nat.lt_succ_iff_lt_or_eq.1 hj with hj | rfl
    · exact h j hj
    · rw [hlast, show i - j + j = i by omega]

/-- A border of a border is a border. -/
theorem Border.trans (hl : Border p i l) (hk : Border p l k) : Border p i k := by
  obtain ⟨hli, hl⟩ := hl
  obtain ⟨hkl, hk⟩ := hk
  refine ⟨by omega, fun j hj ↦ ?_⟩
  rw [hk j hj, hl (l - k + j) (by omega), show i - l + (l - k + j) = i - k + j by omega]

/-- Of two borders, the shorter is one of the longer. -/
theorem Border.of_le (hl : Border p i l) (hk : Border p i k) (hkl : k ≤ l) : Border p l k := by
  obtain ⟨hli, hl⟩ := hl
  obtain ⟨hki, hk⟩ := hk
  refine ⟨hkl, fun j hj ↦ ?_⟩
  rw [hk j hj, hl (l - k + j) (by omega), show i - l + (l - k + j) = i - k + j by omega]

theorem longestBorder_one : LongestBorder p 1 0 :=
  ⟨Nat.one_pos, border_zero, fun _ hk _ ↦ Nat.le_of_lt_succ hk⟩

/-- A border that can be lengthened, and that no longer one can, gives the longest one. -/
theorem LongestBorder.succ (hl : Border p i l) (hli : l < i) (hnext : p[l]? = p[i]?)
    (hmax : ∀ k < i, Border p (i + 1) (k + 1) → k ≤ l) : LongestBorder p (i + 1) (l + 1) where
  lt := by omega
  border := border_succ_iff.2 ⟨hl, hnext⟩
  longest k hk h := by
    cases k with
    | zero => exact Nat.zero_le _
    | succ k => exact Nat.succ_le_succ (hmax k (by omega) h)

/-- Where no border can be lengthened, there is none. -/
theorem LongestBorder.none (hmax : ∀ k < i, ¬Border p (i + 1) (k + 1)) : LongestBorder p (i + 1) 0 where
  lt := Nat.succ_pos i
  border := border_zero
  longest k hk h := by
    cases k with
    | zero => exact Nat.le_refl 0
    | succ k => exact absurd h (hmax k (by omega))

/-- What can be lengthened, but not the border `l`, is at most the longest border of that. -/
theorem le_of_mismatch {m : ℕ} (hl : Border p i l) (hmismatch : p[i]? ≠ p[l]?)
    (hmax : ∀ k < i, Border p (i + 1) (k + 1) → k ≤ l) (hm : LongestBorder p l m) :
    ∀ k < i, Border p (i + 1) (k + 1) → k ≤ m := by
  intro k hk h
  obtain ⟨hborder, hlast⟩ := border_succ_iff.1 h
  have hkl : k ≠ l := by
    rintro rfl
    exact hmismatch hlast.symm
  have hle := hmax k hk h
  exact hm.longest k (by omega) (hl.of_le hborder hle)

/-! ### Two lists with a separator between them -/

section Separated

variable {a r : List α} {s : α}

/-- A border does not cross a separator that the first list does not have. -/
theorem Border.le_of_separated (hsep : s ∉ a) (hlen : a.length = r.length) (hk : k < a.length + r.length + 1)
    (h : Border (a ++ s :: r) (a.length + r.length + 1) k) : k ≤ a.length := by
  by_contra hgt
  have heq := h.2 (k - a.length - 1) (by omega)
  rw [show a.length + r.length + 1 - k + (k - a.length - 1) = a.length by omega,
    List.getElem?_append_left (by omega), List.getElem?_append_right (Nat.le_refl _), Nat.sub_self,
    List.getElem?_cons_zero] at heq
  exact hsep (List.mem_of_getElem? heq)

theorem border_separated_iff (hlen : a.length = r.length) (hk : k ≤ a.length) :
    Border (a ++ s :: r) (a.length + r.length + 1) k ↔ r.drop (r.length - k) = a.take k := by
  have hleft : ∀ j < k, (a ++ s :: r)[j]? = a[j]? := fun j hj ↦ List.getElem?_append_left (by omega)
  have hright : ∀ j < k, (a ++ s :: r)[a.length + r.length + 1 - k + j]? = (r.drop (r.length - k))[j]? := by
    intro j hj
    rw [List.getElem?_append_right (by omega), List.getElem?_drop,
      show a.length + r.length + 1 - k + j - a.length = r.length - k + j + 1 by omega, List.getElem?_cons_succ]
  constructor
  · rintro ⟨-, h⟩
    refine List.ext_getElem? fun j ↦ ?_
    by_cases hj : j < k
    · rw [← hright j hj, ← h j hj, hleft j hj, List.getElem?_take_of_lt hj]
    · rw [List.getElem?_eq_none (by rw [List.length_drop]; omega),
        List.getElem?_eq_none (by rw [List.length_take]; omega)]
  · intro h
    refine ⟨by omega, fun j hj ↦ ?_⟩
    rw [hleft j hj, hright j hj, h, List.getElem?_take_of_lt hj]

end Separated
