import Mathlib.Algebra.Order.Group.Nat
import Mathlib.Order.Nat

/-!
# Loops that try again

A loop that tries a number of times, until an attempt ends it. If an attempt goes on or ends as it says beforehand, the
loop ends with the first attempt that does not go on (`retry_ends`), as long as the last one never does.
-/

namespace Py

universe u v

variable {σ : Type u} {ε : Type v} (attempt : ℕ → σ → σ × Option ε)

/-- Tries so many times, from the attempt of that number on, until one ends. -/
def retry : ℕ → ℕ → σ → σ × Option ε
  | 0, _, s => (s, none)
  | left + 1, n, s =>
    match attempt n s with
    | (s, some ending) => (s, some ending)
    | (s, none) => retry left (n + 1) s

variable {attempt} {goesOn : ℕ → Prop} {states final : ℕ → σ} {Ends : ℕ → ε → Prop} {last : ℕ}

theorem retry_of_ends {left n : ℕ} {s t : σ} {ending : ε} (h : attempt n s = (t, some ending)) :
    retry attempt (left + 1) n s = (t, some ending) := by
  rw [retry, h]

theorem retry_of_goesOn {left n : ℕ} {s t : σ} (h : attempt n s = (t, none)) :
    retry attempt (left + 1) n s = retry attempt left (n + 1) t := by
  rw [retry, h]

/-- The attempts that go on lead to the one that does not. -/
theorem retry_skip {n : ℕ} (hgoes : ∀ m < n, goesOn m) (hstep : ∀ m, goesOn m → attempt m (states m) = (states (m + 1), none))
    (left : ℕ) : retry attempt (n + left) 0 (states 0) = retry attempt left n (states n) := by
  induction n generalizing left with
  | zero => rw [Nat.zero_add]
  | succ n ih =>
    rw [Nat.add_right_comm, Nat.add_assoc, ih fun m hm ↦ hgoes m (Nat.lt_succ_of_lt hm)]
    exact retry_of_goesOn (hstep n (hgoes n (Nat.lt_succ_self n)))

/-- **The loop ends with the first attempt that does not go on.** -/
theorem retry_ends (hstep : ∀ n, goesOn n → attempt n (states n) = (states (n + 1), none))
    (hend : ∀ n, ¬goesOn n → ∃ ending, attempt n (states n) = (final n, some ending) ∧ Ends n ending)
    (hlast : ¬goesOn last) :
    ∃ n ≤ last, (∀ m < n, goesOn m) ∧ ¬goesOn n ∧
      ∃ ending, retry attempt (last + 1) 0 (states 0) = (final n, some ending) ∧ Ends n ending := by
  classical
  have hexists : ∃ n, ¬goesOn n := ⟨last, hlast⟩
  have hfirst : ∀ m < Nat.find hexists, goesOn m := fun m hm ↦ not_not.1 (Nat.find_min hexists hm)
  have hle : Nat.find hexists ≤ last := Nat.find_min' hexists hlast
  obtain ⟨ending, hattempt, hends⟩ := hend _ (Nat.find_spec hexists)
  obtain ⟨left, hleft⟩ := Nat.exists_eq_add_of_le hle
  refine ⟨_, hle, hfirst, Nat.find_spec hexists, ending, ?_, hends⟩
  rw [hleft, Nat.add_assoc, retry_skip hfirst hstep]
  exact retry_of_ends hattempt

end Py
