import GenericApp.Foundation.Python
import Mathlib.Data.Rat.Floor
import Mathlib.Tactic.Positivity

/-!
# Bounds that rounding keeps

`round(x, digits)` goes to a multiple of the last digit that is nearest, so it does not pass a multiple that `x` has
not passed.
-/

namespace Py

variable {digits : ℕ} {x : ℚ} {k : ℤ}

/-- A rounded value is the floor of the scaled one, or one more where it is not an integer. -/
theorem roundTo_eq (digits : ℕ) (x : ℚ) : ∃ n : ℤ, roundTo digits x = n / 10 ^ digits ∧
    ⌊x * 10 ^ digits⌋ ≤ n ∧ (n : ℚ) < x * 10 ^ digits + 1 := by
  have hlow : ((x * 10 ^ digits).floor : ℚ) ≤ x * 10 ^ digits := Int.floor_le (x * 10 ^ digits)
  rw [roundTo]
  split
  · exact ⟨_, rfl, le_refl _, hlow.trans_lt (lt_add_one _)⟩
  · next hup =>
    refine ⟨(x * 10 ^ digits).floor + 1, by push_cast; rfl, (lt_add_one _).le, ?_⟩
    push_cast
    refine add_lt_add_of_lt_of_le (lt_of_le_of_ne hlow fun heq ↦ hup (.inl ?_)) (le_refl 1)
    rw [heq, sub_self]
    exact one_half_pos

theorem le_roundTo (k : ℤ) (h : (k : ℚ) / 10 ^ digits ≤ x) : (k : ℚ) / 10 ^ digits ≤ roundTo digits x := by
  obtain ⟨n, hn, hle, -⟩ := roundTo_eq digits x
  have hpos : (0 : ℚ) < 10 ^ digits := by positivity
  have hk : k ≤ n := (Int.le_floor.2 ((div_le_iff₀ hpos).1 h)).trans hle
  rw [hn]
  exact div_le_div_of_nonneg_right (Int.cast_le.2 hk) hpos.le

theorem roundTo_le (k : ℤ) (h : x ≤ (k : ℚ) / 10 ^ digits) : roundTo digits x ≤ (k : ℚ) / 10 ^ digits := by
  obtain ⟨n, hn, -, hlt⟩ := roundTo_eq digits x
  have hpos : (0 : ℚ) < 10 ^ digits := by positivity
  have hk : (n : ℚ) < (k + 1 : ℤ) := by
    push_cast
    exact hlt.trans_le (add_le_add_left ((le_div_iff₀ hpos).1 h) 1)
  rw [hn]
  exact div_le_div_of_nonneg_right (Int.cast_le.2 (Int.lt_add_one_iff.1 (Int.cast_lt.1 hk))) hpos.le

/-- A part of one is rounded to a part of one. -/
theorem roundTo_mem_unit (h : 0 ≤ x ∧ x ≤ 1) : 0 ≤ roundTo digits x ∧ roundTo digits x ≤ 1 := by
  constructor
  · have hzero := @le_roundTo digits x 0 (by simpa using h.1)
    simpa using hzero
  · have hone := @roundTo_le digits x (10 ^ digits) (by simpa using h.2)
    simpa using hone

@[simp] theorem roundTo_one : roundTo digits 1 = 1 := by
  have hone : ((10 ^ digits : ℤ) : ℚ) / 10 ^ digits = 1 := by simp
  refine le_antisymm ?_ ?_
  · have h := roundTo_le (10 ^ digits) hone.ge
    rwa [hone] at h
  · have h := le_roundTo (10 ^ digits) hone.le
    rwa [hone] at h

end Py
