import Mathlib.Algebra.BigOperators.Group.Finset.Piecewise
import Mathlib.Algebra.Order.BigOperators.Group.Finset
import Mathlib.Tactic.Linarith

/-!
# Discounted sums

The sum of a row of gains, each weighted with the discount of its place. Discounts are positive and fall from place
to place.

* `discounted_le_of_prefix_sums`: a row is worth as much as another if this holds of their sums up to any place.
* `discounted_le_of_bestFirst`: no order is worth more than the best first. This is a rearrangement inequality in
  which the two orders need not be of the same things.
* `discounted_swap_le`: it never costs to exchange two neighbours so that the better one comes first.
-/

universe u v

/-! ### Rows of gains -/

section Discounted

variable {K : Type u} [CommRing K] [LinearOrder K] [IsStrictOrderedRing K]

/-- Weights that are positive and fall. -/
structure Discount (K : Type u) [CommRing K] [LinearOrder K] where
  weight : ℕ → K
  pos : ∀ i, 0 < weight i
  anti : ∀ i, weight (i + 1) < weight i

/-- The weights from the next place on. -/
def Discount.tail (d : Discount K) : Discount K where
  weight i := d.weight (i + 1)
  pos i := d.pos (i + 1)
  anti i := d.anti (i + 1)

/-- The gains, each with the weight of its place. -/
def discounted (d : Discount K) : List K → K
  | [] => 0
  | gain :: gains => gain * d.weight 0 + discounted d.tail gains

variable (d : Discount K) {xs ys : List K}

theorem discounted_nonneg (h : ∀ x ∈ xs, 0 ≤ x) : 0 ≤ discounted d xs := by
  induction xs generalizing d with
  | nil => exact le_refl 0
  | cons x xs ih =>
    obtain ⟨hx, hxs⟩ := List.forall_mem_cons.1 h
    exact add_nonneg (mul_nonneg hx (d.pos 0).le) (ih d.tail hxs)

omit [IsStrictOrderedRing K] in
theorem discounted_head (xs : List K) : discounted d xs = xs.headD 0 * d.weight 0 + discounted d.tail xs.tail := by
  cases xs with
  | nil => simp [discounted]
  | cons x xs => rfl

omit [LinearOrder K] [IsStrictOrderedRing K] in
theorem sum_take_head (xs : List K) (n : ℕ) : (xs.take (n + 1)).sum = xs.headD 0 + (xs.tail.take n).sum := by
  cases xs with
  | nil => simp
  | cons x xs => simp

/-- What is ahead at a place is worth at least the weight of the place. -/
theorem discounted_le_add {n : ℕ} {ahead : K} (hahead : 0 ≤ ahead) (hxs : xs.length ≤ n) (hys : ys.length ≤ n)
    (h : ∀ m, (ys.take m).sum ≤ ahead + (xs.take m).sum) :
    discounted d ys ≤ ahead * d.weight 0 + discounted d xs := by
  induction n generalizing d xs ys ahead with
  | zero =>
    obtain rfl := List.eq_nil_of_length_eq_zero (Nat.le_zero.1 hxs)
    obtain rfl := List.eq_nil_of_length_eq_zero (Nat.le_zero.1 hys)
    exact le_add_of_nonneg_left (mul_nonneg hahead (d.pos 0).le)
  | succ n ih =>
    have hstep : ∀ m, ys.headD 0 + (ys.tail.take m).sum ≤ ahead + (xs.headD 0 + (xs.tail.take m).sum) := fun m ↦ by
      rw [← sum_take_head, ← sum_take_head]
      exact h (m + 1)
    have hnext : 0 ≤ ahead + xs.headD 0 - ys.headD 0 := by
      have hone := hstep 0
      rw [List.take_zero, List.take_zero, List.sum_nil, add_zero, add_zero] at hone
      exact sub_nonneg.2 hone
    have hrest : discounted d.tail ys.tail ≤
        (ahead + xs.headD 0 - ys.headD 0) * d.weight 1 + discounted d.tail xs.tail := by
      refine ih d.tail hnext ?_ ?_ fun m ↦ ?_
      · rw [List.length_tail]
        exact Nat.sub_le_of_le_add hxs
      · rw [List.length_tail]
        exact Nat.sub_le_of_le_add hys
      · linarith [hstep m]
    have hfall := mul_le_mul_of_nonneg_left (d.anti 0).le hnext
    rw [discounted_head d ys, discounted_head d xs]
    linarith

/-- **Sums up to each place decide.** -/
theorem discounted_le_of_prefix_sums (h : ∀ m, (ys.take m).sum ≤ (xs.take m).sum) :
    discounted d ys ≤ discounted d xs := by
  have hadd := discounted_le_add d (le_refl 0) (le_max_left xs.length ys.length) (le_max_right xs.length ys.length)
    fun m ↦ (h m).trans (le_of_eq (zero_add _).symm)
  rwa [zero_mul, zero_add] at hadd

end Discounted

/-! ### Orders of things -/

section Orders

variable {K : Type u} [CommRing K] [LinearOrder K] [IsStrictOrderedRing K] {ι : Type v} (gain : ι → K)

/-- The gains of the first things. -/
def gainsOf (n : ℕ) (l : List ι) : List K := (l.take n).map gain

/-- The best things come first, `n` of them if there are as many that gain anything. -/
structure BestFirst (n : ℕ) (best : List ι) : Prop where
  ordered : best.Pairwise fun a b ↦ gain b ≤ gain a
  outside : ∀ a ∉ best, (∀ b ∈ best, gain a ≤ gain b) ∧ (best.length < n → gain a ≤ 0)

variable {gain}

/-- What is at or above a threshold gains as much as anything of the size that it leaves out. -/
theorem sum_le_sum_of_threshold [DecidableEq ι] {s t : Finset ι} {c : K} (hc : 0 ≤ c) (hs : ∀ a ∈ s, c ≤ gain a)
    (ht : ∀ a ∉ s, gain a ≤ c) (hcard : c = 0 ∨ t.card ≤ s.card) : ∑ a ∈ t, gain a ≤ ∑ a ∈ s, gain a := by
  have hleft : ∑ a ∈ t \ s, gain a ≤ (t \ s).card • c :=
    Finset.sum_le_card_nsmul _ _ _ fun a ha ↦ ht a (Finset.mem_sdiff.1 ha).2
  have hright : (s \ t).card • c ≤ ∑ a ∈ s \ t, gain a :=
    Finset.card_nsmul_le_sum _ _ _ fun a ha ↦ hs a (Finset.mem_sdiff.1 ha).1
  have hmiddle : (t \ s).card • c ≤ (s \ t).card • c := by
    rcases hcard with rfl | hcard
    · rw [nsmul_zero, nsmul_zero]
    · refine nsmul_le_nsmul_left hc ?_
      have hone := Finset.card_sdiff_add_card_inter t s
      have htwo := Finset.card_sdiff_add_card_inter s t
      rw [Finset.inter_comm] at htwo
      omega
  rw [← Finset.sum_inter_add_sum_sdiff t s, ← Finset.sum_inter_add_sum_sdiff s t, Finset.inter_comm s t]
  exact add_le_add_right (hleft.trans (hmiddle.trans hright)) _

omit [LinearOrder K] [IsStrictOrderedRing K] in
theorem sum_take_eq [DecidableEq ι] {l : List ι} (h : l.Nodup) (n : ℕ) :
    ((l.take n).map gain).sum = ∑ a ∈ (l.take n).toFinset, gain a :=
  (List.sum_toFinset gain (h.sublist (List.take_sublist n l))).symm

/-- The first things of the best order gain the most. -/
theorem sum_take_le_of_bestFirst {n m : ℕ} {best l : List ι} (hbest : BestFirst gain n best)
    (hnodup : best.Nodup) (hl : l.Nodup) (hgain : ∀ a, 0 ≤ gain a) (hm : m ≤ n) :
    ((l.take m).map gain).sum ≤ ((best.take m).map gain).sum := by
  classical
  rw [sum_take_eq hl, sum_take_eq hnodup]
  rcases Nat.lt_or_ge best.length m with hshort | hlong
  · -- all that gains anything is in the best order
    have hall : best.take m = best := List.take_of_length_le hshort.le
    refine sum_le_sum_of_threshold (le_refl 0) (fun a _ ↦ hgain a) (fun a ha ↦ ?_) (.inl rfl)
    rw [hall, List.mem_toFinset] at ha
    exact (hbest.outside a ha).2 (by omega)
  rcases m.eq_zero_or_pos with rfl | hpos
  · simp
  · -- the last of the first things is the threshold
    have hlast : m - 1 < best.length := by omega
    have hcut : best = best.take m ++ best.drop m := (List.take_append_drop m best).symm
    have hordered := hbest.ordered
    rw [hcut] at hordered
    obtain ⟨-, -, hacross⟩ := List.pairwise_append.1 hordered
    have hmem : best[m - 1] ∈ best.take m := List.mem_take_iff_getElem.2 ⟨m - 1, by omega, rfl⟩
    refine sum_le_sum_of_threshold (hgain best[m - 1]) (fun a ha ↦ ?_) (fun a ha ↦ ?_) (.inr ?_)
    · obtain ⟨i, hi, rfl⟩ := List.mem_take_iff_getElem.1 (List.mem_toFinset.1 ha)
      rcases Nat.lt_or_ge i (m - 1) with hlt | hge
      · exact List.pairwise_iff_getElem.1 hbest.ordered i (m - 1) (by omega) hlast hlt
      · obtain rfl : i = m - 1 := by omega
        exact le_refl _
    · by_cases hin : a ∈ best
      · rw [hcut, List.mem_append] at hin
        exact hacross _ hmem a (hin.resolve_left fun h ↦ ha (List.mem_toFinset.2 h))
      · exact (hbest.outside a hin).1 _ (List.getElem_mem hlast)
    · rw [List.toFinset_card_of_nodup (hnodup.sublist (List.take_sublist m best)), List.length_take]
      refine (List.toFinset_card_le _).trans ?_
      rw [List.length_take]
      omega

variable (d : Discount K)

omit [CommRing K] [LinearOrder K] [IsStrictOrderedRing K] in
/-- Places beyond the last that counts add nothing. -/
theorem take_gainsOf (n m : ℕ) (l : List ι) : (gainsOf gain n l).take m = (l.take (min m n)).map gain := by
  rw [gainsOf, ← List.map_take, List.take_take]

/-- **No order is worth more than the best first.** -/
theorem discounted_le_of_bestFirst {n : ℕ} {best l : List ι} (hbest : BestFirst gain n best) (hnodup : best.Nodup)
    (hl : l.Nodup) (hgain : ∀ a, 0 ≤ gain a) : discounted d (gainsOf gain n l) ≤ discounted d (gainsOf gain n best) := by
  refine discounted_le_of_prefix_sums d fun m ↦ ?_
  rw [take_gainsOf, take_gainsOf]
  exact sum_take_le_of_bestFirst hbest hnodup hl hgain (min_le_right m n)

/-- **It never costs to let the better of two neighbours come first.** -/
theorem discounted_swap_le (n : ℕ) {a b : ι} (hab : gain a ≤ gain b) (before after : List ι) :
    discounted d (gainsOf gain n (before ++ a :: b :: after)) ≤
      discounted d (gainsOf gain n (before ++ b :: a :: after)) := by
  refine discounted_le_of_prefix_sums d fun m ↦ ?_
  rw [take_gainsOf, take_gainsOf]
  generalize min m n = place
  rw [List.take_append, List.take_append, List.map_append, List.map_append, List.sum_append, List.sum_append]
  refine add_le_add_right ?_ _
  rcases place - before.length with - | - | rest
  · simp
  · simpa using hab
  · simp only [List.take_succ_cons, List.map_cons, List.sum_cons]
    linarith

end Orders
