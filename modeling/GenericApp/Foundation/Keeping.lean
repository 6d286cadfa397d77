import GenericApp.Foundation.Python

/-!
# Loops that keep some of what they see

`keepBy admits` keeps the elements that `admits` accepts beside those that have been kept before. What
comes out satisfies, pair by pair, whatever is asked of a new element beside each kept one
(`pairwise_keepBy`), an element that is left out was refused beside the elements kept so far
(`mem_keepBy_or_refused`), and a bound on how many may be kept of a kind is kept
(`countP_keepBy_le`).
-/

section Keeping

variable {α : Type} {admits : List α → α → Bool} {xs ys : List α}

/-- The second part of a list is gone through with what has been kept of the first. -/
theorem Py.keepBy_append (kept : List α) : Py.keepBy admits kept (xs ++ ys) =
    Py.keepBy admits kept xs ++ Py.keepBy admits (kept ++ Py.keepBy admits kept xs) ys := by
  induction xs generalizing kept with
  | nil => rw [List.nil_append, Py.keepBy, List.nil_append, List.append_nil]
  | cons x xs ih =>
    rw [List.cons_append, Py.keepBy, Py.keepBy]
    split
    · rw [ih, List.cons_append, List.append_assoc, List.singleton_append]
    · exact ih kept

theorem Py.pairwise_append_keepBy {p : α → α → Bool} {kept : List α}
    (hkept : kept.Pairwise fun k x ↦ p k x = true) :
    (kept ++ Py.keepBy (fun kept x ↦ kept.all fun k ↦ p k x) kept xs).Pairwise
      fun k x ↦ p k x = true := by
  induction xs generalizing kept with
  | nil => rwa [Py.keepBy, List.append_nil]
  | cons x xs ih =>
    rw [Py.keepBy]
    split
    · next hx =>
      have hnext : (kept ++ [x]).Pairwise fun k x ↦ p k x = true := by
        refine List.pairwise_append.2 ⟨hkept, List.pairwise_singleton _ x, fun k hk y hy ↦ ?_⟩
        rw [List.mem_singleton.1 hy]
        exact List.all_eq_true.1 hx k hk
      have hrest := ih hnext
      rwa [List.append_assoc, List.singleton_append] at hrest
    · exact ih hkept

/-- **What is kept satisfies the condition pair by pair.** -/
theorem Py.pairwise_keepBy (p : α → α → Bool) (xs : List α) :
    (Py.keepBy (fun kept x ↦ kept.all fun k ↦ p k x) [] xs).Pairwise fun k x ↦ p k x = true :=
  Py.pairwise_append_keepBy List.Pairwise.nil

/-- **An element that is left out was refused** beside what had been kept of the elements before it,
which is kept for good. -/
theorem Py.mem_keepBy_or_refused (front : List α) (x : α) (back : List α) :
    x ∈ Py.keepBy admits [] (front ++ x :: back) ∨
      (admits (Py.keepBy admits [] front) x = false ∧
        Py.keepBy admits [] front ⊆ Py.keepBy admits [] (front ++ x :: back)) := by
  rw [Py.keepBy_append, List.nil_append, Py.keepBy]
  split
  · exact .inl (List.mem_append_right _ List.mem_cons_self)
  · next hx => exact .inr ⟨Bool.not_eq_true _ ▸ hx, List.subset_append_left _ _⟩

/-- **A bound for each kind is kept.** -/
theorem Py.countP_keepBy_le {κ : Type} [DecidableEq κ] (kind : α → κ) {limit : ℤ} {kept : List α}
    (hkept : ∀ d, ((kept.countP fun k ↦ kind k = d : ℕ) : ℤ) ≤ limit) (d : κ) :
    (((kept ++ Py.keepBy (fun kept x ↦
      decide (((kept.countP fun k ↦ kind k = kind x : ℕ) : ℤ) < limit)) kept xs).countP
        fun k ↦ kind k = d : ℕ) : ℤ) ≤ limit := by
  induction xs generalizing kept with
  | nil =>
    rw [Py.keepBy, List.append_nil]
    exact hkept d
  | cons x xs ih =>
    rw [Py.keepBy]
    split
    · next hx =>
      have hnext : ∀ d, (((kept ++ [x]).countP fun k ↦ kind k = d : ℕ) : ℤ) ≤ limit := by
        intro d
        have hold := hkept d
        rw [List.countP_append, List.countP_singleton]
        split
        · next hkind =>
          obtain rfl := of_decide_eq_true hkind
          have hroom := of_decide_eq_true hx
          omega
        · exact hold
      have hrest := ih hnext
      rwa [List.append_assoc, List.singleton_append] at hrest
    · exact ih hkept

/-- **What is kept once** is what there is and has not been seen. -/
theorem Py.mem_keepBy_unseen [BEq α] [LawfulBEq α] {seen : List α} {x : α} :
    x ∈ Py.keepBy (fun seen x ↦ !seen.contains x) seen xs ↔ x ∈ xs ∧ x ∉ seen := by
  induction xs generalizing seen with
  | nil => exact ⟨fun h ↦ absurd h List.not_mem_nil, fun h ↦ absurd h.1 List.not_mem_nil⟩
  | cons y xs ih =>
    rw [Py.keepBy]
    split
    · next hnew =>
      have hy : y ∉ seen := by simpa using hnew
      rw [List.mem_cons, ih, List.mem_cons, List.mem_append, List.mem_singleton, not_or]
      constructor
      · rintro (rfl | ⟨hx, hseen, -⟩)
        · exact ⟨.inl rfl, hy⟩
        · exact ⟨.inr hx, hseen⟩
      · rintro ⟨rfl | hx, hseen⟩
        · exact .inl rfl
        · exact (Classical.em (x = y)).imp_right fun hne ↦ ⟨hx, hseen, hne⟩
    · next hold =>
      have hy : y ∈ seen := by simpa using hold
      rw [ih, List.mem_cons]
      exact ⟨fun h ↦ ⟨.inr h.1, h.2⟩, fun h ↦ ⟨h.1.resolve_left fun heq ↦ h.2 (heq ▸ hy), h.2⟩⟩

theorem Py.nodup_keepBy_unseen [BEq α] [LawfulBEq α] {seen : List α} :
    (Py.keepBy (fun seen x ↦ !seen.contains x) seen xs).Nodup := by
  induction xs generalizing seen with
  | nil => exact List.nodup_nil
  | cons y xs ih =>
    rw [Py.keepBy]
    split
    · refine List.nodup_cons.2 ⟨fun h ↦ ?_, ih⟩
      exact (Py.mem_keepBy_unseen.1 h).2 (List.mem_append_right _ (List.mem_singleton_self y))
    · exact ih

/-- No element is left twice. -/
theorem nodup_eraseDups [BEq α] [LawfulBEq α] : ∀ l : List α, l.eraseDups.Nodup
  | [] => List.nodup_nil
  | a :: l => by
    rw [List.eraseDups_cons, List.nodup_cons, List.mem_eraseDups]
    refine ⟨fun h ↦ ?_, nodup_eraseDups _⟩
    have hne := (List.mem_filter.1 h).2
    rw [beq_self_eq_true] at hne
    exact absurd hne (by decide)
termination_by l => l.length
decreasing_by exact Nat.lt_succ_of_le (List.length_filter_le _ _)

end Keeping
