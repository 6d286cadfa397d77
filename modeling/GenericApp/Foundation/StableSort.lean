import Mathlib.Data.List.Sort

/-!
# Stable sorting by a key

Sorting by a key leaves things of the same key in the order they had. So a sorted list is known from its
fibres, the things of each key in their order (`eq_of_fibres`), and sorting does not touch these
(`fibre_sortedBy`). Everything else follows by comparing fibres: two lists that have the same are sorted alike
(`sortedBy_congr`), and sorting commutes with taking part of a list (`filter_sortedBy`).
-/

universe u v w x

section StableSort

variable {ι : Type u} {κ : Type v} {κ' : Type x} [LinearOrder κ] {key : ι → κ} {l l' : List ι}

/-- Sort by the key, the least first. -/
def sortedBy (key : ι → κ) (l : List ι) : List ι := l.insertionSort fun a b ↦ key a ≤ key b

theorem pairwise_sortedBy : (sortedBy key l).Pairwise fun a b ↦ key a ≤ key b := by
  have : Std.Total fun a b : ι ↦ key a ≤ key b := ⟨fun a b ↦ le_total (key a) (key b)⟩
  have : IsTrans ι fun a b ↦ key a ≤ key b := ⟨fun _ _ _ ↦ le_trans⟩
  exact List.pairwise_insertionSort _ l

/-- Sorted by the key the other way, the greatest first. -/
theorem pairwise_insertionSort_desc (key : ι → κ) (l : List ι) :
    (l.insertionSort fun a b ↦ key b ≤ key a).Pairwise fun a b ↦ key b ≤ key a :=
  @pairwise_sortedBy _ _ _ (fun a ↦ OrderDual.toDual (key a)) l

theorem mem_iff_of_fibres (h : ∀ k, l.filter (fun a ↦ key a = k) = l'.filter fun a ↦ key a = k) (a : ι) :
    a ∈ l ↔ a ∈ l' := by
  have hfibre : (a ∈ l.filter fun b ↦ key b = key a) ↔ a ∈ l'.filter fun b ↦ key b = key a := by
    rw [h (key a)]
  simpa using hfibre

/-- **A sorted list is known from its fibres.** -/
theorem eq_of_fibres (hl : l.Pairwise fun a b ↦ key a ≤ key b) (hl' : l'.Pairwise fun a b ↦ key a ≤ key b)
    (h : ∀ k, l.filter (fun a ↦ key a = k) = l'.filter fun a ↦ key a = k) : l = l' := by
  have hmem := mem_iff_of_fibres h
  induction l generalizing l' with
  | nil =>
    refine (List.eq_nil_iff_forall_not_mem.2 fun a ha ↦ ?_).symm
    exact List.not_mem_nil ((hmem a).2 ha)
  | cons a l ih =>
    rcases l' with - | ⟨b, l'⟩
    · exact absurd ((hmem a).1 List.mem_cons_self) List.not_mem_nil
    have hl := List.pairwise_cons.1 hl
    have hl' := List.pairwise_cons.1 hl'
    have hkey : key a = key b := by
      refine le_antisymm ?_ ?_
      · rcases List.mem_cons.1 ((hmem b).2 List.mem_cons_self) with heq | hb
        · exact heq ▸ le_refl _
        · exact hl.1 b hb
      · rcases List.mem_cons.1 ((hmem a).1 List.mem_cons_self) with heq | ha
        · exact heq ▸ le_refl _
        · exact hl'.1 a ha
    have hcons : a :: l.filter (fun c ↦ key c = key a) = b :: l'.filter fun c ↦ key c = key a := by
      simpa [hkey.symm] using h (key a)
    obtain ⟨rfl, htail⟩ := List.cons.inj hcons
    have hrest : ∀ k, l.filter (fun c ↦ key c = k) = l'.filter fun c ↦ key c = k := fun k ↦ by
      by_cases hk : key a = k
      · exact hk ▸ htail
      · simpa [hk] using h k
    exact congrArg (a :: ·) (ih hl.2 hl'.2 hrest (mem_iff_of_fibres hrest))

/-- **Sorting does not touch the fibres.** -/
theorem fibre_sortedBy (k : κ) :
    (sortedBy key l).filter (fun a ↦ key a = k) = l.filter fun a ↦ key a = k := by
  have hfibre : (l.filter fun a ↦ key a = k).Pairwise fun a b ↦ key a ≤ key b :=
    List.pairwise_of_forall_mem_list fun a ha b hb ↦ by
      rw [of_decide_eq_true (List.mem_filter.1 ha).2, of_decide_eq_true (List.mem_filter.1 hb).2]
  have : Std.Total fun a b : ι ↦ key a ≤ key b := ⟨fun a b ↦ le_total (key a) (key b)⟩
  have : IsTrans ι fun a b ↦ key a ≤ key b := ⟨fun _ _ _ ↦ le_trans⟩
  have hsub : (l.filter fun a ↦ key a = k).Sublist (sortedBy key l) :=
    List.sublist_insertionSort hfibre List.filter_sublist
  have hkept : (l.filter fun a ↦ key a = k).Sublist ((sortedBy key l).filter fun a ↦ key a = k) := by
    have hfilter := hsub.filter fun a ↦ decide (key a = k)
    rwa [List.filter_filter, List.filter_congr fun _ _ ↦ Bool.and_self _] at hfilter
  have hperm := (List.perm_insertionSort (fun a b : ι ↦ key a ≤ key b) l).filter fun a ↦ decide (key a = k)
  exact (hkept.eq_of_length hperm.length_eq.symm).symm

theorem sortedBy_congr (h : ∀ k, l.filter (fun a ↦ key a = k) = l'.filter fun a ↦ key a = k) :
    sortedBy key l = sortedBy key l' :=
  eq_of_fibres pairwise_sortedBy pairwise_sortedBy fun k ↦ by rw [fibre_sortedBy, fibre_sortedBy, h k]

theorem filter_sortedBy (p : ι → Bool) : (sortedBy key l).filter p = sortedBy key (l.filter p) := by
  refine eq_of_fibres (pairwise_sortedBy.filter p) pairwise_sortedBy fun k ↦ ?_
  rw [fibre_sortedBy, List.filter_comm, fibre_sortedBy, List.filter_comm]

@[simp] theorem mem_sortedBy {a : ι} : a ∈ sortedBy key l ↔ a ∈ l := List.mem_insertionSort _

/-- **What is greater than all others** comes last, wherever it was. -/
theorem sortedBy_greatest {a : ι} {left right : List ι} (h : ∀ b ∈ left ++ right, key b < key a) :
    sortedBy key (left ++ a :: right) = sortedBy key (left ++ right) ++ [a] := by
  refine eq_of_fibres pairwise_sortedBy ?_ fun k ↦ ?_
  · refine List.pairwise_append.2 ⟨pairwise_sortedBy, List.pairwise_singleton _ _, fun b hb c hc ↦ ?_⟩
    rw [List.mem_singleton.1 hc]
    exact (h b (mem_sortedBy.1 hb)).le
  · rw [fibre_sortedBy, List.filter_append (sortedBy key (left ++ right)), fibre_sortedBy, List.filter_append,
      List.filter_cons, List.filter_append, List.filter_singleton]
    by_cases hk : key a = k
    · -- nothing else has the key of the greatest
      have hnone : ∀ part : List ι, (∀ b ∈ part, key b < key a) → part.filter (fun b ↦ key b = k) = [] :=
        fun part hpart ↦ List.filter_eq_nil_iff.2 fun b hb heq ↦
          (hpart b hb).ne ((of_decide_eq_true heq).trans hk.symm)
      rw [hnone left fun b hb ↦ h b (List.mem_append_left _ hb), hnone right fun b hb ↦ h b (List.mem_append_right _ hb)]
      simp [hk]
    · simp [hk]

/-! ### When there is one order only -/

/-- Where a list and its reverse are sorted alike, all keys are different. -/
theorem strict_of_sortedBy_reverse (hnodup : l.Nodup) (h : sortedBy key l = l') (hreverse : sortedBy key l.reverse = l') :
    l'.Pairwise fun a b ↦ key a < key b := by
  have hsorted : l'.Pairwise fun a b ↦ key a ≤ key b := h ▸ pairwise_sortedBy
  have hperm : l'.Perm l := h ▸ List.perm_insertionSort _ l
  have hdistinct : ∀ a ∈ l', ∀ b ∈ l', key a = key b → a = b := by
    intro a ha b hb hkey
    -- the things of a key are in their order and in the reverse order
    have hfibre : l.filter (fun d ↦ key d = key a) = (l.filter fun d ↦ key d = key a).reverse := by
      rw [← List.filter_reverse, ← fibre_sortedBy (l := l), ← fibre_sortedBy (l := l.reverse), h, hreverse]
    have hmem (d : ι) (hd : d ∈ l') (hkeyd : key d = key a) : d ∈ l.filter fun d ↦ key d = key a :=
      List.mem_filter.2 ⟨hperm.mem_iff.1 hd, decide_eq_true hkeyd⟩
    have hnodup := hnodup.filter fun d ↦ decide (key d = key a)
    generalize l.filter (fun d ↦ key d = key a) = fibre at hfibre hmem hnodup
    have ha := hmem a ha rfl
    have hb := hmem b hb hkey.symm
    rcases fibre with - | ⟨x, fibre⟩
    · exact absurd ha List.not_mem_nil
    rcases List.eq_nil_or_concat fibre with rfl | ⟨middle, y, rfl⟩
    · exact (List.mem_singleton.1 ha).trans (List.mem_singleton.1 hb).symm
    · rw [List.reverse_cons, List.concat_eq_append, List.reverse_append] at hfibre
      have hxy : x = y := (List.cons.inj hfibre).1
      rw [hxy, List.concat_eq_append] at hnodup
      exact absurd (List.mem_append_right middle (List.mem_singleton_self y)) (List.nodup_cons.1 hnodup).1
  have hnodup' : l'.Pairwise fun a b ↦ a ≠ b := hperm.nodup_iff.2 hnodup
  refine (hsorted.and hnodup').imp_of_mem fun {a b} ha hb hab ↦ ?_
  exact lt_of_le_of_ne hab.1 fun hkey ↦ hab.2 (hdistinct a ha b hb hkey)

/-- A list whose keys increase is the only order of its things. -/
theorem eq_of_strict (hl : l.Pairwise fun a b ↦ key a ≤ key b) (hl' : l'.Pairwise fun a b ↦ key a < key b)
    (hperm : l.Perm l') : l = l' := by
  have hnodup : (l'.map key).Nodup := List.pairwise_map.2 (hl'.imp fun hlt ↦ hlt.ne)
  exact hperm.eq_of_pairwise (fun a b ha hb hab hba ↦ List.inj_on_of_nodup_map hnodup (hperm.mem_iff.1 ha) hb
    (le_antisymm hab hba)) hl (hl'.imp fun hlt ↦ hlt.le)

/-- What is changed into things that another key orders in the same way. -/
theorem map_sortedBy {ρ : Type w} [LinearOrder κ'] {key' : ρ → κ'} {f : ι → ρ}
    (h : ∀ a ∈ l, ∀ b ∈ l, (key a ≤ key b ↔ key' (f a) ≤ key' (f b))) :
    (sortedBy key l).map f = sortedBy key' (l.map f) :=
  List.map_insertionSort _ _ f l h

/-- **What is changed without changing the order** is sorted as before. -/
theorem sortedBy_map {f : ι → ι} (h : ∀ a ∈ l, ∀ b ∈ l, (key a ≤ key b ↔ key (f a) ≤ key (f b))) :
    sortedBy key (l.map f) = (sortedBy key l).map f :=
  (map_sortedBy h).symm

/-- **Sorting again by another key** forgets the order by the first, but for things that the second does not
tell apart. `f` is a change that the second list does not show. -/
theorem sortedBy_sortedBy_map {ρ : Type w} [LinearOrder κ'] {key' : ρ → κ'} {f : ι → ι} {g : ι → ρ}
    (others : List ρ) (hf : ∀ a ∈ l, g (f a) = g a)
    (hties : ∀ a ∈ l, ∀ b ∈ l, key' (g a) = key' (g b) → (key a ≤ key b ↔ key (f a) ≤ key (f b))) :
    sortedBy key' (others ++ (sortedBy key (l.map f)).map g) =
      sortedBy key' (others ++ (sortedBy key l).map g) := by
  refine sortedBy_congr fun k ↦ ?_
  rw [List.filter_append, List.filter_append]
  refine congrArg (others.filter (fun b ↦ key' b = k) ++ ·) ?_
  rw [List.filter_map, List.filter_map, filter_sortedBy, filter_sortedBy, List.filter_map]
  have hfilter : l.filter (((fun b ↦ decide (key' b = k)) ∘ g) ∘ f) =
      l.filter ((fun b ↦ decide (key' b = k)) ∘ g) :=
    List.filter_congr fun a ha ↦ by rw [Function.comp_apply, Function.comp_apply, hf a ha, Function.comp_apply]
  rw [hfilter, sortedBy_map fun a ha b hb ↦ ?_, List.map_map]
  · exact List.map_congr_left fun a ha ↦ hf a (List.mem_filter.1 (mem_sortedBy.1 ha)).1
  · obtain ⟨ha, hka⟩ := List.mem_filter.1 ha
    obtain ⟨hb, hkb⟩ := List.mem_filter.1 hb
    exact hties a ha b hb ((of_decide_eq_true hka).trans (of_decide_eq_true hkb).symm)

end StableSort
