import Mathlib.Data.List.Sort

/-!
# Reading a table page by page

A listing is given in pages, each with a mark from which the next one is read. `Traversed` is a reader that
follows the marks from the first page to the page without one.

What a mark has to do is said by a relation between marks and the rows still to be read (`Standing`): the page
fetched there has the first of these rows, and its mark stands before the others. From such a relation follows
all there is to say about the reader (`Standing.traverses`): there is one traversal, it has the rows once and in
order, and every page but the last announces another.

A keyset mark is the key of the last row read. The rows below that key, in a list that descends strictly, are
those behind the row (`filter_lt_of_descending`), and a filter of a table commutes with sorting it
(`descending_filter`).
-/

namespace Keyset

variable {ρ C ε K : Type*}

/-! ### Pages -/

structure Page (ρ C : Type*) where
  rows : List ρ
  nextCursor : Option C
  hasMore : Bool
deriving DecidableEq

/-- The pages that a reader gets who asks for the page at a mark and goes on until there is no mark. -/
inductive Traversed (fetch : Option C → Except ε (Page ρ C)) : Option C → List (Page ρ C) → Prop
  | last {cursor : Option C} {page : Page ρ C} (hfetch : fetch cursor = .ok page)
      (hnext : page.nextCursor = none) : Traversed fetch cursor [page]
  | more {cursor : Option C} {page : Page ρ C} {next : C} {pages : List (Page ρ C)}
      (hfetch : fetch cursor = .ok page) (hnext : page.nextCursor = some next)
      (hrest : Traversed fetch (some next) pages) : Traversed fetch cursor (page :: pages)

theorem Traversed.unique {fetch : Option C → Except ε (Page ρ C)} {cursor : Option C}
    {pages others : List (Page ρ C)} (h : Traversed fetch cursor pages)
    (hothers : Traversed fetch cursor others) : others = pages := by
  induction h generalizing others with
  | last hfetch hnext =>
    cases hothers with
    | last hfetch' =>
      rw [Except.ok.inj (hfetch'.symm.trans hfetch)]
    | more hfetch' hnext' =>
      rw [Except.ok.inj (hfetch'.symm.trans hfetch), hnext] at hnext'
      exact nomatch hnext'
  | more hfetch hnext _ ih =>
    cases hothers with
    | last hfetch' hnext' =>
      rw [Except.ok.inj (hfetch'.symm.trans hfetch), hnext] at hnext'
      exact nomatch hnext'
    | more hfetch' hnext' hrest =>
      obtain rfl := Except.ok.inj (hfetch'.symm.trans hfetch)
      obtain rfl := Option.some.inj (hnext'.symm.trans hnext)
      rw [ih hrest]

/-- Following the marks from the first page on, a reader gets the rows `expected`, in pages of at most `limit` of
which all but the last announce another. -/
def TraversesExactly (fetch : Option C → Except ε (Page ρ C)) (limit : ℕ) (expected : List ρ) : Prop :=
  ∃ pages, (∀ others, Traversed fetch none others ↔ others = pages) ∧
    pages.flatMap Page.rows = expected ∧ (∀ page ∈ pages, page.rows.length ≤ limit) ∧
    ∃ front last, pages = front ++ [last] ∧ (∀ page ∈ front, page.hasMore = true) ∧ last.hasMore = false

/-- What a mark says about the rows still to be read. -/
structure Standing (fetch : Option C → Except ε (Page ρ C)) (limit : ℕ)
    (Before : Option C → List ρ → Prop) : Prop where
  last {cursor : Option C} {rest : List ρ} (hbefore : Before cursor rest) (hlength : rest.length ≤ limit) :
    fetch cursor = .ok ⟨rest, none, false⟩
  more {cursor : Option C} {rest : List ρ} (hbefore : Before cursor rest) (hlength : limit < rest.length) :
    ∃ next, fetch cursor = .ok ⟨rest.take limit, some next, true⟩ ∧ Before (some next) (rest.drop limit)

variable {fetch : Option C → Except ε (Page ρ C)} {limit : ℕ} {Before : Option C → List ρ → Prop}

/-- The induction is on the number of rows still to be read. -/
theorem Standing.exists_traversed (h : Standing fetch limit Before) (hlimit : 1 ≤ limit) (rest : List ρ)
    {cursor : Option C} (hbefore : Before cursor rest) :
    ∃ pages, Traversed fetch cursor pages ∧ pages.flatMap Page.rows = rest ∧
      (∀ page ∈ pages, page.rows.length ≤ limit) ∧
      ∃ front last, pages = front ++ [last] ∧ (∀ page ∈ front, page.hasMore = true) ∧
        last.hasMore = false := by
  rcases Nat.lt_or_ge limit rest.length with hlength | hlength
  · obtain ⟨next, hfetch, hnext⟩ := h.more hbefore hlength
    obtain ⟨pages, htraversed, hrows, hbound, front, last, rfl, hfront, hlast⟩ :=
      h.exists_traversed hlimit (rest.drop limit) hnext
    refine ⟨_ :: (front ++ [last]), .more hfetch rfl htraversed, ?_, ?_, _ :: front, last, rfl, ?_, hlast⟩
    · rw [List.flatMap_cons, hrows, List.take_append_drop]
    · exact List.forall_mem_cons.2 ⟨List.length_take_le limit rest, hbound⟩
    · exact List.forall_mem_cons.2 ⟨rfl, hfront⟩
  · refine ⟨_, .last (h.last hbefore hlength) rfl, List.append_nil _, ?_, [], _, rfl, ?_, rfl⟩
    · exact List.forall_mem_singleton.2 hlength
    · exact fun page hpage ↦ absurd hpage List.not_mem_nil
termination_by rest.length
decreasing_by
  rw [List.length_drop]
  omega

theorem Standing.traverses (h : Standing fetch limit Before) (hlimit : 1 ≤ limit) {rows : List ρ}
    (hstart : Before none rows) : TraversesExactly fetch limit rows := by
  obtain ⟨pages, htraversed, hrest⟩ := h.exists_traversed hlimit rows hstart
  exact ⟨pages, fun others ↦ ⟨htraversed.unique, fun heq ↦ heq ▸ htraversed⟩, hrest⟩

/-! ### Keys -/

section Key

variable [LinearOrder K] (key : ρ → K)

/-- The rows, the greatest key first. -/
def descending (rows : List ρ) : List ρ := rows.mergeSort fun a b ↦ decide (key b ≤ key a)

theorem descending_perm (rows : List ρ) : (descending key rows).Perm rows := List.mergeSort_perm rows _

theorem descending_pairwise_le (rows : List ρ) :
    (descending key rows).Pairwise fun a b ↦ key b ≤ key a := by
  have h := @List.pairwise_mergeSort _ (fun a b ↦ decide (key b ≤ key a))
    (fun a b c hab hbc ↦ decide_eq_true ((of_decide_eq_true hbc).trans (of_decide_eq_true hab)))
    (fun a b ↦ by simpa using le_total (key b) (key a)) rows
  exact h.imp of_decide_eq_true

theorem descending_pairwise {rows : List ρ} (hkeys : (rows.map key).Nodup) :
    (descending key rows).Pairwise fun a b ↦ key b < key a := by
  have hne : (descending key rows).Pairwise fun a b ↦ key a ≠ key b :=
    List.pairwise_map.1 (((descending_perm key rows).map key).nodup_iff.2 hkeys)
  exact ((descending_pairwise_le key rows).and hne).imp fun h ↦ lt_of_le_of_ne h.1 h.2.symm

theorem eq_descending_of_perm {rows sorted : List ρ} (hperm : sorted.Perm rows)
    (hsorted : sorted.Pairwise fun a b ↦ key b < key a) : sorted = descending key rows := by
  have hkeys : (rows.map key).Nodup :=
    (hperm.map key).nodup_iff.1 (List.pairwise_map.2 (hsorted.imp fun h ↦ h.ne'))
  refine List.Perm.eq_of_pairwise (fun a b _ _ hab hba ↦ absurd hab hba.not_gt) hsorted
    (descending_pairwise key hkeys) ?_
  exact hperm.trans (descending_perm key rows).symm

theorem descending_filter {rows : List ρ} (hkeys : (rows.map key).Nodup) (p : ρ → Bool) :
    descending key (rows.filter p) = (descending key rows).filter p := by
  refine (eq_descending_of_perm key ((descending_perm key rows).filter p) ?_).symm
  exact (descending_pairwise key hkeys).filter p

theorem filter_lt_of_descending {front rest : List ρ} {last : ρ}
    (h : (front ++ last :: rest).Pairwise fun a b ↦ key b < key a) :
    (front ++ last :: rest).filter (fun r ↦ decide (key r < key last)) = rest := by
  obtain ⟨-, htail, hcross⟩ := List.pairwise_append.1 h
  obtain ⟨hrest, -⟩ := List.pairwise_cons.1 htail
  have hfront : front.filter (fun r ↦ decide (key r < key last)) = [] :=
    List.filter_eq_nil_iff.2 fun r hr ↦
      mt of_decide_eq_true (hcross r hr last List.mem_cons_self).not_gt
  rw [List.filter_append, hfront, List.nil_append, List.filter_cons_of_neg (by simp)]
  exact List.filter_eq_self.2 fun r hr ↦ decide_eq_true (hrest r hr)

end Key

end Keyset
