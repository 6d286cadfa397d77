import Mathlib.Data.List.Perm.Basic
import GenericApp.Foundation.StableSort

/-!
# Pages of an order that is not fixed

A listing is asked for page by page, and each time its things come in an order of their own: sorted by a key, but
those of one key in any order. A thing may then stand at any place from the number of things before its key on, and
before the number of those up to it (`position_bounds`, `exists_ordering_at`). So the pages have each thing once,
whatever the orders are, if and only if no page ends within the places of one key (`pages_perm_iff`).
-/

universe u v

namespace Paging

variable {ι : Type u} {κ : Type v} [LinearOrder κ] {key : ι → κ} {things S T : List ι} {x y : ι} {p L N : ℕ}

/-- The things in one of the orders that the key leaves open. -/
structure Ordering (key : ι → κ) (things S : List ι) : Prop where
  perm : S.Perm things
  sorted : S.Pairwise fun a b ↦ key a ≤ key b

/-- How many things come before the key of this one. -/
def before (key : ι → κ) (things : List ι) (x : ι) : ℕ := things.countP fun y ↦ key y < key x

/-- How many things come before it or have its key. -/
def upTo (key : ι → κ) (things : List ι) (x : ι) : ℕ := things.countP fun y ↦ key y ≤ key x

theorem upTo_le_length : upTo key things x ≤ things.length := List.countP_le_length

theorem split_at (hp : S[p]? = some x) : ∃ front back, S = front ++ x :: back ∧ front.length = p := by
  obtain ⟨hlt, rfl⟩ := List.getElem?_eq_some_iff.1 hp
  exact ⟨S.take p, S.drop (p + 1), by rw [← List.drop_eq_getElem_cons hlt, List.take_append_drop],
    List.length_take_of_le (Nat.le_of_lt hlt)⟩

/-- **Where a thing may stand.** -/
theorem position_bounds (hS : Ordering key things S) (hp : S[p]? = some x) :
    before key things x ≤ p ∧ p < upTo key things x := by
  obtain ⟨front, back, rfl, rfl⟩ := split_at hp
  obtain ⟨-, hback, hfront⟩ := List.pairwise_append.1 hS.sorted
  rw [before, upTo, ← hS.perm.countP_eq, ← hS.perm.countP_eq, List.countP_append, List.countP_append,
    List.countP_cons_of_neg (by simp), List.countP_cons_of_pos (by simp)]
  constructor
  · have hnone : back.countP (fun y ↦ key y < key x) = 0 := List.countP_eq_zero.2 fun y hy hlt ↦
      not_lt.2 ((List.pairwise_cons.1 hback).1 y hy) (of_decide_eq_true hlt)
    rw [hnone, Nat.add_zero]
    exact List.countP_le_length
  · have hall : front.countP (fun y ↦ key y ≤ key x) = front.length := List.countP_eq_length.2 fun y hy ↦
      decide_eq_true (hfront y hy x List.mem_cons_self)
    omega

/-- **It may stand anywhere there.** The things before its key, the others of its key cut in two, and the rest. -/
theorem exists_ordering_at (hx : x ∈ things) (hfrom : before key things x ≤ p) (hto : p < upTo key things x) :
    ∃ S, Ordering key things S ∧ S[p]? = some x := by
  set earlier := things.filter fun y ↦ key y < key x with hearlier
  set others := things.filter fun y ↦ !decide (key y < key x) with hothers
  set later := others.filter fun y ↦ !decide (key y = key x) with hlater
  obtain ⟨left, right, hties⟩ := List.append_of_mem (show x ∈ others.filter fun y ↦ key y = key x by simp [hothers, hx])
  have hsplit : (earlier ++ ((left ++ x :: right) ++ later)).Perm things := by
    rw [← hties]
    exact ((List.filter_append_perm _ others).append_left earlier).trans (List.filter_append_perm _ things)
  have htie : ∀ y ∈ left ++ x :: right, key y = key x := fun y hy ↦ by
    rw [← hties] at hy
    exact of_decide_eq_true (List.mem_filter.1 hy).2
  have hearly : ∀ y ∈ earlier, key y < key x := fun y hy ↦ of_decide_eq_true (List.mem_filter.1 hy).2
  have hlate : ∀ y ∈ later, key x < key y := fun y hy ↦ by
    obtain ⟨hy, hne⟩ := List.mem_filter.1 hy
    have hle := (List.mem_filter.1 hy).2
    simp only [Bool.not_eq_true', decide_eq_false_iff_not, not_lt] at hne hle
    exact lt_of_le_of_ne hle (Ne.symm hne)
  have hbefore : before key things x = earlier.length := List.countP_eq_length_filter
  have hupTo : upTo key things x = earlier.length + (left ++ x :: right).length := by
    rw [upTo, ← hsplit.countP_eq, List.countP_append, List.countP_append,
      List.countP_eq_length.2 fun y hy ↦ decide_eq_true (hearly y hy).le,
      List.countP_eq_length.2 fun y hy ↦ decide_eq_true (htie y hy).le,
      List.countP_eq_zero.2 fun y hy hle ↦ not_lt.2 (of_decide_eq_true hle) (hlate y hy), Nat.add_zero]
  obtain ⟨m, rfl⟩ := Nat.exists_eq_add_of_le (hbefore ▸ hfrom)
  have hm : m ≤ (left ++ right).length := by
    rw [hupTo] at hto
    simp only [List.length_append, List.length_cons] at hto ⊢
    omega
  set ties := (left ++ right).take m ++ x :: (left ++ right).drop m with hties'
  have hperm : ties.Perm (left ++ x :: right) := by
    refine List.perm_middle.trans (List.Perm.trans ?_ List.perm_middle.symm)
    rw [List.take_append_drop]
  refine ⟨sortedBy key earlier ++ (ties ++ sortedBy key later), ⟨?_, ?_⟩, ?_⟩
  · exact ((List.perm_insertionSort _ _).append (hperm.append (List.perm_insertionSort _ _))).trans hsplit
  · have htie' : ∀ y ∈ ties, key y = key x := fun y hy ↦ htie y (hperm.mem_iff.1 hy)
    refine List.pairwise_append.2 ⟨pairwise_sortedBy, List.pairwise_append.2 ⟨?_, pairwise_sortedBy, ?_⟩, ?_⟩
    · exact List.pairwise_of_forall_mem_list fun y hy z hz ↦ ((htie' y hy).trans (htie' z hz).symm).le
    · exact fun y hy z hz ↦ ((htie' y hy).trans_lt (hlate z (mem_sortedBy.1 hz))).le
    · intro y hy z hz
      have hyx := hearly y (mem_sortedBy.1 hy)
      rcases List.mem_append.1 hz with hz | hz
      · exact (hyx.trans_eq (htie' z hz).symm).le
      · exact (hyx.trans (hlate z (mem_sortedBy.1 hz))).le
  · have hlength : (sortedBy key earlier).length = earlier.length := List.length_insertionSort _ _
    have htake : ((left ++ right).take m).length = m := List.length_take_of_le hm
    rw [List.getElem?_append_right (by omega), hlength, Nat.add_sub_cancel_left, hties', List.append_assoc,
      List.getElem?_append_right (by omega), htake, Nat.sub_self]
    rfl

theorem mem_take {n : ℕ} (hS : Ordering key things S) (hx : x ∈ things) (h : upTo key things x ≤ n) :
    x ∈ S.take n := by
  obtain ⟨p, hp⟩ := List.mem_iff_getElem?.1 (hS.perm.mem_iff.2 hx)
  have hlt := (position_bounds hS hp).2
  exact List.mem_iff_getElem?.2 ⟨p, by rw [List.getElem?_take_of_lt (by omega), hp]⟩

theorem ordering_sortedBy (key : ι → κ) (things : List ι) : Ordering key things (sortedBy key things) :=
  ⟨List.perm_insertionSort _ _, pairwise_sortedBy⟩

theorem before_lt_upTo (hx : x ∈ things) : before key things x < upTo key things x := by
  have hS := ordering_sortedBy key things
  obtain ⟨p, hp⟩ := List.mem_iff_getElem?.1 (hS.perm.mem_iff.2 hx)
  obtain ⟨hfrom, hto⟩ := position_bounds hS hp
  omega

/-- A thing that may stand behind the first `n` need not be among them. -/
theorem exists_ordering_cut {n : ℕ} (hnodup : things.Nodup) (hx : x ∈ things) (h : n < upTo key things x) :
    ∃ S, Ordering key things S ∧ x ∉ S.take n := by
  have hfrom : before key things x ≤ upTo key things x - 1 := Nat.le_sub_one_of_lt (before_lt_upTo hx)
  obtain ⟨S, hS, hp⟩ := exists_ordering_at hx hfrom (by omega)
  refine ⟨S, hS, fun hmem ↦ ?_⟩
  obtain ⟨q, hq⟩ := List.mem_iff_getElem?.1 hmem
  obtain ⟨hlt, -⟩ := List.getElem?_eq_some_iff.1 hq
  rw [List.length_take] at hlt
  rw [List.getElem?_take_of_lt (by omega)] at hq
  have hsame := (List.getElem?_inj (by omega) (hS.perm.nodup_iff.2 hnodup)).1 (hq.trans hp.symm)
  omega

/-! ### Pages -/

/-- The first `N` pages of `L` things, each cut out of an order of its own. -/
def pages (L N : ℕ) (S : ℕ → List ι) : List ι := (List.range N).flatMap fun k ↦ ((S k).drop (k * L)).take L

theorem mem_page {k : ℕ} : x ∈ (S.drop (k * L)).take L ↔ ∃ p, k * L ≤ p ∧ p < (k + 1) * L ∧ S[p]? = some x := by
  rw [Nat.succ_mul, List.mem_iff_getElem?]
  constructor
  · rintro ⟨i, hi⟩
    have hlt : i < L := by
      obtain ⟨hlt, -⟩ := List.getElem?_eq_some_iff.1 hi
      rw [List.length_take] at hlt
      omega
    rw [List.getElem?_take_of_lt hlt, List.getElem?_drop] at hi
    exact ⟨k * L + i, by omega, by omega, hi⟩
  · rintro ⟨p, hfrom, hto, hp⟩
    refine ⟨p - k * L, ?_⟩
    rw [List.getElem?_take_of_lt (by omega), List.getElem?_drop, Nat.add_sub_cancel' hfrom, hp]

/-- No page ends within the places of one key. -/
def Apart (key : ι → κ) (things : List ι) (L : ℕ) : Prop :=
  ∀ x ∈ things, ∀ k, before key things x < k * L → upTo key things x ≤ k * L

/-- A page number is not that of an earlier place of the key. -/
theorem Apart.not_straddling (h : Apart key things L) {j k q : ℕ} (hS : Ordering key things S)
    (hT : Ordering key things T) (hp : S[p]? = some x) (hq : T[q]? = some x) (hjk : j < k) (hpj : p < (j + 1) * L)
    (hqk : k * L ≤ q) : False := by
  have hx : x ∈ things := hS.perm.mem_iff.1 (List.mem_of_getElem? hp)
  have hle : (j + 1) * L ≤ k * L := Nat.mul_le_mul_right L hjk
  have hfrom := (position_bounds hS hp).1
  have hto := (position_bounds hT hq).2
  have := h x hx k (by omega)
  omega

/-- Whatever the orders are, the pages come in the order of the keys. -/
theorem pages_sorted {S : ℕ → List ι} (hS : ∀ k, Ordering key things (S k)) :
    (pages L N S).Pairwise fun a b ↦ key a ≤ key b := by
  refine List.pairwise_flatMap.2 ⟨fun k _ ↦ (hS k).sorted.sublist ((List.take_sublist _ _).trans
    (List.drop_sublist _ _)), List.pairwise_lt_range.imp fun {j k} hjk a ha b hb ↦ ?_⟩
  obtain ⟨p, -, hp, hpa⟩ := mem_page.1 ha
  obtain ⟨q, hq, -, hqb⟩ := mem_page.1 hb
  have hle : (j + 1) * L ≤ k * L := Nat.mul_le_mul_right L hjk
  by_contra hlt
  have hcount : upTo key things b ≤ before key things a := List.countP_mono_left fun y _ hy ↦
    decide_eq_true ((of_decide_eq_true hy).trans_lt (not_le.1 hlt))
  have hfrom := (position_bounds (hS j) hpa).1
  have hto := (position_bounds (hS k) hqb).2
  omega

/-- **Pages of changing orders** have everything once if no page ends within the places of one key. -/
theorem Apart.pages_perm (h : Apart key things L) (hL : 1 ≤ L) (hnodup : things.Nodup)
    (hN : things.length ≤ N * L) {S : ℕ → List ι} (hS : ∀ k, Ordering key things (S k)) :
    (pages L N S).Perm things := by
  have hpages : (pages L N S).Nodup := by
    refine List.nodup_flatMap.2 ⟨fun k _ ↦ ((hS k).perm.nodup_iff.2 hnodup).sublist
      ((List.take_sublist _ _).trans (List.drop_sublist _ _)), List.pairwise_lt_range.imp fun {j k} hjk x hj hk ↦ ?_⟩
    obtain ⟨p, -, hp, hpx⟩ := mem_page.1 hj
    obtain ⟨q, hq, -, hqx⟩ := mem_page.1 hk
    exact h.not_straddling (hS j) (hS k) hpx hqx hjk hp hq
  refine (List.perm_ext_iff_of_nodup hpages hnodup).2 fun x ↦ ⟨fun hx ↦ ?_, fun hx ↦ ?_⟩
  · obtain ⟨k, -, hk⟩ := List.mem_flatMap.1 hx
    exact (hS k).perm.mem_iff.1 ((List.drop_sublist _ _).subset ((List.take_sublist _ _).subset hk))
  · -- it is on the page of its first place
    set k := before key things x / L with hk
    have hfirst : k * L ≤ before key things x := Nat.div_mul_le_self _ _
    have hnext : before key things x < (k + 1) * L := by
      rw [Nat.succ_mul]
      exact Nat.lt_div_mul_add hL
    obtain ⟨p, hp⟩ := List.mem_iff_getElem?.1 ((hS k).perm.mem_iff.2 hx)
    obtain ⟨hfrom, hto⟩ := position_bounds (hS k) hp
    have hwhole := h x hx (k + 1) hnext
    refine List.mem_flatMap.2 ⟨k, List.mem_range.2 ?_, mem_page.2 ⟨p, by omega, by omega, hp⟩⟩
    have hlt : k * L < N * L := by
      have hle : upTo key things x ≤ things.length := upTo_le_length
      omega
    exact Nat.lt_of_mul_lt_mul_right hlt

/-- A single page ends nowhere. -/
theorem apart_of_length_le (h : things.length ≤ L) : Apart key things L := by
  intro x _ k hk
  have hpos : 0 < k * L := Nat.zero_lt_of_lt hk
  have hle : upTo key things x ≤ things.length := upTo_le_length
  have := Nat.le_mul_of_pos_left L (Nat.pos_of_mul_pos_right hpos)
  omega

/-- And only then. -/
theorem apart_of_pages (hL : 1 ≤ L) (hN : things.length ≤ N * L)
    (h : ∀ S : ℕ → List ι, (∀ k, Ordering key things (S k)) → (pages L N S).Nodup) : Apart key things L := by
  intro x hx k hfrom
  by_contra hto
  rw [not_le] at hto
  rcases k with - | k
  · rw [Nat.zero_mul] at hfrom
    exact Nat.not_lt_zero _ hfrom
  -- its last place on one page, and its first on the next
  have hlast : before key things x ≤ (k + 1) * L - 1 := by omega
  obtain ⟨S, hS, hp⟩ := exists_ordering_at hx hlast (by omega)
  obtain ⟨T, hT, hq⟩ := exists_ordering_at hx hfrom.le hto
  have hle : upTo key things x ≤ things.length := upTo_le_length
  have hrange : k + 1 < N := Nat.lt_of_mul_lt_mul_right (Nat.lt_of_lt_of_le (by omega) hN)
  have hnodup := h (fun i ↦ if i ≤ k then S else T) fun i ↦ by
    split
    · exact hS
    · exact hT
  have hdisjoint := List.pairwise_iff_getElem.1 (List.nodup_flatMap.1 hnodup).2 k (k + 1)
    (by rw [List.length_range]; omega) (by rwa [List.length_range]) (Nat.lt_succ_self k)
  simp only [List.getElem_range, le_refl, if_true, Nat.not_succ_le_self, if_false, Function.onFun] at hdisjoint
  refine hdisjoint (mem_page.2 ⟨_, ?_, ?_, hp⟩) (mem_page.2 ⟨_, le_rfl, ?_, hq⟩)
  · rw [Nat.succ_mul]
    omega
  · omega
  · exact Nat.mul_lt_mul_of_pos_right (Nat.lt_succ_self _) hL

end Paging
