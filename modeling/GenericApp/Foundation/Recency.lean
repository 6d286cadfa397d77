import GenericApp.Foundation.ExpiringStore
import Mathlib.Data.Finset.Card
import Mathlib.Data.List.TakeWhile

/-!
# What a dictionary in the order of use forgets

A `RecencyDict` keeps its keys in the order of their last use. Against the list of all uses, the latest first, this
says that a key stands behind another if and only if it was used since (`InOrder`); a write and a removal keep it so.
What is dropped from the front was therefore followed by `bound` other keys (`bound_le_of_dropped`).
-/

universe u v

namespace RecencyDict

variable {κ : Type u} {α : Type v} {bound : ℕ} [DecidableEq κ]

/-- The keys, the one used last at the end. -/
def keys (D : RecencyDict κ α bound) : List κ := D.entries.map Prod.fst

/-- Of all uses, the latest first, those since the last one of a key. -/
def usedSince (uses : List κ) (k : κ) : List κ := uses.takeWhile fun j ↦ j ≠ k

/-- A key has been used since the keys in front of it were. -/
def InOrder (D : RecencyDict κ α bound) (uses : List κ) : Prop :=
  D.keys.Pairwise fun j k ↦ k ∈ usedSince uses j

variable {D : RecencyDict κ α bound} {uses : List κ} {j k : κ} {a : α}

omit [DecidableEq κ] in
theorem mem_keys : k ∈ D.keys ↔ ∃ a, (k, a) ∈ D.entries := by
  rw [keys, List.mem_map]
  constructor
  · rintro ⟨⟨j, a⟩, he, rfl⟩
    exact ⟨a, he⟩
  · rintro ⟨a, he⟩
    exact ⟨(k, a), he, rfl⟩

theorem mem_keys_iff_isSome : k ∈ D.keys ↔ (D.get k).isSome = true := by
  rw [mem_keys, Option.isSome_iff_exists]
  exact exists_congr fun a ↦ (D.get_eq_some_iff).symm

theorem mem_keys_erase : j ∈ (D.erase k).keys ↔ j ∈ D.keys ∧ j ≠ k := by
  rw [mem_keys, mem_keys, ← exists_and_right]
  exact exists_congr fun a ↦ D.mem_erase

theorem mem_keys_eraseAll {ks : List κ} : j ∈ (D.eraseAll ks).keys ↔ j ∈ D.keys ∧ j ∉ ks := by
  rw [mem_keys, mem_keys, ← exists_and_right]
  exact exists_congr fun a ↦ D.mem_eraseAll

theorem mem_keys_put (h : j ∈ (D.put k a).keys) : j = k ∨ j ∈ D.keys := by
  obtain ⟨b, hb⟩ := mem_keys.1 h
  rcases D.mem_put hb with heq | ⟨-, hold⟩
  · exact .inl (congrArg Prod.fst heq)
  · exact .inr (mem_keys.2 ⟨b, hold⟩)

/-- The keys that a write would leave if the dictionary could grow. -/
theorem keys_put : (D.put k a).keys = ((D.erase k).keys ++ [k]).drop (((D.erase k).keys ++ [k]).length - bound) := by
  have hlength : ((D.erase k).keys ++ [k]).length = ((D.erase k).entries ++ [(k, a)]).length := by
    simp [keys]
  have hkeys : (D.erase k).keys ++ [k] = ((D.erase k).entries ++ [(k, a)]).map Prod.fst := by
    rw [List.map_append]
    rfl
  rw [hlength, hkeys, ← List.map_drop]
  rfl

/-! ### The order -/

theorem usedSince_cons_of_ne (h : k ≠ j) : usedSince (k :: uses) j = k :: usedSince uses j :=
  List.takeWhile_cons_of_pos (by simpa using h)

theorem inOrder_empty : (empty : RecencyDict κ α bound).InOrder uses := List.Pairwise.nil

theorem InOrder.erase (h : D.InOrder uses) : (D.erase k).InOrder uses :=
  h.sublist (List.filter_sublist.map _)

theorem InOrder.eraseAll (h : D.InOrder uses) (ks : List κ) : (D.eraseAll ks).InOrder uses := by
  induction ks generalizing D with
  | nil => exact h
  | cons k ks ih => exact ih (h.erase (k := k))

/-- Where the key stands at the end, it is the one used last. -/
theorem InOrder.append (h : D.InOrder uses) :
    ((D.erase k).keys ++ [k]).Pairwise fun i j ↦ j ∈ usedSince (k :: uses) i := by
  refine List.pairwise_append.2 ⟨h.erase.imp_of_mem fun hi hj hused ↦ ?_, List.pairwise_singleton _ _,
    fun i hi j hj ↦ ?_⟩
  · rw [usedSince_cons_of_ne (mem_keys_erase.1 hi).2.symm]
    exact List.mem_cons_of_mem _ hused
  · obtain rfl := List.mem_singleton.1 hj
    rw [usedSince_cons_of_ne (mem_keys_erase.1 hi).2.symm]
    exact List.mem_cons_self

/-- **A write keeps the order of use.** -/
theorem InOrder.put (h : D.InOrder uses) : (D.put k a).InOrder (k :: uses) := by
  rw [InOrder, keys_put]
  exact h.append.sublist (List.drop_sublist _ _)

/-! ### Where nothing is dropped, and where something is -/

theorem put_of_mem (h : k ∈ D.keys) : (D.put k a).entries = (D.erase k).entries ++ [(k, a)] := by
  have hsubset : ((D.erase k).entries ++ [(k, a)]).map Prod.fst ⊆ D.keys := by
    intro j hj
    rw [List.map_append, List.mem_append] at hj
    rcases hj with hold | hnew
    · exact (mem_keys_erase.1 hold).1
    · rwa [List.mem_singleton.1 hnew]
  have hlength := (List.subperm_of_subset (D.nodup_erase_append k a) hsubset).length_le
  rw [List.length_map, keys, List.length_map] at hlength
  show ((D.erase k).entries ++ [(k, a)]).drop _ = _
  rw [Nat.sub_eq_zero_of_le (hlength.trans D.bounded), List.drop_zero]

/-- A key that is there can be written, and all the others stay. -/
theorem get_put_of_mem (h : k ∈ D.keys) (j : κ) : (D.put k a).get j = if j = k then some a else D.get j := by
  refine Option.ext fun b ↦ ?_
  rw [get_eq_some_iff, put_of_mem h, List.mem_append, mem_erase, List.mem_singleton]
  split
  · next hj =>
    subst hj
    simp [eq_comm]
  · next hj => simp [get_eq_some_iff, hj]

theorem get_put_self (hbound : 1 ≤ bound) : (D.put k a).get k = some a := by
  rw [get_eq_some_iff]
  show (k, a) ∈ ((D.erase k).entries ++ [(k, a)]).drop _
  have hlength : ((D.erase k).entries ++ [(k, a)]).length = (D.erase k).entries.length + 1 := List.length_append
  rw [hlength, List.drop_append_of_le_length (by omega)]
  exact List.mem_append_right _ List.mem_cons_self

/-- What is there after a write, and is not the key that is written, was there before with the same value. -/
theorem get_put_of_ne (hj : j ≠ k) (h : j ∈ (D.put k a).keys) : (D.put k a).get j = D.get j := by
  obtain ⟨b, hb⟩ := mem_keys.1 h
  rcases D.mem_put hb with heq | ⟨-, hold⟩
  · exact absurd (congrArg Prod.fst heq) hj
  · rw [D.get_eq_some_iff.2 hold, (D.put k a).get_eq_some_iff.2 hb]

/-- **The law of what is dropped**: at least `bound` other keys were used since it was. -/
theorem bound_le_of_dropped (h : D.InOrder uses) (hj : j ∈ D.keys) (hne : j ≠ k) (hgone : j ∉ (D.put k a).keys) :
    bound ≤ (usedSince (k :: uses) j).toFinset.card := by
  rw [keys_put] at hgone
  set all := (D.erase k).keys ++ [k] with hall
  have hmem : j ∈ all := List.mem_append_left _ (mem_keys_erase.2 ⟨hj, hne⟩)
  have hsplit := List.take_append_drop (all.length - bound) all
  have hfront : j ∈ all.take (all.length - bound) := by
    rw [← hsplit] at hmem
    exact (List.mem_append.1 hmem).resolve_right hgone
  have hbehind : ∀ i ∈ all.drop (all.length - bound), i ∈ usedSince (k :: uses) j := by
    have hpairwise := h.append (k := k)
    rw [← hall, ← hsplit] at hpairwise
    exact fun i hi ↦ (List.pairwise_append.1 hpairwise).2.2 j hfront i hi
  have hlength : (all.drop (all.length - bound)).length = bound := by
    have := List.length_pos_of_mem hfront
    rw [List.length_take] at this
    rw [List.length_drop]
    omega
  have hnodup : (all.drop (all.length - bound)).Nodup := by
    rw [← keys_put (a := a)]
    exact (D.put k a).nodup
  rw [← hlength, ← List.toFinset_card_of_nodup hnodup]
  exact Finset.card_le_card fun i hi ↦ List.mem_toFinset.2 (hbehind i (List.mem_toFinset.1 hi))

end RecencyDict
