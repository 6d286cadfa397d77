import Mathlib.Data.List.MinMax
import GenericApp.Foundation.Keeping
import GenericApp.Foundation.Mapping

/-!
# Merging what has one key

A loop that keeps one thing for each key, and of two things with one key the one with the greater score, the earlier one
if they are equal. What it keeps are the representatives of the keys, in the order in which the keys are seen
(`values_mergeBy`): for each key the first of the things with the greatest score.
-/

namespace Py

variable {α κ : Type} [LinearOrder κ] (key : α → String) (score : α → κ)

/-- One thing more, under its key. -/
def mergeBy (grouped : Mapping α) (item : α) : Mapping α :=
  match grouped.get? (key item) with
  | none => grouped.put (key item) item
  | some existing => grouped.put (key item) (if score existing ≥ score item then existing else item)

/-- What stands for the things of a key: the first of those with the greatest score. -/
def representative (items : List α) (k : String) : Option α := (items.filter fun item ↦ key item = k).argmax score

/-- What stands for the keys of things, in the order in which they are seen. -/
def representatives (items : List α) : List α :=
  (keepBy (fun seen k ↦ !seen.contains k) [] (items.map key)).filterMap (representative key score items)

variable {key score} {items : List α} {item x r : α} {k : String} {grouped : Mapping α}

/-! ### What stands for a key -/

theorem representative_eq_some (h : representative key score items k = some r) :
    r ∈ items ∧ key r = k ∧ ∀ x ∈ items, key x = k → score x ≤ score r := by
  obtain ⟨hmem, hkey⟩ := List.mem_filter.1 (List.argmax_mem h)
  refine ⟨hmem, of_decide_eq_true hkey, fun x hx hxk ↦ ?_⟩
  exact List.le_of_mem_argmax (List.mem_filter.2 ⟨hx, decide_eq_true hxk⟩) h

theorem mem_representatives_iff : r ∈ representatives key score items ↔ representative key score items (key r) = some r := by
  rw [representatives, List.mem_filterMap]
  constructor
  · rintro ⟨k, -, hr⟩
    rwa [(representative_eq_some hr).2.1]
  · intro h
    exact ⟨key r, mem_keepBy_unseen.2 ⟨List.mem_map_of_mem (representative_eq_some h).1, List.not_mem_nil⟩, h⟩

/-! ### What the loop keeps -/

theorem get?_mergeBy (grouped : Mapping α) (item : α) (k : String) : (mergeBy key score grouped item).get? k =
    if key item = k then List.argAux (fun b c ↦ score c < score b) (grouped.get? k) item else grouped.get? k := by
  rw [mergeBy]
  by_cases hk : key item = k
  · subst hk
    rw [if_pos rfl]
    split
    · next hnone => rw [Mapping.get?_put, if_pos rfl, hnone]; rfl
    · next existing hsome =>
      rw [Mapping.get?_put, if_pos rfl, hsome]
      show some _ = if score existing < score item then some item else some existing
      by_cases hlt : score existing < score item
      · rw [if_pos hlt, if_neg (not_le.2 hlt)]
      · rw [if_neg hlt, if_pos (not_lt.1 hlt)]
  · rw [if_neg hk]
    split <;> rw [Mapping.get?_put, if_neg (Ne.symm hk)]

theorem get?_foldl_mergeBy : (items.foldl (mergeBy key score) grouped).get? k =
    (items.filter fun item ↦ key item = k).foldl (List.argAux fun b c ↦ score c < score b) (grouped.get? k) := by
  induction items generalizing grouped with
  | nil => rfl
  | cons item items ih =>
    rw [List.foldl_cons, ih, get?_mergeBy, List.filter_cons]
    by_cases hk : key item = k
    · rw [if_pos hk, if_pos (decide_eq_true hk), List.foldl_cons]
    · rw [if_neg hk, if_neg fun h ↦ hk (of_decide_eq_true h)]

theorem keys_mergeBy : (mergeBy key score grouped item).keys =
    if grouped.keys.contains (key item) then grouped.keys else grouped.keys ++ [key item] := by
  rw [mergeBy]
  split
  · next hnone =>
    rw [if_neg (by simpa using Mapping.get?_eq_none_iff.1 hnone), Mapping.keys, Mapping.entries_put_of_none _ hnone,
      List.map_append]
    rfl
  · next existing hsome =>
    have hmem : key item ∈ grouped.keys := Mapping.mem_keys_iff.2 (hsome ▸ rfl)
    obtain ⟨left, right, hentries, hput⟩ := Mapping.entries_put_of_some
      (if score existing ≥ score item then existing else item) hsome
    rw [if_pos (List.contains_iff_mem.2 hmem), Mapping.keys, Mapping.keys, hput, hentries, List.map_append,
      List.map_append]
    rfl

theorem keys_foldl_mergeBy : (items.foldl (mergeBy key score) grouped).keys =
    grouped.keys ++ keepBy (fun seen k ↦ !seen.contains k) grouped.keys (items.map key) := by
  induction items generalizing grouped with
  | nil => exact (List.append_nil _).symm
  | cons item items ih =>
    rw [List.foldl_cons, ih, keys_mergeBy, List.map_cons, keepBy]
    by_cases hseen : grouped.keys.contains (key item) = true
    · rw [if_pos hseen, if_neg (by simpa using hseen)]
    · rw [if_neg hseen, if_pos (by simpa using hseen), List.append_assoc]
      rfl

/-- **The loop keeps what stands for the keys.** -/
theorem values_mergeBy (items : List α) :
    ((items.foldl (mergeBy key score) .empty).entries).map Prod.snd = representatives key score items := by
  have hget : ∀ entry ∈ (items.foldl (mergeBy key score) .empty).entries,
      representative key score items entry.1 = some entry.2 := fun entry hentry ↦ by
    rw [← Mapping.get?_of_mem hentry, get?_foldl_mergeBy]
    rfl
  have hkeys := @keys_foldl_mergeBy _ _ _ key score items .empty
  rw [representatives, ← List.nil_append (keepBy _ _ _)]
  refine Eq.trans ?_ (congrArg (List.filterMap _) hkeys)
  rw [Mapping.keys, List.filterMap_map, ← List.filterMap_eq_map]
  exact List.filterMap_congr fun entry hentry ↦ (hget entry hentry).symm

end Py
