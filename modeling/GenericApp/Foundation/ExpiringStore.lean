import Mathlib.Data.Int.Order.Basic
import Mathlib.Data.List.Nodup
import Mathlib.Data.List.Perm.Subperm

/-!
# Stores whose entries expire

Two of them, over arbitrary keys and values, with instants as integers.

* `ExpiringStore` is a shared key-value server: a key has a value and perhaps an instant after which
  reads no longer see it. Expiry is not a step. An entry stays where it is, and `get` looks through it
  once its time is over, so that nothing has to be said about when a server collects what has expired.
* `RecencyDict` is a bounded dictionary that keeps its keys in the order of their last use, and drops
  from the front when it grows too long. That a key occurs once is a field, and so is the bound.

What a reader may conclude from a value that it has read is the same for both: the entry was there
(`live_of_get`, `mem_of_get`), and an entry that is there after a write is the one written or was there
before (`put_cases`, `mem_put`). Deletion is what makes the absence certain (`get_delete_self`,
`get_erase_self`). Where the keys of a bounded dictionary come from a list no longer than its bound, nothing
is ever dropped, and lookups alone describe what a write does (`KeysIn.get_put`).
-/

universe u v

/-! ### The shared server -/

/-- A value and the instant up to which it is seen, if there is one. -/
structure Expiring (α : Type v) where
  value : α
  expiresAt : Option ℤ

namespace Expiring

variable {α : Type v}

/-- The entry is seen at this instant. -/
def Live (e : Expiring α) (now : ℤ) : Prop := ∀ t ∈ e.expiresAt, now ≤ t

instance (e : Expiring α) (now : ℤ) : Decidable (e.Live now) :=
  match h : e.expiresAt with
  | none => isTrue (by simp [Live, h])
  | some t => decidable_of_iff (now ≤ t) (by simp [Live, h])

end Expiring

/-- The entries of a server. -/
abbrev ExpiringStore (κ : Type u) (α : Type v) := κ → Option (Expiring α)

namespace ExpiringStore

variable {κ : Type u} {α : Type v}

/-- A server without entries. -/
def empty : ExpiringStore κ α := fun _ ↦ none

/-- What a read of the key sees. -/
def get (R : ExpiringStore κ α) (k : κ) (now : ℤ) : Option α :=
  match R k with
  | some e => if e.Live now then some e.value else none
  | none => none

theorem live_of_get {R : ExpiringStore κ α} {k : κ} {now : ℤ} {a : α} (h : R.get k now = some a) :
    ∃ e, R k = some e ∧ e.Live now ∧ e.value = a := by
  rw [get] at h
  split at h
  · next e he =>
    split at h
    · next hlive => exact ⟨e, he, hlive, Option.some.inj h⟩
    · exact nomatch h
  · exact nomatch h

variable [DecidableEq κ]

/-- Write a value that is seen up to an instant, or for good. -/
def put (R : ExpiringStore κ α) (k : κ) (a : α) (expiresAt : Option ℤ) : ExpiringStore κ α :=
  Function.update R k (some ⟨a, expiresAt⟩)

/-- Remove a key. -/
def delete (R : ExpiringStore κ α) (k : κ) : ExpiringStore κ α := Function.update R k none

/-- Remove several keys. -/
def deleteAll (R : ExpiringStore κ α) (ks : List κ) : ExpiringStore κ α := ks.foldl delete R

/-- An entry after a write is the one written or was there before. -/
theorem put_cases {R : ExpiringStore κ α} {k : κ} {a : α} {expiresAt : Option ℤ} {j : κ}
    {e : Expiring α} (h : R.put k a expiresAt j = some e) :
    (j = k ∧ e = ⟨a, expiresAt⟩) ∨ (j ≠ k ∧ R j = some e) := by
  rw [put] at h
  rcases eq_or_ne j k with rfl | hne
  · rw [Function.update_self] at h
    exact .inl ⟨rfl, (Option.some.inj h).symm⟩
  · rw [Function.update_of_ne hne] at h
    exact .inr ⟨hne, h⟩

@[simp] theorem put_self (R : ExpiringStore κ α) (k : κ) (a : α) (expiresAt : Option ℤ) :
    R.put k a expiresAt k = some ⟨a, expiresAt⟩ :=
  Function.update_self ..

@[simp] theorem get_delete_self (R : ExpiringStore κ α) (k : κ) (now : ℤ) :
    (R.delete k).get k now = none := by
  rw [get, delete, Function.update_self]

/-! #### Counters -/

/-- Add one to a number, which counts from zero where none is seen. The instant of its expiry stays. -/
def incr (R : ExpiringStore κ ℤ) (k : κ) (now : ℤ) : ExpiringStore κ ℤ :=
  match R k with
  | some e => if e.Live now then R.put k (e.value + 1) e.expiresAt else R.put k 1 none
  | none => R.put k 1 none

/-- Let a key be seen up to an instant, if it is seen now. -/
def expire (R : ExpiringStore κ α) (k : κ) (expiresAt now : ℤ) : ExpiringStore κ α :=
  match R k with
  | some e => if e.Live now then R.put k e.value (some expiresAt) else R
  | none => R

/-- The number of a counter, whether it is still seen or not. -/
def count (R : ExpiringStore κ ℤ) (k : κ) : ℤ := ((R k).map Expiring.value).getD 0

/-- A counter that has not expired goes up by one. -/
theorem incr_of_live {R : ExpiringStore κ ℤ} {k : κ} {now : ℤ} (h : ∀ e, R k = some e → e.Live now) :
    (R.incr k now).count k = R.count k + 1 ∧ R.incr k now k ≠ none := by
  rcases he : R k with - | e
  · have hincr : R.incr k now = R.put k 1 none := by rw [incr, he]
    rw [hincr, count, count, put_self, he]
    exact ⟨rfl, Option.some_ne_none _⟩
  · have hincr : R.incr k now = R.put k (e.value + 1) e.expiresAt := by
      simp only [incr, he, if_pos (h e he)]
    rw [hincr, count, count, put_self, he]
    exact ⟨rfl, Option.some_ne_none _⟩

/-- Its lifetime does not change a counter. -/
theorem count_expire (R : ExpiringStore κ ℤ) (k : κ) (expiresAt now : ℤ) :
    (R.expire k expiresAt now).count k = R.count k ∧ (R k ≠ none → R.expire k expiresAt now k ≠ none) := by
  rcases he : R k with - | e
  · have hexpire : R.expire k expiresAt now = R := by rw [expire, he]
    rw [hexpire]
    exact ⟨rfl, fun h ↦ absurd rfl h⟩
  · by_cases hlive : e.Live now
    · have hexpire : R.expire k expiresAt now = R.put k e.value (some expiresAt) := by
        simp only [expire, he, if_pos hlive]
      rw [hexpire, count, count, put_self, he]
      exact ⟨rfl, fun _ ↦ Option.some_ne_none _⟩
    · have hexpire : R.expire k expiresAt now = R := by simp only [expire, he, if_neg hlive]
      rw [hexpire, he]
      exact ⟨rfl, id⟩

end ExpiringStore

/-! ### Dictionaries in the order of use -/

/-- A dictionary of at most `bound` keys, the one used last at the end. -/
structure RecencyDict (κ : Type u) (α : Type v) (bound : ℕ) where
  entries : List (κ × α)
  nodup : (entries.map Prod.fst).Nodup
  bounded : entries.length ≤ bound

namespace RecencyDict

variable {κ : Type u} {α : Type v} {bound : ℕ}

/-- The dictionary without entries. -/
def empty : RecencyDict κ α bound := ⟨[], List.nodup_nil, Nat.zero_le _⟩

variable [DecidableEq κ] (D : RecencyDict κ α bound)

/-- The value under a key. -/
def get (k : κ) : Option α := (D.entries.find? fun e ↦ e.1 = k).map Prod.snd

theorem mem_of_get {D : RecencyDict κ α bound} {k : κ} {a : α} (h : D.get k = some a) :
    (k, a) ∈ D.entries := by
  obtain ⟨⟨j, b⟩, hfind, rfl⟩ := Option.map_eq_some_iff.1 h
  obtain rfl : j = k := by simpa using List.find?_some hfind
  exact List.mem_of_find?_eq_some hfind

/-- Remove a key. -/
def erase (k : κ) : RecencyDict κ α bound where
  entries := D.entries.filter fun e ↦ e.1 ≠ k
  nodup := D.nodup.sublist (List.filter_sublist.map _)
  bounded := Nat.le_trans (List.length_filter_le _ _) D.bounded

theorem mem_erase {k : κ} {e : κ × α} : e ∈ (D.erase k).entries ↔ e ∈ D.entries ∧ e.1 ≠ k := by
  simp [erase]

@[simp] theorem get_erase_self (k : κ) : (D.erase k).get k = none := by
  rw [get, List.find?_eq_none.2, Option.map_none]
  intro e he
  simpa using (D.mem_erase.1 he).2

/-- Remove several keys. -/
def eraseAll (ks : List κ) : RecencyDict κ α bound := ks.foldl erase D

theorem mem_eraseAll {ks : List κ} {e : κ × α} :
    e ∈ (D.eraseAll ks).entries ↔ e ∈ D.entries ∧ e.1 ∉ ks := by
  induction ks generalizing D with
  | nil => exact ⟨fun h ↦ ⟨h, List.not_mem_nil⟩, And.left⟩
  | cons k ks ih =>
    show e ∈ ((D.erase k).eraseAll ks).entries ↔ _
    rw [ih, mem_erase, List.mem_cons, not_or, and_assoc]

/-- A key that has been removed can be put at the end. -/
theorem nodup_erase_append (k : κ) (a : α) : (((D.erase k).entries ++ [(k, a)]).map Prod.fst).Nodup := by
  rw [List.map_append, List.nodup_append]
  refine ⟨(D.erase k).nodup, List.nodup_singleton k, ?_⟩
  rintro j hj i hi rfl
  obtain ⟨e, he, rfl⟩ := List.mem_map.1 hj
  exact (D.mem_erase.1 he).2 (List.mem_singleton.1 hi)

/-- Write a value: the key becomes the one used last, and the dictionary loses keys from the front until
it is within its bound. -/
def put (k : κ) (a : α) : RecencyDict κ α bound :=
  let entries := (D.erase k).entries ++ [(k, a)]
  { entries := entries.drop (entries.length - bound)
    nodup := (D.nodup_erase_append k a).sublist ((List.drop_sublist _ _).map _)
    bounded := by
      rw [List.length_drop]
      omega }

/-- An entry after a write is the one written or was there before. -/
theorem mem_put {k : κ} {a : α} {e : κ × α} (h : e ∈ (D.put k a).entries) :
    e = (k, a) ∨ (e.1 ≠ k ∧ e ∈ D.entries) := by
  rcases List.mem_append.1 (List.mem_of_mem_drop h) with hold | hnew
  · exact .inr (D.mem_erase.1 hold).symm
  · exact .inl (List.mem_singleton.1 hnew)

/-! #### Dictionaries that stay within a list of keys -/

theorem get_eq_some_iff {k : κ} {a : α} : D.get k = some a ↔ (k, a) ∈ D.entries := by
  refine ⟨mem_of_get, fun h ↦ ?_⟩
  rcases hget : D.get k with - | b
  · rw [get, Option.map_eq_none_iff, List.find?_eq_none] at hget
    exact absurd (decide_eq_true rfl) (hget _ h)
  · have hsame : (k, b) = (k, a) := List.inj_on_of_nodup_map D.nodup (mem_of_get hget) h rfl
    exact congrArg some (congrArg Prod.snd hsame)

/-- Dictionaries with the same lookups have the same entries. -/
theorem mem_entries_congr {D E : RecencyDict κ α bound} :
    (∀ e, e ∈ D.entries ↔ e ∈ E.entries) ↔ ∀ k, D.get k = E.get k := by
  refine ⟨fun h k ↦ Option.ext fun a ↦ ?_, fun h e ↦ ?_⟩
  · rw [get_eq_some_iff, get_eq_some_iff, h]
  · rw [← get_eq_some_iff (k := e.1), ← get_eq_some_iff (k := e.1), h]

/-- **The law of a removal.** -/
theorem get_erase (k j : κ) : (D.erase k).get j = if j = k then none else D.get j := by
  split
  · next h => rw [h, get_erase_self]
  · next h =>
    refine Option.ext fun a ↦ ?_
    rw [get_eq_some_iff, get_eq_some_iff, mem_erase]
    exact and_iff_left h

/-- Every key is in the list. -/
def KeysIn (ks : List κ) : Prop := ∀ e ∈ D.entries, e.1 ∈ ks

variable {D} {ks : List κ}

theorem KeysIn.erase (h : D.KeysIn ks) (k : κ) : (D.erase k).KeysIn ks :=
  fun e he ↦ h e (D.mem_erase.1 he).1

theorem KeysIn.put (h : D.KeysIn ks) {k : κ} (hk : k ∈ ks) (a : α) : (D.put k a).KeysIn ks := by
  intro e he
  rcases D.mem_put he with rfl | ⟨-, hold⟩
  · exact hk
  · exact h e hold

theorem KeysIn.get_eq_none (h : D.KeysIn ks) {k : κ} (hk : k ∉ ks) : D.get k = none :=
  Option.eq_none_iff_forall_ne_some.2 fun _ hget ↦ hk (h _ (mem_of_get hget))

/-- Where the bound is no less than the number of keys there are, a write drops nothing. -/
theorem KeysIn.entries_put (h : D.KeysIn ks) (hbound : ks.length ≤ bound) {k : κ} (hk : k ∈ ks) (a : α) :
    (D.put k a).entries = (D.erase k).entries ++ [(k, a)] := by
  have hsubset : ((D.erase k).entries ++ [(k, a)]).map Prod.fst ⊆ ks := by
    intro j hj
    obtain ⟨e, he, rfl⟩ := List.mem_map.1 hj
    rcases List.mem_append.1 he with hold | hnew
    · exact h.erase k e hold
    · rw [List.mem_singleton.1 hnew]
      exact hk
  have hlength : ((D.erase k).entries ++ [(k, a)]).length ≤ bound := by
    have hle := (List.subperm_of_subset (D.nodup_erase_append k a) hsubset).length_le
    rw [List.length_map] at hle
    exact Nat.le_trans hle hbound
  show ((D.erase k).entries ++ [(k, a)]).drop _ = _
  rw [Nat.sub_eq_zero_of_le hlength, List.drop_zero]

/-- **The law of a write**, where nothing is dropped. -/
theorem KeysIn.get_put (h : D.KeysIn ks) (hbound : ks.length ≤ bound) {k : κ} (hk : k ∈ ks) (a : α) (j : κ) :
    (D.put k a).get j = if j = k then some a else D.get j := by
  refine Option.ext fun b ↦ ?_
  rw [get_eq_some_iff, h.entries_put hbound hk, List.mem_append, mem_erase, List.mem_singleton]
  split
  · next hj =>
    subst hj
    simp [eq_comm]
  · next hj => simp [get_eq_some_iff, hj]

end RecencyDict
