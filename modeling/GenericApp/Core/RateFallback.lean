import GenericApp.Core.RateLimit
import GenericApp.Foundation.CounterStore
import GenericApp.Foundation.Mapping
import Mathlib.Data.List.MinMax

/-!
# Counters in a process

Where Redis does not answer, a process counts for itself, in a dictionary of no more than 10000 keys. When it grows
longer, the counter that expires first is dropped. That is one that has expired already, unless more than 10000 have
not: then the dictionary has the same laws as Redis (`localCounters`, `redisCounters`).
-/

namespace Py.Mapping

variable {α : Type} (d : Mapping α) (key : String)

/-- `d.pop(key, None)` -/
def pop : Mapping α :=
  ⟨d.entries.filter fun entry ↦ entry.1 ≠ key, d.nodup.sublist (List.filter_sublist.map _)⟩

variable {d key} {other : String}

@[simp] theorem get?_pop : (d.pop key).get? other = if other = key then none else d.get? other := by
  refine Option.ext fun value ↦ ?_
  have hmem : (d.pop key).get? other = some value ↔ (other, value) ∈ d.entries ∧ other ≠ key :=
    ⟨fun h ↦ by simpa using List.mem_filter.1 (mem_of_get? h),
      fun h ↦ get?_of_mem (d := d.pop key) (List.mem_filter.2 ⟨h.1, decide_eq_true h.2⟩)⟩
  rw [hmem]
  split
  · next heq => exact iff_of_false (fun h ↦ h.2 heq) nofun
  · next hne => exact ⟨fun h ↦ get?_of_mem h.1, fun h ↦ ⟨mem_of_get? h, hne⟩⟩

/-- A write changes no other entry. -/
theorem filter_put (p : String × α → Bool) (value : α) :
    (d.put key value).entries.filter (fun entry ↦ entry.1 ≠ key ∧ p entry) =
      d.entries.filter fun entry ↦ entry.1 ≠ key ∧ p entry := by
  rcases hget : d.get? key with - | old
  · rw [entries_put_of_none value hget, List.filter_append]
    simp
  · obtain ⟨left, right, hentries, hput⟩ := entries_put_of_some value hget
    rw [hput, hentries, List.filter_append, List.filter_append]
    simp

/-- All but one of the entries are under another key. -/
theorem length_le_others : d.entries.length ≤ (d.entries.filter fun entry ↦ entry.1 ≠ key).length + 1 := by
  have honce : (d.entries.countP fun entry ↦ entry.1 = key) ≤ 1 := by
    have hcount := List.nodup_iff_count_le_one.1 d.nodup key
    rw [List.count, List.countP_map] at hcount
    refine le_trans (List.countP_mono_left fun entry _ h ↦ ?_) hcount
    simpa using h
  have hsplit := List.length_eq_countP_add_countP (fun entry : String × α ↦ decide (entry.1 = key)) (l := d.entries)
  rw [← List.countP_eq_length_filter]
  have hothers : (d.entries.countP fun entry ↦ ¬decide (entry.1 = key) = true) =
      d.entries.countP fun entry ↦ entry.1 ≠ key := by simp
  omega

end Py.Mapping

namespace GenericApp

open Py

/-! ### The fallback -/

/-- `_local_fallback`: a count, and when it expires. -/
abbrev LocalFallback := Mapping (ℤ × DateTime)

/-- `_LOCAL_FALLBACK_MAX_KEYS` -/
def localFallbackMaxKeys : ℕ := 10000

section Fallback

variable (L : LocalFallback) (key : String) (now : DateTime)

/-- `min(_local_fallback, key=lambda item: _local_fallback[item][1])` -/
def oldestEntry : Option (String × ℤ × DateTime) :=
  @List.argmin _ ℤ Int.instLinearOrder.toPreorder Int.decLt (fun entry ↦ entry.2.2) L.entries

/-- The counter that `_local_increment` writes. -/
def countedEntry (windowSeconds : ℤ) : ℤ × DateTime :=
  let (count, expiresAt) := (L.get? key).getD (0, now)
  let (count, expiresAt) := if expiresAt ≤ now then (0, now + timedelta windowSeconds) else (count, expiresAt)
  (count + 1, expiresAt)

/-- The dictionary, without the counter that expires first if it is too long. -/
def dropOldest (L : LocalFallback) : LocalFallback :=
  if localFallbackMaxKeys < L.entries.length then
    match oldestEntry L with
    | some oldest => L.pop oldest.1
    | none => L
  else L

/-- `_local_increment` -/
def localIncrement (windowSeconds : ℤ) : (ℤ × ℤ) × LocalFallback :=
  let entry := countedEntry L key now windowSeconds
  ((entry.1, max 1 ((entry.2 - now).tdiv 1000000)), dropOldest (L.put key entry))

/-- `_local_read` -/
def localRead : Option (ℤ × ℤ) × LocalFallback :=
  match L.get? key with
  | none => (none, L)
  | some (count, expiresAt) =>
    if expiresAt ≤ now then (none, L.pop key)
    else (some (count, max 1 ((expiresAt - now).tdiv 1000000)), L)

/-- The count of a key that has not expired. -/
def localSeen : Option ℤ := ((L.get? key).filter fun entry ↦ now < entry.2).map Prod.fst

/-- With this key, no more keys are in use than the dictionary holds. -/
def LocalFits : Prop := (L.entries.filter fun entry ↦ entry.1 ≠ key ∧ now < entry.2.2).length < localFallbackMaxKeys

instance : Decidable (LocalFits L key now) := inferInstanceAs (Decidable (_ < _))

end Fallback

section Laws

variable {L : LocalFallback} {key other : String} {now later : DateTime} {c windowSeconds : ℤ}

theorem localSeen_eq_some_iff :
    localSeen L key now = some c ↔ ∃ expiresAt, L.get? key = some (c, expiresAt) ∧ now < expiresAt := by
  rw [localSeen, Option.map_eq_some_iff]
  simp only [Option.filter_eq_some_iff, decide_eq_true_eq, Prod.exists]
  exact ⟨fun ⟨_, e, h, heq⟩ ↦ heq ▸ ⟨e, h⟩, fun ⟨e, h⟩ ↦ ⟨c, e, h, rfl⟩⟩

theorem localSeen_of_get? {L' : LocalFallback} (h : L'.get? other = L.get? other) :
    localSeen L' other now = localSeen L other now := by
  rw [localSeen, localSeen, h]

/-- What is dropped has expired, unless too many keys are in use. -/
theorem expired_of_oldest {value : ℤ × DateTime} (hfits : LocalFits L key now) {oldest : String × ℤ × DateTime}
    (hlong : localFallbackMaxKeys < (L.put key value).entries.length)
    (holdest : oldestEntry (L.put key value) = some oldest) : oldest.2.2 ≤ now := by
  by_contra hlive
  have hall : ∀ entry ∈ (L.put key value).entries, now < entry.2.2 := fun entry hentry ↦
    (not_le.1 hlive).trans_le (List.le_of_mem_argmin (f := fun entry : String × ℤ × DateTime ↦ entry.2.2) hentry holdest)
  have hothers : (L.put key value).entries.filter (fun entry ↦ entry.1 ≠ key) =
      L.entries.filter fun entry ↦ entry.1 ≠ key ∧ now < entry.2.2 := by
    have hput := @Mapping.filter_put _ L key (fun entry ↦ decide (now < entry.2.2)) value
    simp only [decide_eq_true_eq] at hput
    rw [← hput]
    exact List.filter_congr fun entry hentry ↦ by simp [hall entry hentry]
  have hlength := @Mapping.length_le_others _ (L.put key value) key
  rw [hothers] at hlength
  rw [LocalFits] at hfits
  omega

/-- The counter goes up while it is seen, and begins at one. -/
theorem countedEntry_cases :
    (∃ count expiresAt, L.get? key = some (count, expiresAt) ∧ now < expiresAt ∧
        countedEntry L key now windowSeconds = (count + 1, expiresAt)) ∨
      (localSeen L key now = none ∧ countedEntry L key now windowSeconds = (1, now + timedelta windowSeconds)) := by
  rw [countedEntry, localSeen]
  rcases L.get? key with - | ⟨count, expiresAt⟩
  · exact .inr ⟨rfl, by simp⟩
  · by_cases hlive : now < expiresAt
    · exact .inl ⟨count, expiresAt, rfl, hlive, by simp [not_le.2 hlive]⟩
    · exact .inr ⟨by simp [Option.filter, hlive], by simp [not_lt.1 hlive]⟩

theorem countedEntry_fst : (countedEntry L key now windowSeconds).1 = (localSeen L key now).getD 0 + 1 := by
  rcases @countedEntry_cases L key now windowSeconds with ⟨count, expiresAt, hget, hlive, heq⟩ | ⟨hnone, heq⟩
  · rw [heq, localSeen_eq_some_iff.2 ⟨expiresAt, hget, hlive⟩, Option.getD_some]
  · rw [heq, hnone]
    rfl

/-- **What is dropped is not missed.** -/
theorem localSeen_dropOldest (hle : now ≤ later)
    (h : ∀ oldest, localFallbackMaxKeys < L.entries.length → oldestEntry L = some oldest → other = oldest.1 →
      oldest.2.2 ≤ now) : localSeen (dropOldest L) other later = localSeen L other later := by
  rw [dropOldest]
  split
  · next hlong =>
    split
    · next oldest holdest =>
      by_cases hother : other = oldest.1
      · have hget : L.get? other = some oldest.2 :=
          hother ▸ Mapping.get?_of_mem (List.argmin_mem holdest)
        rw [localSeen, localSeen, Mapping.get?_pop, if_pos hother, hget]
        have hdead : ¬later < oldest.2.2 := not_lt.2 ((h oldest hlong holdest hother).trans hle)
        simp [Option.filter, hdead]
      · exact localSeen_of_get? (by rw [Mapping.get?_pop, if_neg hother])
    · rfl
  · rfl

/-- A counter that is dropped is not seen at all. -/
theorem localSeen_of_dropOldest (h : localSeen (dropOldest L) other later = some c) :
    localSeen L other later = some c := by
  rw [dropOldest] at h
  split at h
  · split at h
    · next oldest _ =>
      obtain ⟨expiresAt, hget, hlive⟩ := localSeen_eq_some_iff.1 h
      rw [Mapping.get?_pop] at hget
      split at hget
      · exact nomatch hget
      · exact localSeen_eq_some_iff.2 ⟨expiresAt, hget, hlive⟩
    · exact h
  · exact h

/-- The counters of a process. -/
def localCounters : CounterStore LocalFallback String where
  increment L key now windowSeconds :=
    ((localIncrement L key now windowSeconds).1.1, (localIncrement L key now windowSeconds).2)
  read L key now := ((localRead L key now).1.map Prod.fst, (localRead L key now).2)
  clear L key := L.pop key
  seen := localSeen
  Fits := LocalFits
  seen_of_le hle h := by
    obtain ⟨expiresAt, hget, hlive⟩ := localSeen_eq_some_iff.1 h
    exact localSeen_eq_some_iff.2 ⟨expiresAt, hget, hle.trans_lt hlive⟩
  increment_count := countedEntry_fst
  increment_self hle h := by
    obtain ⟨expiresAt, hget, -⟩ := localSeen_eq_some_iff.1 (localSeen_of_dropOldest h)
    rw [Mapping.get?_put, if_pos rfl] at hget
    exact (congrArg Prod.fst (Option.some.inj hget)).symm
  increment_other {L key other now later windowSeconds} hfits hne hle := by
    have hput : (L.put key (countedEntry L key now windowSeconds)).get? other = L.get? other := by
      rw [Mapping.get?_put, if_neg hne]
    exact (localSeen_dropOldest hle fun oldest hlong holdest _ ↦ expired_of_oldest hfits hlong holdest).trans
      (localSeen_of_get? hput)
  read_count {L key now} := by
    show (localRead L key now).1.map Prod.fst = localSeen L key now
    rw [localRead, localSeen]
    rcases L.get? key with - | ⟨count, expiresAt⟩
    · rfl
    · by_cases hlive : now < expiresAt
      · simp [Option.filter, hlive, not_le.2 hlive]
      · simp [Option.filter, hlive, not_lt.1 hlive]
  read_seen {L key other now later} hle := by
    show localSeen (localRead L key now).2 other later = localSeen L other later
    rw [localRead]
    split
    · rfl
    · next count expiresAt hget =>
      split
      · next hexpired =>
        by_cases hother : other = key
        · rw [localSeen, localSeen, Mapping.get?_pop, if_pos hother, hother, hget]
          have hdead : ¬later < expiresAt := not_lt.2 (hexpired.trans hle)
          simp [Option.filter, hdead]
        · exact localSeen_of_get? (by rw [Mapping.get?_pop, if_neg hother])
      · rfl
  clear_self := by
    intro L key now
    show localSeen (L.pop key) key now = none
    rw [localSeen, Mapping.get?_pop, if_pos rfl]
    rfl
  clear_other hne := localSeen_of_get? (by rw [Mapping.get?_pop, if_neg hne])

instance (L : LocalFallback) (key : String) (now : DateTime) : Decidable (localCounters.Fits L key now) :=
  inferInstanceAs (Decidable (LocalFits L key now))

end Laws

/-! ### Redis -/

section Redis

variable {R : RateCounters} {key other : String} {now later : DateTime} {c windowSeconds : ℤ}

/-- A counter goes up by one, and is seen. -/
theorem incr_put : ∃ expiresAt, ExpiringStore.incr R key now = R.put key ((R.get key now).getD 0 + 1) expiresAt ∧
    ∀ t ∈ expiresAt, now ≤ t := by
  rw [ExpiringStore.incr, ExpiringStore.get]
  rcases R key with - | e
  · exact ⟨none, rfl, by rintro _ ⟨⟩⟩
  · by_cases hlive : e.Live now
    · exact ⟨e.expiresAt, by simp only [if_pos hlive, Option.getD_some], hlive⟩
    · exact ⟨none, by simp only [if_neg hlive, Option.getD_none, Int.zero_add], by rintro _ ⟨⟩⟩

/-- A counter that is written is there as it is counted, or it has been removed. -/
theorem expireIn_put (count : ℤ) (expiresAt : Option ℤ) :
    expireIn (R.put key count expiresAt) key now windowSeconds = R.delete key ∨
      ∃ t, expireIn (R.put key count expiresAt) key now windowSeconds = R.put key count t := by
  rw [expireIn]
  split
  · exact .inl (Function.update_idem ..)
  · rw [ExpiringStore.expire, ExpiringStore.put_self]
    dsimp only
    split
    · exact .inr ⟨_, Function.update_idem ..⟩
    · exact .inr ⟨expiresAt, rfl⟩

/-- **What the script does**: it counts, and the key has what it counted, or nothing. -/
theorem incrementWithTtl_spec :
    (incrementWithTtl R key now windowSeconds).1.1 = (R.get key now).getD 0 + 1 ∧
      ((incrementWithTtl R key now windowSeconds).2 = R.delete key ∨ ∃ expiresAt,
        (incrementWithTtl R key now windowSeconds).2 =
          R.put key (incrementWithTtl R key now windowSeconds).1.1 expiresAt) := by
  obtain ⟨expiresAt, hincr, hlive⟩ := @incr_put R key now
  have hcount : ((ExpiringStore.incr R key now).get key now).getD 0 = (R.get key now).getD 0 + 1 := by
    rw [hincr, ExpiringStore.get, ExpiringStore.put_self]
    exact congrArg (Option.getD · 0) (if_pos hlive)
  have hfst : (incrementWithTtl R key now windowSeconds).1.1 = (R.get key now).getD 0 + 1 := by
    rw [← hcount]
    rfl
  refine ⟨hfst, ?_⟩
  rw [hfst]
  have hsnd : (incrementWithTtl R key now windowSeconds).2 =
      if (R.get key now).getD 0 + 1 = 1 then expireIn (ExpiringStore.incr R key now) key now windowSeconds
      else ExpiringStore.incr R key now := by
    rw [← hcount]
    rfl
  rw [hsnd, hincr]
  split
  · exact expireIn_put _ _
  · exact .inr ⟨expiresAt, rfl⟩

theorem get_of_eq {R R' : RateCounters} (h : R' key = R key) : R'.get key now = R.get key now := by
  rw [ExpiringStore.get, ExpiringStore.get, h]

/-- The counters in Redis. The script that counts is one command. -/
def redisCounters : CounterStore RateCounters String where
  increment R key now windowSeconds :=
    ((incrementWithTtl R key now windowSeconds).1.1, (incrementWithTtl R key now windowSeconds).2)
  read R key now := (R.get key now, R)
  clear R key := clearRateLimit R key
  seen R key now := R.get key now
  Fits _ _ _ := True
  seen_of_le hle h := by
    obtain ⟨e, he, hlive, rfl⟩ := ExpiringStore.live_of_get h
    rw [ExpiringStore.get, he]
    exact if_pos fun t ht ↦ hle.trans (hlive t ht)
  increment_count {R key now windowSeconds} := (@incrementWithTtl_spec R key now windowSeconds).1
  increment_self {R key now later windowSeconds c} _ h := by
    rcases (@incrementWithTtl_spec R key now windowSeconds).2 with hgone | ⟨expiresAt, hput⟩
    · dsimp only at h
      rw [hgone, ExpiringStore.get_delete_self] at h
      exact nomatch h
    · obtain ⟨e, he, -, rfl⟩ := ExpiringStore.live_of_get h
      rw [hput, ExpiringStore.put_self] at he
      rw [← Option.some.inj he]
  increment_other {R key other now later windowSeconds} _ hne _ := by
    rcases (@incrementWithTtl_spec R key now windowSeconds).2 with hgone | ⟨expiresAt, hput⟩
    · exact get_of_eq (by rw [hgone]; exact Function.update_of_ne hne ..)
    · exact get_of_eq (by rw [hput]; exact Function.update_of_ne hne ..)
  read_count := rfl
  read_seen _ := rfl
  clear_self := ExpiringStore.get_delete_self ..
  clear_other hne := get_of_eq (Function.update_of_ne hne ..)

end Redis

end GenericApp
