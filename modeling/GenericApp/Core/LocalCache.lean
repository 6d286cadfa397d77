import GenericApp.Core.Cache
import GenericApp.Foundation.Recency

/-!
# What the cache of a process remembers

`_LocalTTLCache` keeps expiry, overwriting and the order of use in one dictionary. The history of its calls, the
latest first, says what a read returns (`ttlCache_keeps_latest`): the value of the latest `set` of the key, unless
that has expired, the key was deleted since, or some `set` has pushed the key out since. The last happens only to
a key behind which `maxsize` others were used.

An entry that a read finds expired is removed at once. That the clock does not go back is what makes such an entry
as good as expired later.
-/

namespace GenericApp

open Py

/-- `_LocalTTLCache(maxsize)`: a value, and the instant from which it has expired. -/
abbrev BoundedTTLCache (V : Type) (maxsize : ℕ) := RecencyDict String (Option V × DateTime) maxsize

namespace BoundedTTLCache

variable {V : Type} {maxsize : ℕ}

/-- `_LocalTTLCache.get` -/
def get (L : BoundedTTLCache V maxsize) (key : String) (now : DateTime) : Option V × BoundedTTLCache V maxsize :=
  match RecencyDict.get L key with
  | none => (none, L)
  | some (value, expiresAt) =>
    if expiresAt ≤ now then (none, L.erase key) else (value, L.put key (value, expiresAt))

/-- `_LocalTTLCache.set` -/
def set (L : BoundedTTLCache V maxsize) (key : String) (value : Option V) (ttlSeconds : ℤ) (now : DateTime) :
    BoundedTTLCache V maxsize :=
  L.put key (value, now + timedelta ttlSeconds)

/-- `_LocalTTLCache.delete` -/
def delete (L : BoundedTTLCache V maxsize) (keys : List String) : BoundedTTLCache V maxsize := L.eraseAll keys

/-- The cache of a process is the one of 64 entries. -/
theorem localTTLCache_eq (L : LocalTTLCache V) (key : String) (value : Option V) (ttlSeconds : ℤ)
    (keys : List String) (now : DateTime) :
    L.get key now = @get V 64 L key now ∧
      L.set key value ttlSeconds now = @set V 64 L key value ttlSeconds now ∧
      L.delete keys = @delete V 64 L keys :=
  ⟨rfl, rfl, rfl⟩

/-- What a read returns is in the dictionary and has not expired. -/
theorem mem_of_get {L : BoundedTTLCache V maxsize} {key : String} {now : DateTime} {v : V}
    (h : (L.get key now).1 = some v) :
    ∃ expiresAt, RecencyDict.get L key = some (some v, expiresAt) ∧ now < expiresAt := by
  rw [get] at h
  split at h
  · cases h
  · next value expiresAt hget =>
    split at h
    · cases h
    · next hlive => exact ⟨expiresAt, h ▸ hget, not_le.1 hlive⟩

/-! ### Histories -/

/-- A call of one of the methods. -/
inductive Call (V : Type)
  | set (key : String) (value : Option V) (ttlSeconds : ℤ)
  | get (key : String)
  | delete (keys : List String)

/-- A call, and what the clock showed. -/
structure Event (V : Type) where
  call : Call V
  now : DateTime

/-- Calls, the latest first. -/
abbrev History (V : Type) := List (Event V)

/-- The clock does not go back. -/
def Clocked (h : History V) : Prop := h.Pairwise fun later earlier ↦ earlier.now ≤ later.now

def step (L : BoundedTTLCache V maxsize) (e : Event V) : BoundedTTLCache V maxsize :=
  match e.call with
  | .set key value ttlSeconds => L.set key value ttlSeconds e.now
  | .get key => (L.get key e.now).2
  | .delete keys => L.delete keys

/-- The cache after the calls. -/
def run : History V → BoundedTTLCache V maxsize
  | [] => RecencyDict.empty
  | e :: h => step (run h) e

/-- The read would be answered by an entry that has not expired. -/
def hits (L : BoundedTTLCache V maxsize) (key : String) (now : DateTime) : Bool :=
  (RecencyDict.get L key).any fun entry ↦ decide (now < entry.2)

/-- The key that a call uses: one that is set or successfully read. -/
def Event.uses (L : BoundedTTLCache V maxsize) (e : Event V) : Option String :=
  match e.call with
  | .set key _ _ => some key
  | .get key => if L.hits key e.now then some key else none
  | .delete _ => none

/-- The keys that were set or successfully read, the latest first. -/
def used (maxsize : ℕ) : History V → List String
  | [] => []
  | e :: h => (e.uses (run h : BoundedTTLCache V maxsize)).toList ++ used maxsize h

/-- A `set` pushes the key out. -/
def Evicts (L : BoundedTTLCache V maxsize) (e : Event V) (key : String) : Prop :=
  match e.call with
  | .set _ _ _ => key ∈ L.keys ∧ key ∉ (L.step e).keys
  | _ => False

/-- The value of the latest `set` of the key, and when that expires. -/
def latestSet (h : History V) (key : String) : Option (Option V × DateTime) :=
  h.findSome? fun e ↦
    match e.call with
    | .set k value ttlSeconds => if k = key then some (value, e.now + timedelta ttlSeconds) else none
    | _ => none

/-- The calls since the latest `set` of the key, each with those before it. -/
def sinceSet (key : String) : History V → List (Event V × History V)
  | [] => []
  | e :: h =>
    match e.call with
    | .set k _ _ => if k = key then [] else (e, h) :: sinceSet key h
    | _ => (e, h) :: sinceSet key h

def Event.deletes (e : Event V) (key : String) : Prop := ∃ keys, e.call = .delete keys ∧ key ∈ keys

/-- The key was deleted after its latest `set`. -/
def Deleted (h : History V) (key : String) : Prop := ∃ p ∈ sinceSet key h, p.1.deletes key

/-- The key was pushed out after its latest `set`. -/
def Evicted (maxsize : ℕ) (h : History V) (key : String) : Prop :=
  ∃ p ∈ sinceSet key h, Evicts (run p.2 : BoundedTTLCache V maxsize) p.1 key

/-! ### What one call does to a lookup -/

section Step

variable {L : BoundedTTLCache V maxsize} {h : History V} {e : Event V} {key : String}

theorem sinceSet_set {value : Option V} {ttlSeconds : ℤ} (he : e.call = .set key value ttlSeconds) :
    sinceSet key (e :: h) = [] ∧ latestSet (e :: h) key = some (value, e.now + timedelta ttlSeconds) := by
  simp [sinceSet, latestSet, he]

theorem sinceSet_other (he : ∀ value ttlSeconds, e.call ≠ .set key value ttlSeconds) :
    sinceSet key (e :: h) = (e, h) :: sinceSet key h ∧ latestSet (e :: h) key = latestSet h key := by
  rcases hcall : e.call with ⟨k, value, ttlSeconds⟩ | k | keys
  · have hk : k ≠ key := fun hk ↦ he value ttlSeconds (hk ▸ hcall)
    simp [sinceSet, latestSet, hcall, hk]
  · simp [sinceSet, latestSet, hcall]
  · simp [sinceSet, latestSet, hcall]

theorem deleted_cons (he : ∀ value ttlSeconds, e.call ≠ .set key value ttlSeconds) :
    Deleted (e :: h) key ↔ e.deletes key ∨ Deleted h key := by
  rw [Deleted, (sinceSet_other he).1, List.exists_mem_cons_iff]
  rfl

theorem evicted_cons (he : ∀ value ttlSeconds, e.call ≠ .set key value ttlSeconds) :
    Evicted maxsize (e :: h) key ↔
      Evicts (run h : BoundedTTLCache V maxsize) e key ∨ Evicted maxsize h key := by
  rw [Evicted, (sinceSet_other he).1, List.exists_mem_cons_iff]
  rfl

/-- **A read leaves every lookup as it was**, but for an entry that has expired. -/
theorem lookup_get (k : String) (now : DateTime) :
    RecencyDict.get (L.get k now).2 key = RecencyDict.get L key ∨
      (RecencyDict.get (L.get k now).2 key = none ∧
        ∃ entry, RecencyDict.get L key = some entry ∧ entry.2 ≤ now) := by
  rw [get]
  split
  · exact .inl rfl
  · next value expiresAt hget =>
    split
    · next hexpired =>
      rw [RecencyDict.get_erase]
      rcases eq_or_ne key k with rfl | hne
      · exact .inr ⟨if_pos rfl, (value, expiresAt), hget, hexpired⟩
      · exact .inl (if_neg hne)
    · refine .inl ?_
      rw [RecencyDict.get_put_of_mem (RecencyDict.mem_keys_iff_isSome.2 (by rw [hget]; rfl))]
      split
      · next heq => rw [heq, hget]
      · rfl

theorem lookup_delete (keys : List String) :
    RecencyDict.get (L.delete keys) key = if key ∈ keys then none else RecencyDict.get L key := by
  refine Option.ext fun entry ↦ ?_
  rw [RecencyDict.get_eq_some_iff, delete, RecencyDict.mem_eraseAll]
  split
  · next hmem => simp [hmem]
  · next hmem => rw [RecencyDict.get_eq_some_iff, and_iff_left hmem]

/-- **A call that does not set a key leaves the lookup as it was**, or there is a reason for its absence. -/
theorem lookup_step (he : ∀ value ttlSeconds, e.call ≠ .set key value ttlSeconds) :
    (RecencyDict.get (L.step e) key = RecencyDict.get L key ∧
        (RecencyDict.get L key ≠ none → ¬ e.deletes key ∧ ¬ Evicts L e key)) ∨
      (RecencyDict.get (L.step e) key = none ∧
        (e.deletes key ∨ Evicts L e key ∨ ∃ entry, RecencyDict.get L key = some entry ∧ entry.2 ≤ e.now)) := by
  obtain ⟨call, now⟩ := e
  cases call with
  | set k value ttlSeconds =>
    have hne : key ≠ k := fun hk ↦ he value ttlSeconds (hk ▸ rfl)
    by_cases hstays : key ∈ (L.set k value ttlSeconds now).keys
    · exact .inl ⟨RecencyDict.get_put_of_ne hne hstays, fun _ ↦ ⟨nofun, fun hout ↦ hout.2 hstays⟩⟩
    · have hgone : RecencyDict.get (L.set k value ttlSeconds now) key = none := by
        rwa [RecencyDict.mem_keys_iff_isSome, Option.not_isSome_iff_eq_none] at hstays
      by_cases hwas : key ∈ L.keys
      · exact .inr ⟨hgone, .inr (.inl ⟨hwas, hstays⟩)⟩
      · rw [RecencyDict.mem_keys_iff_isSome, Option.not_isSome_iff_eq_none] at hwas
        exact .inl ⟨hgone.trans hwas.symm, fun hsome ↦ absurd hwas hsome⟩
  | get k =>
    rcases @lookup_get _ _ L key k now with hsame | ⟨hgone, hexpired⟩
    · exact .inl ⟨hsame, fun _ ↦ ⟨nofun, id⟩⟩
    · exact .inr ⟨hgone, .inr (.inr hexpired)⟩
  | delete keys =>
    have hlookup := @lookup_delete _ _ L key keys
    split at hlookup
    · next hmem => exact .inr ⟨hlookup, .inl ⟨keys, rfl, hmem⟩⟩
    · next hmem =>
      refine .inl ⟨hlookup, fun _ ↦ ⟨?_, id⟩⟩
      rintro ⟨_, ⟨⟩, hin⟩
      exact hmem hin

end Step

/-! ### What a history says of the cache -/

/-- What the cache has under a key, and what the history says of it. -/
structure Tells (L : BoundedTTLCache V maxsize) (h : History V) (key : String) : Prop where
  present : ∀ entry, RecencyDict.get L key = some entry →
    latestSet h key = some entry ∧ ¬ Deleted h key ∧ ¬ Evicted maxsize h key
  absent : RecencyDict.get L key = none → ∀ entry, latestSet h key = some entry →
    Deleted h key ∨ Evicted maxsize h key ∨ ∃ e ∈ h, entry.2 ≤ e.now

theorem Tells.step {h : History V} {e : Event V} {key : String} (hmax : 1 ≤ maxsize)
    (ht : Tells (run h : BoundedTTLCache V maxsize) h key) :
    Tells (run (e :: h) : BoundedTTLCache V maxsize) (e :: h) key := by
  by_cases hset : ∃ value ttlSeconds, e.call = .set key value ttlSeconds
  · obtain ⟨value, ttlSeconds, he⟩ := hset
    obtain ⟨hsince, hlatest⟩ := sinceSet_set (h := h) he
    have hlookup : RecencyDict.get (run (e :: h) : BoundedTTLCache V maxsize) key =
        some (value, e.now + timedelta ttlSeconds) := by
      rw [run, BoundedTTLCache.step, he]
      exact RecencyDict.get_put_self hmax
    rw [← hlatest] at hlookup
    refine ⟨fun entry hentry ↦ ⟨hlookup ▸ hentry, ?_, ?_⟩, fun hnone entry hentry ↦ ?_⟩
    · simp [Deleted, hsince]
    · simp [Evicted, hsince]
    · rw [hlookup, hentry] at hnone
      exact nomatch hnone
  · have he : ∀ value ttlSeconds, e.call ≠ .set key value ttlSeconds := fun value ttlSeconds heq ↦
      hset ⟨value, ttlSeconds, heq⟩
    have hlatest := (sinceSet_other (h := h) he).2
    rcases lookup_step (L := (run h : BoundedTTLCache V maxsize)) he with ⟨hsame, hstays⟩ | ⟨hgone, hreason⟩
    · refine ⟨fun entry hentry ↦ ?_, fun hnone entry hentry ↦ ?_⟩
      · have hbefore := hsame.symm.trans hentry
        obtain ⟨hknown, hkept, hheld⟩ := ht.present entry hbefore
        obtain ⟨hdel, hev⟩ := hstays (by rw [hbefore]; exact Option.some_ne_none _)
        rw [deleted_cons he, evicted_cons he]
        exact ⟨hlatest.trans hknown, not_or.2 ⟨hdel, hkept⟩, not_or.2 ⟨hev, hheld⟩⟩
      · rw [deleted_cons he, evicted_cons he]
        rcases ht.absent (hsame.symm.trans hnone) entry (hlatest.symm.trans hentry) with
          hdel | hev | ⟨f, hf, hover⟩
        · exact .inl (.inr hdel)
        · exact .inr (.inl (.inr hev))
        · exact .inr (.inr ⟨f, List.mem_cons_of_mem _ hf, hover⟩)
    · refine ⟨fun entry hentry ↦ absurd (hgone.symm.trans hentry) nofun, fun _ entry hentry ↦ ?_⟩
      rw [deleted_cons he, evicted_cons he]
      rcases hreason with hdel | hev | ⟨old, hold, hover⟩
      · exact .inl (.inl hdel)
      · exact .inr (.inl (.inl hev))
      · have heq := (ht.present old hold).1.symm.trans (hlatest.symm.trans hentry)
        obtain rfl := Option.some.inj heq
        exact .inr (.inr ⟨e, List.mem_cons_self, hover⟩)

theorem tells_run (hmax : 1 ≤ maxsize) (key : String) :
    ∀ h : History V, Tells (run h : BoundedTTLCache V maxsize) h key
  | [] => ⟨nofun, nofun⟩
  | _ :: h => (tells_run hmax key h).step hmax

/-! ### The order of use -/

/-- The keys stand in the order in which the history has used them, and all were used. -/
theorem used_run : ∀ h : History V, (run h : BoundedTTLCache V maxsize).InOrder (used maxsize h) ∧
    ∀ k ∈ (run h : BoundedTTLCache V maxsize).keys, k ∈ used maxsize h
  | [] => ⟨RecencyDict.inOrder_empty, nofun⟩
  | e :: h => by
    obtain ⟨horder, hused⟩ := used_run h
    rw [run, used]
    generalize hL : (run h : BoundedTTLCache V maxsize) = L at horder hused ⊢
    obtain ⟨call, now⟩ := e
    -- A key that is put last is the one that the call uses.
    have hput : ∀ k a, (L.put k a).InOrder (k :: used maxsize h) ∧
        ∀ j ∈ (L.put k a).keys, j ∈ k :: used maxsize h := fun k a ↦
      ⟨horder.put, fun j hj ↦ List.mem_cons.2 ((RecencyDict.mem_keys_put hj).imp_right (hused j))⟩
    have herase : ∀ k, (L.erase k).InOrder (used maxsize h) ∧ ∀ j ∈ (L.erase k).keys, j ∈ used maxsize h :=
      fun k ↦ ⟨horder.erase, fun j hj ↦ hused j (RecencyDict.mem_keys_erase.1 hj).1⟩
    cases call with
    | set k value ttlSeconds => exact hput k _
    | get k =>
      show ((L.get k now).2).InOrder _ ∧ ∀ j ∈ ((L.get k now).2).keys, _
      rw [get, Event.uses]
      split
      · next hget => simpa [hits, hget] using ⟨horder, hused⟩
      · next value expiresAt hget =>
        split
        · next hexpired => simpa [hits, hget, not_lt.2 hexpired] using herase k
        · next hlive => simpa [hits, hget, not_le.1 hlive] using hput k (value, expiresAt)
    | delete keys =>
      exact ⟨horder.eraseAll keys, fun j hj ↦ hused j (RecencyDict.mem_keys_eraseAll.1 hj).1⟩

/-- **What is pushed out was followed by `maxsize` other keys** since its own last use. -/
theorem maxsize_le_of_evicts {h : History V} {e : Event V} {key : String} (hmax : 1 ≤ maxsize)
    (hev : Evicts (run h : BoundedTTLCache V maxsize) e key) :
    key ∈ used maxsize h ∧
      maxsize ≤ (RecencyDict.usedSince (used maxsize (e :: h)) key).toFinset.card := by
  obtain ⟨horder, hused⟩ := @used_run V maxsize h
  obtain ⟨call, now⟩ := e
  cases call with
  | set k value ttlSeconds =>
    obtain ⟨hin, hout⟩ := hev
    refine ⟨hused key hin, RecencyDict.bound_le_of_dropped horder hin ?_ hout⟩
    rintro rfl
    refine hout (RecencyDict.mem_keys_iff_isSome.2 ?_)
    show (RecencyDict.get (RecencyDict.put _ _ _) _).isSome = true
    rw [RecencyDict.get_put_self hmax, Option.isSome_some]
  | get k => exact hev.elim
  | delete keys => exact hev.elim

/-! ### The laws of the cache -/

/-- **The bounded cache keeps the latest values.** After any calls, it has no more than `maxsize` entries. What a
read returns was set by the latest `set` of the key, which was not deleted or pushed out since, and its time is not
over; the value of the latest `set` is returned unless one of the three has happened. And a key that is pushed out
was followed by `maxsize` other keys since it was last set or successfully read. -/
theorem ttlCache_keeps_latest (hmax : 1 ≤ maxsize) (h : History V) :
    (run h : BoundedTTLCache V maxsize).entries.length ≤ maxsize ∧
      (∀ key now, Clocked (⟨.get key, now⟩ :: h) →
        (∀ v, ((run h : BoundedTTLCache V maxsize).get key now).1 = some v →
          ∃ expiresAt, latestSet h key = some (some v, expiresAt) ∧ now < expiresAt ∧
            ¬ Deleted h key ∧ ¬ Evicted maxsize h key) ∧
        ∀ value expiresAt, latestSet h key = some (value, expiresAt) → now < expiresAt →
          ¬ Deleted h key → ¬ Evicted maxsize h key →
            ((run h : BoundedTTLCache V maxsize).get key now).1 = value) ∧
      ∀ e key, Evicts (run h : BoundedTTLCache V maxsize) e key →
        key ∈ used maxsize h ∧
          maxsize ≤ (RecencyDict.usedSince (used maxsize (e :: h)) key).toFinset.card := by
  refine ⟨(run h).bounded, fun key now hclock ↦ ?_, fun e key ↦ maxsize_le_of_evicts hmax⟩
  have ht := tells_run (V := V) hmax key h
  refine ⟨fun v hv ↦ ?_, fun value expiresAt hlatest hlive hkept hheld ↦ ?_⟩
  · obtain ⟨expiresAt, hget, hlive⟩ := mem_of_get hv
    obtain ⟨hlatest, hkept, hheld⟩ := ht.present _ hget
    exact ⟨expiresAt, hlatest, hlive, hkept, hheld⟩
  · rcases hget : RecencyDict.get (run h : BoundedTTLCache V maxsize) key with - | entry
    · -- An entry that was found expired would have expired now, since the clock does not go back.
      rcases ht.absent hget _ hlatest with hdel | hev | ⟨e, he, hover⟩
      · exact absurd hdel hkept
      · exact absurd hev hheld
      · exact absurd hlive (not_lt.2 (hover.trans ((List.pairwise_cons.1 hclock).1 e he)))
    · obtain rfl := Option.some.inj ((ht.present _ hget).1.symm.trans hlatest)
      rw [get, hget]
      exact congrArg Prod.fst (if_neg (not_le.2 hlive))

/-- A cache of two entries: `a` is read, so that the third key pushes out `b`. -/
theorem ttlCache_keeps_latest_two :
    let h : History ℕ := [⟨.get "a", 3⟩, ⟨.set "b" (some 2) 60, 2⟩, ⟨.set "a" (some 1) 60, 1⟩]
    ((run h : BoundedTTLCache ℕ 2).get "a" 4).1 = some 1 ∧
      2 ≤ (RecencyDict.usedSince (used 2 (⟨.set "c" none 60, 4⟩ :: h)) "b").toFinset.card := by
  intro h
  obtain ⟨-, hread, hout⟩ := @ttlCache_keeps_latest ℕ 2 (by decide) h
  refine ⟨(hread "a" 4 ?_).2 (some 1) (1 + timedelta 60) rfl (by decide) ?_ ?_, (hout _ "b" ?_).2⟩
  · simp [Clocked, h]
  · rintro ⟨p, hp, keys, hcall, -⟩
    obtain rfl | rfl : p = _ ∨ p = _ := by simpa [sinceSet, h] using hp
    all_goals exact nomatch hcall
  · rintro ⟨p, hp, hev⟩
    obtain rfl | rfl : p = _ ∨ p = _ := by simpa [sinceSet, h] using hp
    · exact hev
    · exact absurd (by decide) hev.2
  · exact ⟨by decide, by decide⟩

end BoundedTTLCache

end GenericApp
