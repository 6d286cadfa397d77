import Mathlib.Data.List.Dedup
import GenericApp.Foundation.Python

/-!
# Dictionaries with string keys

The operations of a dictionary that keeps its keys in the order of insertion: looking up, writing under a key,
and writing all the entries of another one over it. That no key occurs twice is kept by each of them, so that
lookups determine a dictionary up to the order of its keys.

`get?_put` and `get?_update` are the laws of the writes; the rest is read off them.
-/

namespace Py.Mapping

variable {α : Type} (d e : Mapping α) (key : String) (value : α)

/-- The keys, in the order of insertion. -/
def keys : List String := d.entries.map Prod.fst

/-- `d.get(key)` -/
def get? : Option α := d.entries.lookup key

/-- `{}` -/
def empty : Mapping α := ⟨[], List.nodup_nil⟩

/-- The entry under `key`, with the new value. -/
def replaceEntry (entry : String × α) : String × α := if entry.1 = key then (key, value) else entry

theorem fst_replaceEntry (entry : String × α) : (replaceEntry key value entry).1 = entry.1 := by
  rw [replaceEntry]
  split
  · next h => exact h.symm
  · rfl

theorem keys_replace (entries : List (String × α)) :
    (entries.map (replaceEntry key value)).map Prod.fst = entries.map Prod.fst := by
  rw [List.map_map]
  exact List.map_congr_left fun entry _ ↦ fst_replaceEntry key value entry

/-- `d[key] = value`: a key that is there keeps its place. -/
def put : Mapping α :=
  if h : key ∈ d.keys then
    ⟨d.entries.map (replaceEntry key value), by rw [keys_replace]; exact d.nodup⟩
  else
    ⟨d.entries ++ [(key, value)], by
      rw [List.map_append, List.map_singleton]
      exact d.nodup.append (List.nodup_singleton _) (List.disjoint_singleton.2 h)⟩

/-- The entries of a list, written one after the other. -/
def putAll (entries : List (String × α)) : Mapping α :=
  entries.foldl (fun d entry ↦ d.put entry.1 entry.2) d

/-- `{**d, **e}` -/
def update : Mapping α := d.putAll e.entries

/-- The dictionary of a list of entries, the last of those under one key being the one that counts. -/
def ofEntries (entries : List (String × α)) : Mapping α := empty.putAll entries

variable {d e key value} {other : String}

/-! ### Lookups -/

@[simp] theorem get?_empty : (empty : Mapping α).get? other = none := rfl

theorem get?_eq_none_iff : d.get? other = none ↔ other ∉ d.keys := by
  rw [get?, keys, List.lookup_eq_none_iff]
  simp only [List.mem_map, not_exists, not_and]
  constructor
  · rintro h entry hentry rfl
    have hne : entry.1 ≠ entry.1 := by simpa using h entry hentry
    exact hne rfl
  · intro h entry hentry
    simpa using fun heq ↦ h entry hentry heq.symm

theorem lookup_replace (entries : List (String × α)) :
    (entries.map (replaceEntry key value)).lookup other =
      if other = key then (entries.lookup other).map fun _ ↦ value else entries.lookup other := by
  induction entries with
  | nil => simp
  | cons entry entries ih =>
    obtain ⟨k, v⟩ := entry
    by_cases hkey : k = key
    · subst hkey
      by_cases hother : other = k
      · simp [replaceEntry, hother]
      · simpa [replaceEntry, List.lookup_cons, beq_eq_false_iff_ne.2 hother, hother] using ih
    · by_cases hother : other = k
      · subst hother
        simp [replaceEntry, hkey]
      · simpa [replaceEntry, hkey, List.lookup_cons, beq_eq_false_iff_ne.2 hother] using ih

/-- **The law of a write.** -/
@[simp] theorem get?_put : (d.put key value).get? other = if other = key then some value else d.get? other := by
  rw [put]
  split
  · next hthere =>
    show (d.entries.map (replaceEntry key value)).lookup other = _
    rw [lookup_replace]
    by_cases hother : other = key
    · subst hother
      rcases hget : d.get? other with - | v
      · exact absurd hthere (get?_eq_none_iff.1 hget)
      · have hlookup : d.entries.lookup other = some v := hget
        rw [if_pos rfl, if_pos rfl, hlookup, Option.map_some]
    · rw [if_neg hother, if_neg hother, get?]
  · next hnew =>
    show (d.entries ++ [(key, value)]).lookup other = _
    rw [List.lookup_append]
    by_cases hother : other = key
    · subst hother
      have hnone : d.entries.lookup other = none := get?_eq_none_iff.2 hnew
      rw [hnone, if_pos rfl, Option.none_or, List.lookup_cons_self]
    · rw [if_neg hother, List.lookup_cons, beq_eq_false_iff_ne.2 hother, List.lookup_nil, Option.or_none,
        get?]

/-- What is written last under a key counts. -/
theorem get?_putAll (entries : List (String × α)) :
    (d.putAll entries).get? other = (entries.reverse.lookup other).or (d.get? other) := by
  induction entries generalizing d with
  | nil => rfl
  | cons entry entries ih =>
    obtain ⟨k, v⟩ := entry
    show ((d.put k v).putAll entries).get? other = _
    rw [ih, get?_put, List.reverse_cons, List.lookup_append]
    by_cases hother : other = k
    · subst hother
      rw [if_pos rfl, List.lookup_cons_self, Option.or_assoc, Option.some_or]
    · rw [if_neg hother, List.lookup_cons, beq_eq_false_iff_ne.2 hother, List.lookup_nil, Option.or_none]

/-- In a list without repeated keys the order does not matter to a lookup. -/
theorem lookup_reverse {entries : List (String × α)} (h : (entries.map Prod.fst).Nodup) :
    entries.reverse.lookup other = entries.lookup other := by
  induction entries with
  | nil => rfl
  | cons entry entries ih =>
    obtain ⟨k, v⟩ := entry
    rw [List.map_cons, List.nodup_cons] at h
    rw [List.reverse_cons, List.lookup_append, ih h.2]
    by_cases hother : other = k
    · subst hother
      have hnone : entries.lookup other = none := by
        rw [List.lookup_eq_none_iff]
        intro entry hentry
        have hne : other ≠ entry.1 := fun heq ↦ h.1 (List.mem_map.2 ⟨entry, hentry, heq.symm⟩)
        simpa using hne
      rw [hnone, Option.none_or, List.lookup_cons_self, List.lookup_cons_self]
    · rw [List.lookup_cons, List.lookup_cons, beq_eq_false_iff_ne.2 hother, List.lookup_nil,
        Option.or_none]

/-- **The law of a dictionary written over another.** -/
@[simp] theorem get?_update : (d.update e).get? other = (e.get? other).or (d.get? other) := by
  rw [update, get?_putAll, lookup_reverse e.nodup]
  rfl

theorem mem_keys_iff : other ∈ d.keys ↔ (d.get? other).isSome := by
  rw [← not_iff_not, ← get?_eq_none_iff, Option.not_isSome_iff_eq_none]

theorem mem_keys_putAll {entries : List (String × α)} :
    other ∈ (d.putAll entries).keys ↔ other ∈ entries.map Prod.fst ∨ other ∈ d.keys := by
  have hlookup : (entries.reverse.lookup other).isSome ↔ other ∈ entries.map Prod.fst := by
    rw [List.lookup_isSome_iff, List.mem_map]
    refine exists_congr fun entry ↦ ?_
    rw [List.mem_reverse, beq_iff_eq, eq_comm]
  rw [mem_keys_iff, mem_keys_iff, get?_putAll, Option.isSome_or, Bool.or_eq_true, hlookup]

/-- Entries without repeated keys are what their keys are looked up as. -/
theorem get?_ofEntries {entries : List (String × α)} (h : (entries.map Prod.fst).Nodup) :
    (ofEntries entries).get? other = entries.lookup other := by
  rw [ofEntries, get?_putAll, lookup_reverse h, get?_empty, Option.or_none]

/-! ### Entries -/

theorem mem_of_get? (h : d.get? key = some value) : (key, value) ∈ d.entries := by
  obtain ⟨left, right, hentries, -⟩ := List.lookup_eq_some_iff.1 h
  rw [hentries]
  exact List.mem_append_right _ List.mem_cons_self

/-- An entry is what its key is looked up as. -/
theorem get?_of_mem {entry : String × α} (h : entry ∈ d.entries) : d.get? entry.1 = some entry.2 := by
  rcases hget : d.get? entry.1 with - | found
  · exact absurd (List.mem_map_of_mem h) (get?_eq_none_iff.1 hget)
  · have hfound : (entry.1, found) = entry := List.inj_on_of_nodup_map d.nodup (mem_of_get? hget) h rfl
    exact congrArg some (congrArg Prod.snd hfound)

/-! ### Places -/

/-- A new key comes last. -/
theorem entries_put_of_none (value : α) (h : d.get? key = none) :
    (d.put key value).entries = d.entries ++ [(key, value)] := by
  rw [put, dif_neg (get?_eq_none_iff.1 h)]

theorem replaceEntry_of_not_mem {entries : List (String × α)} (h : key ∉ entries.map Prod.fst) :
    entries.map (replaceEntry key value) = entries := by
  refine (List.map_congr_left fun entry hentry ↦ ?_).trans (List.map_id _)
  exact if_neg fun heq ↦ h (List.mem_map.2 ⟨entry, hentry, heq⟩)

/-- A key that is there keeps its place. -/
theorem entries_put_of_some {old : α} (value : α) (h : d.get? key = some old) :
    ∃ left right, d.entries = left ++ (key, old) :: right ∧
      (d.put key value).entries = left ++ (key, value) :: right := by
  obtain ⟨left, right, hentries, -⟩ := List.lookup_eq_some_iff.1 h
  refine ⟨left, right, hentries, ?_⟩
  have hthere : key ∈ d.keys := by
    rw [keys, hentries]
    simp
  have hnodup := d.nodup
  rw [hentries, List.map_append, List.map_cons, List.nodup_append, List.nodup_cons] at hnodup
  obtain ⟨-, ⟨hright, -⟩, hdisjoint⟩ := hnodup
  have hleft : key ∉ left.map Prod.fst := fun hmem ↦ hdisjoint key hmem key List.mem_cons_self rfl
  rw [put, dif_pos hthere]
  show d.entries.map (replaceEntry key value) = _
  rw [hentries, List.map_append, List.map_cons, replaceEntry_of_not_mem hleft, replaceEntry_of_not_mem hright,
    replaceEntry, if_pos rfl]

end Py.Mapping
