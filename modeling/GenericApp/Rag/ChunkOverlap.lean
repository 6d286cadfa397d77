import GenericApp.Foundation.Borders
import GenericApp.Rag.ChunkingService
import Mathlib.Data.Nat.Find

/-!
# The overlap of two pieces

`prefix_suffix_overlap` is the longest suffix of the previous piece that the current one begins with. Its loop fills
the table of longest borders of the current piece, a separator and the previous one, both clipped to the length of
the shorter. The separator is `NUL`, which the pieces must not contain.

`lpsRounds` is the state of the loop after some of its rounds. `LpsInvariant` is what the loop keeps: every entry so
far is a longest border, and no border longer than `length` can be lengthened.
-/

namespace GenericApp

/-! ### The loop -/

/-- The table, `length` and `index` after some rounds of the loop; a loop that has ended stays as it is. -/
def lpsRounds (probe : List Char) : ℕ → List ℕ × ℕ × ℕ → List ℕ × ℕ × ℕ
  | 0, state => state
  | rounds + 1, (lps, length, index) =>
    if index < probe.length then
      if probe[index]? = probe[length]? then
        lpsRounds probe rounds (lps.set index (length + 1), length + 1, index + 1)
      else if length ≠ 0 then lpsRounds probe rounds (lps, lps.getD (length - 1) 0, index)
      else lpsRounds probe rounds (lps.set index 0, length, index + 1)
    else (lps, length, index)

theorem fst_lpsRounds (probe : List Char) (rounds : ℕ) (lps : List ℕ) (length index : ℕ) :
    (lpsRounds probe rounds (lps, length, index)).1 = lpsLoop probe rounds lps length index := by
  induction rounds generalizing lps length index with
  | zero => rfl
  | succ rounds ih =>
    rw [lpsRounds, lpsLoop]
    split
    · split
      · exact ih _ _ _
      · split
        · exact ih _ _ _
        · exact ih _ _ _
    · rfl

/-- What the loop keeps. -/
structure LpsInvariant (probe : List Char) (lps : List ℕ) (length index : ℕ) : Prop where
  size : lps.length = probe.length
  within : index ≤ probe.length
  lt : length < index
  entries : ∀ i < index, ∃ l, lps[i]? = some l ∧ LongestBorder probe (i + 1) l
  border : Border probe index length
  longest : ∀ k < index, Border probe (index + 1) (k + 1) → k ≤ length

variable {probe : List Char} {lps : List ℕ} {length index : ℕ}

theorem lpsInvariant_start (h : probe ≠ []) : LpsInvariant probe (List.replicate probe.length 0) 0 1 where
  size := List.length_replicate
  within := List.length_pos_of_ne_nil h
  lt := Nat.one_pos
  entries i hi := by
    obtain rfl : i = 0 := by omega
    exact ⟨0, by rw [List.getElem?_replicate_of_lt (List.length_pos_of_ne_nil h)], longestBorder_one⟩
  border := border_zero
  longest k hk _ := by omega

namespace LpsInvariant

/-- Entering the longest border at `index`. -/
theorem enter (h : LpsInvariant probe lps length index) (hindex : index < probe.length) {l : ℕ}
    (hl : LongestBorder probe (index + 1) l) : LpsInvariant probe (lps.set index l) l (index + 1) where
  size := List.length_set.trans h.size
  within := hindex
  lt := hl.lt
  entries i hi := by
    rcases Nat.lt_succ_iff_lt_or_eq.1 hi with hi | rfl
    · obtain ⟨m, hm, hlongest⟩ := h.entries i hi
      exact ⟨m, by rw [List.getElem?_set_ne (by omega), hm], hlongest⟩
    · exact ⟨l, List.getElem?_set_self (by rw [h.size]; exact hindex), hl⟩
  border := hl.border
  longest k hk hborder := hl.longest k hk (border_succ_iff.1 hborder).1

/-- A border that can be lengthened. -/
theorem lengthen (h : LpsInvariant probe lps length index) (hindex : index < probe.length)
    (hmatch : probe[index]? = probe[length]?) :
    LpsInvariant probe (lps.set index (length + 1)) (length + 1) (index + 1) :=
  h.enter hindex (.succ h.border h.lt hmatch.symm h.longest)

/-- A border that cannot be lengthened gives way to its own longest one. -/
theorem fallBack (h : LpsInvariant probe lps length index) (hmismatch : probe[index]? ≠ probe[length]?)
    (hlength : length ≠ 0) : LpsInvariant probe lps (lps.getD (length - 1) 0) index ∧
      lps.getD (length - 1) 0 < length := by
  have hlt := h.lt
  obtain ⟨m, hm, hlongest⟩ := h.entries (length - 1) (by omega)
  rw [show length - 1 + 1 = length by omega] at hlongest
  have hget : lps.getD (length - 1) 0 = m := by rw [List.getD_eq_getElem?_getD, hm, Option.getD_some]
  rw [hget]
  refine ⟨⟨h.size, h.within, hlongest.lt.trans hlt, h.entries, h.border.trans hlongest.border, ?_⟩, hlongest.lt⟩
  exact le_of_mismatch h.border hmismatch h.longest hlongest

/-- There is no border. -/
theorem noBorder (h : LpsInvariant probe lps length index) (hindex : index < probe.length)
    (hmismatch : probe[index]? ≠ probe[length]?) (hlength : length = 0) :
    LpsInvariant probe (lps.set index 0) length (index + 1) := by
  subst hlength
  refine h.enter hindex (.none fun k hk hborder ↦ ?_)
  obtain rfl : k = 0 := by have := h.longest k hk hborder; omega
  exact hmismatch (border_succ_iff.1 hborder).2.symm

end LpsInvariant

/-- The rounds that the loop has before it are at most two for each index that is left, and `length`. -/
theorem lpsRounds_spec (h : LpsInvariant probe lps length index) (rounds : ℕ)
    (hrounds : 2 * (probe.length - index) + length ≤ rounds) :
    ∃ lps' length', lpsRounds probe rounds (lps, length, index) = (lps', length', probe.length) ∧
      LpsInvariant probe lps' length' probe.length := by
  induction rounds generalizing lps length index with
  | zero =>
    have hindex : index = probe.length := by have := h.within; omega
    subst hindex
    exact ⟨lps, length, rfl, h⟩
  | succ rounds ih =>
    have hlt := h.lt
    rw [lpsRounds]
    split
    · next hindex =>
      split
      · next hmatch => exact ih (h.lengthen hindex hmatch) (by omega)
      · next hmismatch =>
        split
        · next hlength =>
          obtain ⟨hinvariant, hless⟩ := h.fallBack hmismatch hlength
          exact ih hinvariant (by omega)
        · next hlength => exact ih (h.noBorder hindex hmismatch (not_not.1 hlength)) (by omega)
    · next hindex =>
      have hend : index = probe.length := by have := h.within; omega
      subst hend
      exact ⟨lps, length, rfl, h⟩

/-- The table that the loop ends with has the longest border of the whole at its end. -/
theorem getLastD_lpsLoop (h : probe ≠ []) :
    LongestBorder probe probe.length
      ((lpsLoop probe (2 * probe.length) (List.replicate probe.length 0) 0 1).getLastD 0) := by
  have hlength := List.length_pos_of_ne_nil h
  obtain ⟨lps, length, hrounds, hinvariant⟩ :=
    lpsRounds_spec (lpsInvariant_start h) (2 * probe.length) (by omega)
  rw [← fst_lpsRounds, hrounds]
  obtain ⟨l, hl, hlongest⟩ := hinvariant.entries (probe.length - 1) (by omega)
  have hlast : lps.getLastD 0 = l := by
    rw [List.getLastD_eq_getLast?, List.getLast?_eq_getElem?, hinvariant.size, hl, Option.getD_some]
  rw [hlast]
  rwa [show probe.length - 1 + 1 = probe.length by omega] at hlongest

/-- However the probe is, the loop ends. -/
theorem lpsRounds_ends (probe : List Char) :
    probe.length ≤ (lpsRounds probe (2 * probe.length) (List.replicate probe.length 0, 0, 1)).2.2 := by
  by_cases h : probe = []
  · subst h
    exact Nat.zero_le _
  · have hlength := List.length_pos_of_ne_nil h
    obtain ⟨lps, length, hrounds, -⟩ :=
      lpsRounds_spec (lpsInvariant_start h) (2 * probe.length) (by omega)
    rw [hrounds]

/-! ### The overlap -/

/-- The last `k` characters of the previous piece are the first `k` of the current one. -/
def Overlaps (previous current : String) (k : ℕ) : Prop :=
  previous.toList.drop (previous.length - k) = current.toList.take k

instance (previous current : String) : DecidablePred (Overlaps previous current) :=
  fun _ ↦ inferInstanceAs (Decidable (_ = _))

/-- The scan that the loop has replaced: from the longest overlap there can be, down. -/
def legacyBackwardsOverlap (previous current : String) : ℕ :=
  Nat.findGreatest (Overlaps previous current) (min previous.length current.length)

theorem overlaps_zero (previous current : String) : Overlaps previous current 0 := by
  rw [Overlaps, List.take_zero, Nat.sub_zero, ← String.length_toList, List.drop_length]

/-- Clipping to the length of the shorter piece loses no overlap. -/
theorem overlaps_iff_border {previous current : String} {m k : ℕ} (hm : m = min previous.length current.length) (hk : k ≤ m) :
    Overlaps previous current k ↔
      Border (current.toList.take m ++ Char.ofNat 0 :: previous.toList.drop (previous.length - m)) (2 * m + 1) k := by
  have hc : (current.toList.take m).length = m := by rw [List.length_take, String.length_toList]; omega
  have hr : (previous.toList.drop (previous.length - m)).length = m := by
    rw [List.length_drop, String.length_toList]; omega
  have hborder := border_separated_iff (a := current.toList.take m)
    (r := previous.toList.drop (previous.length - m)) (s := Char.ofNat 0) (k := k) (hc.trans hr.symm) (by omega)
  rw [hc, hr, List.drop_drop, List.take_take, show m + m + 1 = 2 * m + 1 by omega,
    show previous.length - m + (m - k) = previous.length - k by omega, min_eq_left hk] at hborder
  exact hborder.symm

theorem isGreatest_prefixSuffixOverlap {previous current : String} (hcurrent : Char.ofNat 0 ∉ current.toList) :
    IsGreatest {k | k ≤ min previous.length current.length ∧ Overlaps previous current k}
      (prefixSuffixOverlap previous current) := by
  rw [prefixSuffixOverlap]
  split
  · next hempty =>
    have hmin : min previous.length current.length = 0 := by
      rcases hempty with rfl | rfl
      · exact Nat.zero_min _
      · exact Nat.min_zero _
    exact ⟨⟨Nat.zero_le _, overlaps_zero previous current⟩, fun k hk ↦ hmin ▸ hk.1⟩
  · dsimp only
    generalize hm : min previous.length current.length = m
    generalize hprobe : current.toList.take m ++
      Char.ofNat 0 :: previous.toList.drop (previous.length - m) = probe
    have hc : (current.toList.take m).length = m := by rw [List.length_take, String.length_toList]; omega
    have hr : (previous.toList.drop (previous.length - m)).length = m := by
      rw [List.length_drop, String.length_toList]; omega
    have hlength : probe.length = 2 * m + 1 := by
      rw [← hprobe, List.length_append, List.length_cons, hc, hr]; omega
    have hne : probe ≠ [] := List.ne_nil_of_length_pos (by omega)
    have hlongest := getLastD_lpsLoop hne
    generalize (lpsLoop probe (2 * probe.length) (List.replicate probe.length 0) 0 1).getLastD 0 = l at hlongest ⊢
    rw [hlength] at hlongest
    have hborders : ∀ k ≤ m, (Overlaps previous current k ↔ Border probe (2 * m + 1) k) := fun k hk ↦
      hprobe ▸ overlaps_iff_border hm.symm hk
    have hle : l ≤ m := by
      have hcross := Border.le_of_separated (a := current.toList.take m) (k := l)
        (r := previous.toList.drop (previous.length - m)) (s := Char.ofNat 0)
        (fun h ↦ hcurrent (List.mem_of_mem_take h)) (hc.trans hr.symm)
      rw [hc, hr, hprobe, show m + m + 1 = 2 * m + 1 by omega] at hcross
      exact hcross hlongest.lt hlongest.border
    rw [min_eq_left hle]
    refine ⟨⟨hle, (hborders l hle).2 hlongest.border⟩, fun k hk ↦ ?_⟩
    have hkm : k ≤ m := hk.1
    exact hlongest.longest k (by omega) ((hborders k hkm).1 hk.2)

theorem isGreatest_legacyBackwardsOverlap (previous current : String) :
    IsGreatest {k | k ≤ min previous.length current.length ∧ Overlaps previous current k}
      (legacyBackwardsOverlap previous current) :=
  ⟨⟨Nat.findGreatest_le _, Nat.findGreatest_spec (Nat.zero_le _) (overlaps_zero previous current)⟩,
    fun _ hk ↦ Nat.le_findGreatest hk.1 hk.2⟩

/-- `prefix_suffix_overlap` ends, and it is the scan: the largest overlap, unless there is a `NUL`. -/
theorem prefixSuffixOverlap_spec (previous current : String) (hcurrent : Char.ofNat 0 ∉ current.toList) :
    (∀ probe : List Char,
      probe.length ≤ (lpsRounds probe (2 * probe.length) (List.replicate probe.length 0, 0, 1)).2.2) ∧
    IsGreatest {k | k ≤ min previous.length current.length ∧ Overlaps previous current k}
      (prefixSuffixOverlap previous current) ∧
    prefixSuffixOverlap previous current = legacyBackwardsOverlap previous current :=
  ⟨lpsRounds_ends, isGreatest_prefixSuffixOverlap hcurrent,
    (isGreatest_prefixSuffixOverlap hcurrent).unique (isGreatest_legacyBackwardsOverlap previous current)⟩

/-- Two pieces that share a word. -/
theorem prefixSuffixOverlap_spec_word :
    prefixSuffixOverlap "hello world" "world peace" = legacyBackwardsOverlap "hello world" "world peace" :=
  (prefixSuffixOverlap_spec "hello world" "world peace" (by decide +kernel)).2.2

end GenericApp
