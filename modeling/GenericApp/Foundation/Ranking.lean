import Mathlib.Data.List.Sort

/-!
# Rankings

Things are ranked by a score, the highest first, and things of the same score by their names. Because
no two names are the same this settles every comparison, so that a ranking of given things is unique
(`Ranks.unique`) and does not depend on the order in which they come. It is what sorting computes
(`ranks_insertionSort`), and what is ahead of a thing is listed before it, however early the list is cut
off (`Ranks.exists_before`).
-/

universe u v w

section Ranking

variable {ι : Type u} {κ : Type v} [LinearOrder ι] [LinearOrder κ] {score : ι → κ} {a b c : ι}
  {members ordered : List ι}

/-- `a` is ahead of `b`. -/
def Ahead (score : ι → κ) (a b : ι) : Prop := score b < score a ∨ (score a = score b ∧ a < b)

theorem Ahead.trans (hab : Ahead score a b) (hbc : Ahead score b c) : Ahead score a c := by
  rcases hab with hab | ⟨hab, hab'⟩
  · rcases hbc with hbc | ⟨hbc, -⟩
    · exact .inl (hbc.trans hab)
    · exact .inl (hbc ▸ hab)
  · rcases hbc with hbc | ⟨hbc, hbc'⟩
    · exact .inl (hab ▸ hbc)
    · exact .inr ⟨hab.trans hbc, hab'.trans hbc'⟩

theorem Ahead.asymm (hab : Ahead score a b) (hba : Ahead score b a) : False := by
  rcases hab.trans hba with h | ⟨-, h⟩
  · exact lt_irrefl _ h
  · exact lt_irrefl _ h

/-- A ranking of the members. -/
structure Ranks (score : ι → κ) (members ordered : List ι) : Prop where
  nodup : ordered.Nodup
  mem_iff : ∀ i, i ∈ ordered ↔ i ∈ members
  ahead : ordered.Pairwise (Ahead score)

/-- **There is one ranking.** -/
theorem Ranks.unique {members' ordered' : List ι} (h : Ranks score members ordered)
    (h' : Ranks score members' ordered') (hmembers : ∀ i, i ∈ members ↔ i ∈ members') :
    ordered = ordered' := by
  have hperm : ordered.Perm ordered' := (List.perm_ext_iff_of_nodup h.nodup h'.nodup).2 fun i ↦
    (h.mem_iff i).trans ((hmembers i).trans (h'.mem_iff i).symm)
  exact hperm.eq_of_pairwise (fun _ _ _ _ hab hba ↦ (hab.asymm hba).elim) h.ahead h'.ahead

/-- **What is ahead comes before**, also in the first part of a ranking. -/
theorem Ranks.exists_before (h : Ranks score members ordered) {n j : ℕ}
    (hb : (ordered.take n)[j]? = some b) (ha : a ∈ members) (hahead : Ahead score a b) :
    ∃ i < j, (ordered.take n)[i]? = some a := by
  obtain ⟨i, hi⟩ := List.mem_iff_getElem?.1 ((h.mem_iff a).2 ha)
  obtain ⟨hj, hb⟩ : j < n ∧ ordered[j]? = some b := by
    rw [List.getElem?_take] at hb
    split at hb
    · exact ⟨‹_›, hb⟩
    · exact nomatch hb
  obtain ⟨hib, rfl⟩ := List.getElem?_eq_some_iff.1 hi
  obtain ⟨hjb, rfl⟩ := List.getElem?_eq_some_iff.1 hb
  have hij : i < j := by
    rcases Nat.lt_trichotomy i j with hlt | rfl | hgt
    · exact hlt
    · exact (hahead.asymm hahead).elim
    · exact (hahead.asymm (List.pairwise_iff_getElem.1 h.ahead j i hjb hib hgt)).elim
  exact ⟨i, hij, by rw [List.getElem?_take, if_pos (hij.trans hj), hi]⟩

/-- **Sorting ranks.** -/
theorem ranks_insertionSort {ρ : Type w} {name : ρ → ι} {r : ρ → ρ → Prop} [DecidableRel r]
    (hr : ∀ x y, r x y ↔ score (name y) < score (name x) ∨
      (score (name x) = score (name y) ∧ name x ≤ name y)) {rows : List ρ}
    (hnames : (rows.map name).Nodup) :
    Ranks score (rows.map name) ((rows.insertionSort r).map name) := by
  have hperm : ((rows.insertionSort r).map name).Perm (rows.map name) :=
    (List.perm_insertionSort r rows).map name
  have hnodup : ((rows.insertionSort r).map name).Nodup := hperm.nodup_iff.2 hnames
  refine ⟨hnodup, fun i ↦ hperm.mem_iff, ?_⟩
  have : Std.Total r := ⟨fun x y ↦ by
    rw [hr, hr]
    rcases lt_trichotomy (score (name x)) (score (name y)) with hlt | heq | hgt
    · exact .inr (.inl hlt)
    · exact (le_total (name x) (name y)).imp (fun hle ↦ .inr ⟨heq, hle⟩) fun hle ↦
        .inr ⟨heq.symm, hle⟩
    · exact .inl (.inl hgt)⟩
  have : IsTrans ρ r := ⟨fun x y z hxy hyz ↦ by
    rw [hr] at hxy hyz ⊢
    rcases hxy with hxy | ⟨hxy, hxy'⟩
    · exact .inl (hyz.elim (fun hyz ↦ hyz.trans hxy) fun hyz ↦ hyz.1 ▸ hxy)
    · exact hyz.imp (fun hyz ↦ hxy ▸ hyz) fun hyz ↦ ⟨hxy.trans hyz.1, hxy'.trans hyz.2⟩⟩
  have hsorted := List.pairwise_insertionSort r rows
  -- Names do not repeat, so that the comparison of names is strict.
  have hne := List.pairwise_map.1 hnodup
  refine List.pairwise_map.2 ((hsorted.and hne).imp fun {x y} ⟨hxy, hne⟩ ↦ ?_)
  exact ((hr x y).1 hxy).imp_right fun ⟨heq, hle⟩ ↦ ⟨heq, lt_of_le_of_ne hle hne⟩

end Ranking
