import Mathlib.Data.List.Basic
import Mathlib.Data.List.Pairwise

/-!
# Relations with integrity constraints

A database relation, as the transactions of a program see it: a list of rows in which any two
rows are **compatible**, that is, tripped by no primary key and no unique index. The constraint
is a field of `Table`, so a relation that breaks it cannot be built, and the only way to meet it
is the way a database does: `insert` and `update` check it and answer `none` (the integrity error)
when the new row would collide.

Constraints read only some columns of a row, `Schema.ident`. That is what makes the common write
cheap: `modify` rewrites a row in a way that leaves those columns alone, cannot collide with
anything, and is total. A selector is a Boolean test of the constrained columns; a selector is
`Schema.Single` when compatible rows never both pass it (a lookup by primary key, or by a uniquely
indexed column), and for those `find` is *the* row and not merely the first one.

`find_modify` is the law everything else is read off: looking up after a write is looking up before
it and then applying the write.
-/

universe u v

/-- The constraints of a relation with rows `ρ`: the columns they read, and when two different
rows may stand side by side. -/
structure Schema (ρ : Type u) (ι : Type v) where
  /-- The columns read by the primary key and the unique indexes. -/
  ident : ρ → ι
  /-- No primary key or unique index is broken by these two rows together. -/
  Compat : ι → ι → Prop

namespace Schema

variable {ρ : Type u} {ι : Type v} (S : Schema ρ ι)

/-- A selector that no two compatible rows both pass. -/
def Single (p : ι → Bool) : Prop := ∀ a b, S.Compat a b → p a = true → p b = true → False

end Schema

/-- A relation that satisfies the constraints of its schema. -/
structure Table {ρ : Type u} {ι : Type v} (S : Schema ρ ι) where
  /-- The rows, oldest first. -/
  rows : List ρ
  /-- Any two of them are compatible. -/
  compat : rows.Pairwise fun a b ↦ S.Compat (S.ident a) (S.ident b)

namespace Table

variable {ρ : Type u} {ι : Type v} {S : Schema ρ ι}

/-- The empty relation. -/
def empty : Table S := ⟨[], List.Pairwise.nil⟩

/-- The first row that passes the selector. -/
def find (T : Table S) (p : ι → Bool) : Option ρ := T.rows.find? fun r ↦ p (S.ident r)

/-- Insert a row; `none` is the integrity error of a row that collides. -/
def insert [DecidableRel S.Compat] (T : Table S) (r : ρ) : Option (Table S) :=
  if h : ∀ a ∈ T.rows, S.Compat (S.ident a) (S.ident r) then
    some ⟨T.rows ++ [r], List.pairwise_append.2
      ⟨T.compat, List.pairwise_singleton _ _, fun a ha b hb ↦ by
        obtain rfl := List.mem_singleton.1 hb
        exact h a ha⟩⟩
  else none

/-- What `modify` does to one row: apply `f` where the selector passes, unless `f` would touch a
constrained column. -/
def modifyRow [DecidableEq ι] (S : Schema ρ ι) (p : ι → Bool) (f : ρ → ρ) (r : ρ) : ρ :=
  if p (S.ident r) = true ∧ S.ident (f r) = S.ident r then f r else r

@[simp] theorem ident_modifyRow [DecidableEq ι] (p : ι → Bool) (f : ρ → ρ) (r : ρ) :
    S.ident (modifyRow S p f r) = S.ident r := by
  rw [modifyRow]
  split
  · next h => exact h.2
  · rfl

theorem modifyRow_of_pos [DecidableEq ι] {p : ι → Bool} {f : ρ → ρ} {r : ρ}
    (hp : p (S.ident r) = true) (hf : S.ident (f r) = S.ident r) : modifyRow S p f r = f r :=
  if_pos ⟨hp, hf⟩

theorem modifyRow_of_neg [DecidableEq ι] {p : ι → Bool} {f : ρ → ρ} {r : ρ}
    (hp : p (S.ident r) = false) : modifyRow S p f r = r :=
  if_neg fun h ↦ by simp [hp] at h

/-- Rewrite the rows that pass the selector. Total: the constrained columns stay as they are. -/
def modify [DecidableEq ι] (T : Table S) (p : ι → Bool) (f : ρ → ρ) : Table S where
  rows := T.rows.map (modifyRow S p f)
  compat := T.compat.map _ fun a b h ↦ by rwa [ident_modifyRow, ident_modifyRow]

/-- Rewrite the rows that pass the selector in any way; `none` is the integrity error of a row
that now collides. -/
def update [DecidableRel S.Compat] (T : Table S) (p : ι → Bool) (f : ρ → ρ) : Option (Table S) :=
  if h : (T.rows.map fun r ↦ if p (S.ident r) = true then f r else r).Pairwise
      fun a b ↦ S.Compat (S.ident a) (S.ident b) then
    some ⟨_, h⟩
  else none

/-- Remove the rows that pass the selector. -/
def delete (T : Table S) (p : ι → Bool) : Table S where
  rows := T.rows.filter fun r ↦ !p (S.ident r)
  compat := T.compat.filter _

/-! ### Looking up -/

theorem mem_of_find {T : Table S} {p : ι → Bool} {r : ρ} (h : T.find p = some r) : r ∈ T.rows :=
  List.mem_of_find?_eq_some h

theorem sel_of_find {T : Table S} {p : ι → Bool} {r : ρ} (h : T.find p = some r) :
    p (S.ident r) = true := by
  simpa using List.find?_some h

theorem find_eq_none_iff {T : Table S} {p : ι → Bool} :
    T.find p = none ↔ ∀ r ∈ T.rows, p (S.ident r) = false := by
  simp [find]

/-- **Rows are found by a single selector**: a row that passes it is the one `find` returns. -/
theorem find_eq_some_of_mem {T : Table S} {p : ι → Bool} (hp : S.Single p) {r : ρ}
    (hr : r ∈ T.rows) (hsel : p (S.ident r) = true) : T.find p = some r := by
  obtain ⟨rows, hc⟩ := T
  induction rows with
  | nil => exact absurd hr List.not_mem_nil
  | cons a rows ih =>
    rw [List.pairwise_cons] at hc
    rcases List.mem_cons.1 hr with rfl | hr'
    · simp [find, hsel]
    · have ha : p (S.ident a) = false := by
        rw [← Bool.not_eq_true]
        exact fun ha ↦ hp _ _ (hc.1 r hr') ha hsel
      have := ih hc.2 hr'
      simpa [find, ha] using this

/-- At most one row passes a single selector. -/
theorem eq_of_mem_of_sel {T : Table S} {p : ι → Bool} (hp : S.Single p) {r r' : ρ}
    (hr : r ∈ T.rows) (hr' : r' ∈ T.rows) (hsel : p (S.ident r) = true)
    (hsel' : p (S.ident r') = true) : r = r' :=
  Option.some.inj ((find_eq_some_of_mem hp hr hsel).symm.trans (find_eq_some_of_mem hp hr' hsel'))

/-- The rows that pass a single selector, counted. -/
theorem length_filter_le_one {T : Table S} {p : ι → Bool} (hp : S.Single p) :
    (T.rows.filter fun r ↦ p (S.ident r)).length ≤ 1 := by
  obtain ⟨rows, hc⟩ := T
  induction rows with
  | nil => simp
  | cons a rows ih =>
    rw [List.pairwise_cons] at hc
    by_cases ha : p (S.ident a) = true
    · have hrest : (rows.filter fun r ↦ p (S.ident r)) = [] := by
        rw [List.filter_eq_nil_iff]
        exact fun r hr hsel ↦ hp _ _ (hc.1 r hr) ha hsel
      simp [ha, hrest]
    · simpa [ha] using ih hc.2

/-! ### Looking up after a write -/

/-- **The law of `modify`.** -/
theorem find_modify [DecidableEq ι] (T : Table S) (p q : ι → Bool) (f : ρ → ρ) :
    (T.modify p f).find q = (T.find q).map (modifyRow S p f) := by
  simp only [find, modify, List.find?_map, Function.comp_def, ident_modifyRow]

/-- The row a write selects, after the write. -/
theorem find_modify_self [DecidableEq ι] {T : Table S} {p : ι → Bool} {f : ρ → ρ} {r : ρ}
    (hr : T.find p = some r) (hf : S.ident (f r) = S.ident r) :
    (T.modify p f).find p = some (f r) := by
  rw [find_modify, hr, Option.map_some, modifyRow_of_pos (sel_of_find hr) hf]

/-- A write that changes none of the rows it selects. -/
theorem modify_eq_self [DecidableEq ι] {T : Table S} {p : ι → Bool} {f : ρ → ρ}
    (h : ∀ r ∈ T.rows, p (S.ident r) = true → f r = r) : T.modify p f = T := by
  obtain ⟨rows, hc⟩ := T
  have hrow : ∀ r ∈ rows, modifyRow S p f r = r := fun r hr ↦ by
    rw [modifyRow]
    split
    · next hp => exact h r hr hp.1
    · rfl
  have hrows : rows.map (modifyRow S p f) = rows :=
    (List.map_congr_left hrow).trans (List.map_id' rows)
  simp only [modify, hrows]

/-- **The law of `update`**, for a lookup by columns that the write leaves alone. -/
theorem find_of_update [DecidableRel S.Compat] {T T' : Table S} {p q : ι → Bool} {f : ρ → ρ}
    (h : T.update p f = some T')
    (hq : ∀ r, p (S.ident r) = true → q (S.ident (f r)) = q (S.ident r)) :
    T'.find q = (T.find q).map fun r ↦ if p (S.ident r) = true then f r else r := by
  rw [update] at h
  split at h
  · obtain rfl := Option.some.inj h
    have hcol : ∀ r, q (S.ident (if p (S.ident r) = true then f r else r)) = q (S.ident r) :=
      fun r ↦ by
        split
        · next hp => exact hq r hp
        · rfl
    simp only [find, List.find?_map, Function.comp_def, hcol]
  · cases h

/-- A write to one row is accepted if it makes that row collide with no other. -/
theorem exists_update [DecidableRel S.Compat] {T : Table S} {p : ι → Bool} {f : ρ → ρ}
    (hp : S.Single p)
    (h : ∀ a ∈ T.rows, ∀ b ∈ T.rows, p (S.ident a) = true → p (S.ident b) = false →
      S.Compat (S.ident a) (S.ident b) → S.Compat (S.ident (f a)) (S.ident b))
    (h' : ∀ a ∈ T.rows, ∀ b ∈ T.rows, p (S.ident a) = true → p (S.ident b) = false →
      S.Compat (S.ident b) (S.ident a) → S.Compat (S.ident b) (S.ident (f a))) :
    ∃ T', T.update p f = some T' := by
  refine ⟨_, dif_pos (List.pairwise_map.2 (T.compat.imp_of_mem fun {a b} ha hb hab ↦ ?_))⟩
  by_cases hpa : p (S.ident a) = true <;> by_cases hpb : p (S.ident b) = true
  · exact absurd (hp _ _ hab hpa hpb) id
  · rw [if_pos hpa, if_neg hpb]
    exact h a ha b hb hpa (Bool.not_eq_true _ ▸ hpb) hab
  · rw [if_neg hpa, if_pos hpb]
    exact h' b hb a ha hpb (Bool.not_eq_true _ ▸ hpa) hab
  · rw [if_neg hpa, if_neg hpb]
    exact hab

/-- Write the same change to the rows that pass one selector after the other. The constraints are
checked after each of these writes, and `none` is the integrity error of the first that fails. -/
def flush [DecidableRel S.Compat] (f : ρ → ρ) : Table S → List (ι → Bool) → Option (Table S)
  | T, [] => some T
  | T, p :: ps => (T.update p f).bind fun T' ↦ flush f T' ps

/-- **The law of `flush`**, for selectors that no row passes two of. -/
theorem find_of_flush [DecidableRel S.Compat] {f : ρ → ρ} {q : ι → Bool}
    (hq : ∀ r, q (S.ident (f r)) = q (S.ident r)) :
    ∀ {ps : List (ι → Bool)} {T T' : Table S}, T.flush f ps = some T' →
      (∀ p ∈ ps, ∀ r, p (S.ident (f r)) = p (S.ident r)) →
      ps.Pairwise (fun p p' ↦ ∀ r, p (S.ident r) = true → p' (S.ident r) = false) →
      T'.find q = (T.find q).map fun r ↦ if (ps.any fun p ↦ p (S.ident r)) = true then f r else r
  | [], T, T', h, _, _ => by
    obtain rfl : T = T' := Option.some.inj h
    simp
  | p :: ps, T, T', h, hps, hdisj => by
    obtain ⟨T₁, hupdate, hrest⟩ := Option.bind_eq_some_iff.1 h
    rw [List.pairwise_cons] at hdisj
    rw [find_of_flush hq hrest (fun p' hp' ↦ hps p' (List.mem_cons_of_mem _ hp')) hdisj.2,
      find_of_update hupdate fun r _ ↦ hq r, Option.map_map]
    congr 1
    funext r
    by_cases hp : p (S.ident r) = true
    · -- A row that has been written passes none of the selectors that follow.
      have hnone : ¬(ps.any fun p' ↦ p' (S.ident (f r))) = true := by
        rw [List.any_eq_true]
        rintro ⟨p', hp', hsel⟩
        rw [hps p' (List.mem_cons_of_mem _ hp'), hdisj.1 p' hp' r hp] at hsel
        cases hsel
      rw [Function.comp_apply, if_pos hp, if_neg hnone, List.any_cons, hp, Bool.true_or, if_pos rfl]
    · rw [Bool.not_eq_true] at hp
      rw [Function.comp_apply, hp, if_neg Bool.false_ne_true, List.any_cons, hp, Bool.false_or]

theorem mem_modify_iff [DecidableEq ι] {T : Table S} {p : ι → Bool} {f : ρ → ρ} {r : ρ} :
    r ∈ (T.modify p f).rows ↔ ∃ r₀ ∈ T.rows, modifyRow S p f r₀ = r := by
  simp [modify]

theorem mem_delete_iff {T : Table S} {p : ι → Bool} {r : ρ} :
    r ∈ (T.delete p).rows ↔ r ∈ T.rows ∧ p (S.ident r) = false := by
  simp [delete]

/-- **The law of `delete`**, for a single selector. -/
theorem find_delete {T : Table S} {p q : ι → Bool} (hq : S.Single q) :
    (T.delete p).find q = (T.find q).filter fun r ↦ !p (S.ident r) := by
  rcases hfind : T.find q with - | r
  · rw [Option.filter_none, find_eq_none_iff]
    exact fun r hr ↦ find_eq_none_iff.1 hfind r (mem_delete_iff.1 hr).1
  · by_cases hp : p (S.ident r) = true
    · rw [Option.filter_some, if_neg (by rw [hp]; decide), find_eq_none_iff]
      intro r' hr'
      obtain ⟨hmem, hsel⟩ := mem_delete_iff.1 hr'
      refine Bool.eq_false_iff.2 fun hq' ↦ ?_
      rw [eq_of_mem_of_sel hq hmem (mem_of_find hfind) hq' (sel_of_find hfind), hp] at hsel
      exact nomatch hsel
    · rw [Bool.not_eq_true] at hp
      rw [Option.filter_some, if_pos (by rw [hp]; rfl)]
      exact find_eq_some_of_mem hq (mem_delete_iff.2 ⟨mem_of_find hfind, hp⟩) (sel_of_find hfind)

/-! ### Queries after a write -/

theorem modifyRow_cases [DecidableEq ι] {p : ι → Bool} {f : ρ → ρ} (r : ρ) :
    modifyRow S p f r = r ∨ p (S.ident r) = true ∧ modifyRow S p f r = f r := by
  rw [modifyRow]
  split
  · next h => exact .inr ⟨h.1, rfl⟩
  · exact .inl rfl

/-- A query does not notice a write that changes nothing it selects. -/
theorem filterMap_modify [DecidableEq ι] {σ : Type*} {T : Table S} {p : ι → Bool} {f : ρ → ρ}
    {g : ρ → Option σ} (h : ∀ r ∈ T.rows, p (S.ident r) = true → g (f r) = g r) :
    (T.modify p f).rows.filterMap g = T.rows.filterMap g := by
  rw [modify, List.filterMap_map]
  refine List.filterMap_congr fun r hr ↦ ?_
  rcases modifyRow_cases (S := S) (p := p) (f := f) r with heq | ⟨hp, heq⟩
  · exact congrArg g heq
  · exact (congrArg g heq).trans (h r hr hp)

theorem exists_modify_iff [DecidableEq ι] {T : Table S} {p : ι → Bool} {f : ρ → ρ} {Q : ρ → Prop}
    (h : ∀ r ∈ T.rows, p (S.ident r) = true → (Q (f r) ↔ Q r)) :
    (∃ r ∈ (T.modify p f).rows, Q r) ↔ ∃ r ∈ T.rows, Q r := by
  have hrow : ∀ r ∈ T.rows, Q (modifyRow S p f r) ↔ Q r := fun r hr ↦ by
    rcases modifyRow_cases (S := S) (p := p) (f := f) r with heq | ⟨hp, heq⟩
    · rw [heq]
    · rw [heq, h r hr hp]
  constructor
  · rintro ⟨_, hmem, hQ⟩
    obtain ⟨r, hr, rfl⟩ := mem_modify_iff.1 hmem
    exact ⟨r, hr, (hrow r hr).1 hQ⟩
  · rintro ⟨r, hr, hQ⟩
    exact ⟨_, mem_modify_iff.2 ⟨r, hr, rfl⟩, (hrow r hr).2 hQ⟩

/-- A query does not notice that rows are gone which it does not select. -/
theorem filterMap_delete {σ : Type*} {T : Table S} {p : ι → Bool} {g : ρ → Option σ}
    (h : ∀ r ∈ T.rows, p (S.ident r) = true → g r = none) :
    (T.delete p).rows.filterMap g = T.rows.filterMap g := by
  rw [delete, List.filterMap_filter]
  refine List.filterMap_congr fun r hr ↦ ?_
  rcases hp : p (S.ident r) with - | -
  · rfl
  · exact (h r hr hp).symm

theorem exists_delete_iff {T : Table S} {p : ι → Bool} {Q : ρ → Prop}
    (h : ∀ r ∈ T.rows, p (S.ident r) = true → ¬Q r) :
    (∃ r ∈ (T.delete p).rows, Q r) ↔ ∃ r ∈ T.rows, Q r := by
  constructor
  · rintro ⟨r, hr, hQ⟩
    exact ⟨r, (mem_delete_iff.1 hr).1, hQ⟩
  · rintro ⟨r, hr, hQ⟩
    exact ⟨r, mem_delete_iff.2 ⟨hr, Bool.eq_false_iff.2 fun hp ↦ h r hr hp hQ⟩, hQ⟩

section Insert

variable [DecidableRel S.Compat] {T T' : Table S} {r : ρ}

theorem rows_of_insert (h : T.insert r = some T') : T'.rows = T.rows ++ [r] := by
  rw [insert] at h
  split at h
  · obtain rfl := Option.some.inj h
    rfl
  · exact absurd h (by simp)

/-- An accepted row collides with no row that was there. -/
theorem compat_of_insert (h : T.insert r = some T') {a : ρ} (ha : a ∈ T.rows) :
    S.Compat (S.ident a) (S.ident r) := by
  rw [insert] at h
  split at h
  · next hall => exact hall a ha
  · exact absurd h (by simp)

theorem find_of_insert (h : T.insert r = some T') (p : ι → Bool) :
    T'.find p = (T.find p).or (if p (S.ident r) = true then some r else none) := by
  rw [find, rows_of_insert h, List.find?_append]
  congr 1
  by_cases hp : p (S.ident r) = true <;> simp [hp]

/-- A row that was there is still the one found. -/
theorem find_of_insert_of_some (h : T.insert r = some T') {p : ι → Bool} {a : ρ}
    (ha : T.find p = some a) : T'.find p = some a := by
  rw [find_of_insert h, ha]
  rfl

end Insert

end Table
