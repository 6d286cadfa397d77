import GenericApp.Rag.VersionLifecycle

/-!
# Whether a promotion lands

`activate` and `rollback` change two rows and flush them together: the version to promote becomes
active, and the one that is active becomes retired. The session writes the two in the order of their
keys, and `uq_rag_index_versions_one_active` is checked after each write. If the key of the version to
promote comes first, both rows are active after the first write, and the request fails. Keys are random,
so for an activation that is a matter of chance. For a rollback it is not: the version to promote has
been retired by one with a greater key. A rollback can land on rows that others than these calls have
written, such as those from before the index was there.

* `promotions_land`: a promotion that nothing else speaks against lands exactly if the key of the active
  version is the smaller one.
* `rollbacks_never_land`: the calls never build up a relation on which a rollback lands.
* `promotions_fail`: an activation and a rollback that fail.
-/

namespace GenericApp

open Machine Py

/-- The request commits with `r` active, `a` retired and no other row changed. -/
def Lands (T : VersionTable) (a r : RagIndexVersion) (now : DateTime)
    (result : Except HttpError VersionTable) : Prop :=
  ∃ T', result = .ok T' ∧
    T'.find (byVersionId r.id) =
      some { r with status := .active, activatedAt := some now, retiredAt := none } ∧
    T'.find (byVersionId a.id) = some { a with status := .retired, retiredAt := some now } ∧
    ∀ id, id ≠ r.id → id ≠ a.id → T'.find (byVersionId id) = T.find (byVersionId id)

section Promote

variable {T T' : VersionTable} {a r : RagIndexVersion} {now : DateTime}

theorem ne_of_active (ha : getActiveVersion T = some a) (hr : T.find (byVersionId r.id) = some r)
    (hinactive : r.status ≠ .active) : a.id ≠ r.id := by
  intro hid
  have hactive : a.status = .active := (activeVersion_ident a).1 (Table.sel_of_find ha)
  have : a = r := Table.eq_of_mem_of_sel (single_byVersionId r.id) (Table.mem_of_find ha)
    (Table.mem_of_find hr) ((byVersionId_ident _ _).2 hid) ((byVersionId_ident _ _).2 rfl)
  exact hinactive (this ▸ hactive)

theorem getActiveVersion_of_mem (ha : a ∈ T.rows) (hactive : a.status = .active) :
    getActiveVersion T = some a :=
  Table.find_eq_some_of_mem single_activeVersion ha ((activeVersion_ident a).2 hactive)

/-- The dirty rows are the two versions. -/
theorem mem_dirtyVersions_iff (ha : getActiveVersion T = some a)
    (hr : T.find (byVersionId r.id) = some r) {id : Uuid} :
    id ∈ dirtyVersions T r.id ↔ id = a.id ∨ id = r.id := by
  rw [mem_dirtyVersions]
  constructor
  · rintro ⟨row, hrow, rfl, hid | hactive⟩
    · exact .inr hid
    · left
      rw [Table.eq_of_mem_of_sel single_activeVersion hrow (Table.mem_of_find ha)
        ((activeVersion_ident row).2 hactive) (Table.sel_of_find ha)]
  · rintro (rfl | rfl)
    · exact ⟨a, Table.mem_of_find ha, rfl, .inr ((activeVersion_ident a).1 (Table.sel_of_find ha))⟩
    · exact ⟨r, Table.mem_of_find hr, rfl, .inl rfl⟩

/-- The smaller key is flushed first. -/
theorem dirtyVersions_eq {i j : Uuid} (hij : i < j)
    (hmem : ∀ id, id ∈ dirtyVersions T r.id ↔ id = i ∨ id = j) : dirtyVersions T r.id = [i, j] := by
  have hnodup : [i, j].Nodup := by simp [hij.ne]
  have hperm : (dirtyVersions T r.id).Perm [i, j] :=
    (List.perm_ext_iff_of_nodup nodup_dirtyVersions hnodup).2 fun id ↦ by
      rw [hmem, List.mem_cons, List.mem_singleton]
  refine hperm.eq_of_pairwise' (r := (· ≤ ·)) (List.pairwise_insertionSort _ _) ?_
  simp [hij.le]

/-- A retired row collides with nothing. -/
theorem exists_retire (now : DateTime) (ha : getActiveVersion T = some a) (hne : a.id ≠ r.id) :
    ∃ T₁, T.update (byVersionId a.id) (promoteRow r.id now) = some T₁ := by
  have hcols : ∀ v, byVersionId a.id (versionSchema.ident v) = true → v ∈ T.rows →
      versionSchema.ident (promoteRow r.id now v) = (v.id, v.key, .retired) := fun v hsel hv ↦ by
    obtain rfl : v = a := Table.eq_of_mem_of_sel (single_byVersionId a.id) hv (Table.mem_of_find ha)
      hsel ((byVersionId_ident _ _).2 rfl)
    rw [promoteRow, if_neg hne, if_pos ((activeVersion_ident v).1 (Table.sel_of_find ha))]
    rfl
  refine Table.exists_update (single_byVersionId a.id) (fun v hv w hw hsel _ hc ↦ ?_)
    fun v hv w hw hsel _ hc ↦ ?_
  · rw [hcols v hsel hv]
    exact ⟨hc.1, hc.2.1, fun h ↦ by cases h.1⟩
  · rw [hcols v hsel hv]
    exact ⟨hc.1, hc.2.1, fun h ↦ by cases h.2⟩

/-- An active row collides with nothing, if no other is active. -/
theorem exists_activate (now : DateTime) (hnone : ∀ v ∈ T.rows, v.status ≠ .active) :
    ∃ T₁, T.update (byVersionId r.id) (promoteRow r.id now) = some T₁ := by
  have hcols : ∀ v, versionSchema.ident (promoteRow r.id now v) =
      (v.id, v.key, (promoteRow r.id now v).status) := fun v ↦ by
    show ((promoteRow r.id now v).id, (promoteRow r.id now v).key, _) = _
    rw [promoteRow_id, promoteRow_key]
  refine Table.exists_update (single_byVersionId r.id) (fun v hv w hw _ _ hc ↦ ?_)
    fun v hv w hw _ _ hc ↦ ?_
  · rw [hcols v]
    exact ⟨hc.1, hc.2.1, fun h ↦ hnone w hw h.2⟩
  · rw [hcols v]
    exact ⟨hc.1, hc.2.1, fun h ↦ hnone w hw h.1⟩

/-- Once the active row is retired, no row is active. -/
theorem not_active_of_retire (ha : getActiveVersion T = some a) (hne : a.id ≠ r.id)
    (h : T.update (byVersionId a.id) (promoteRow r.id now) = some T') :
    ∀ v ∈ T'.rows, v.status ≠ .active := by
  intro v hv hactive
  have hfind := find_self hv
  rw [Table.find_of_update h fun w _ ↦ by
    show decide ((promoteRow r.id now w).id = v.id) = decide (w.id = v.id)
    rw [promoteRow_id]] at hfind
  obtain ⟨w, hw, hv'⟩ := Option.map_eq_some_iff.1 hfind
  have hactive_a : a.status = .active := (activeVersion_ident a).1 (Table.sel_of_find ha)
  by_cases hid : w.id = a.id
  · rw [if_pos ((byVersionId_ident _ _).2 hid)] at hv'
    obtain rfl : w = a := Table.eq_of_mem_of_sel (single_byVersionId a.id) (Table.mem_of_find hw)
      (Table.mem_of_find ha) ((byVersionId_ident _ _).2 hid) ((byVersionId_ident _ _).2 rfl)
    rw [← hv', promoteRow, if_neg hne, if_pos hactive_a] at hactive
    cases hactive
  · rw [if_neg fun hsel ↦ hid ((byVersionId_ident _ _).1 hsel)] at hv'
    subst hv'
    refine hid (congrArg RagIndexVersion.id ?_)
    exact Table.eq_of_mem_of_sel single_activeVersion (Table.mem_of_find hw) (Table.mem_of_find ha)
      ((activeVersion_ident w).2 hactive) (Table.sel_of_find ha)

/-- **In the right order, both writes are accepted.** -/
theorem exists_promote (now : DateTime) (ha : getActiveVersion T = some a)
    (hr : T.find (byVersionId r.id) = some r) (hlt : a.id < r.id) : ∃ T', promote T r.id now = .ok T' := by
  have hdirty := dirtyVersions_eq hlt fun id ↦ mem_dirtyVersions_iff ha hr
  obtain ⟨T₁, h₁⟩ := exists_retire now ha hlt.ne
  obtain ⟨T₂, h₂⟩ := exists_activate (r := r) now (not_active_of_retire ha hlt.ne h₁)
  refine ⟨T₂, ?_⟩
  rw [promote, hdirty, List.map_cons, List.map_cons, List.map_nil, Table.flush, h₁, Option.bind_some,
    Table.flush, h₂, Option.bind_some, Table.flush]

/-- **In the wrong order, the first write is refused**: it would leave two active rows. -/
theorem not_promote (ha : getActiveVersion T = some a) (hr : T.find (byVersionId r.id) = some r)
    (hlt : r.id < a.id) : promote T r.id now = .error ⟨500, "IntegrityError"⟩ := by
  have hdirty := dirtyVersions_eq hlt fun id ↦ (mem_dirtyVersions_iff ha hr).trans or_comm
  have hrefused : T.update (byVersionId r.id) (promoteRow r.id now) = none := by
    rw [Option.eq_none_iff_forall_ne_some]
    intro T₁ h₁
    have hid : ∀ id (w : RagIndexVersion), byVersionId id (versionSchema.ident (promoteRow r.id now w)) =
        byVersionId id (versionSchema.ident w) := fun id w ↦ by
      show decide ((promoteRow r.id now w).id = id) = decide (w.id = id)
      rw [promoteRow_id]
    have ha₁ : T₁.find (byVersionId a.id) = some a := by
      rw [Table.find_of_update h₁ fun w _ ↦ hid a.id w, find_self (Table.mem_of_find ha),
        Option.map_some, if_neg]
      rw [byVersionId_ident]
      exact hlt.ne'
    have hr₁ : T₁.find (byVersionId r.id) = some (promoteRow r.id now r) := by
      rw [Table.find_of_update h₁ fun w _ ↦ hid r.id w, hr, Option.map_some, if_pos]
      exact (byVersionId_ident _ _).2 rfl
    have hactive : (promoteRow r.id now r).status = .active := by rw [promoteRow, if_pos rfl]
    have heq : a = promoteRow r.id now r := Table.eq_of_mem_of_sel single_activeVersion
      (Table.mem_of_find ha₁) (Table.mem_of_find hr₁) (Table.sel_of_find ha)
      ((activeVersion_ident _).2 hactive)
    have hid' : a.id = r.id := by rw [heq, promoteRow_id]
    exact hlt.ne hid'.symm
  rw [promote, hdirty, List.map_cons, Table.flush, hrefused, Option.bind_none]

/-- **Whether `_retire_other_active` and the lines after it land.** -/
theorem lands_promote_iff (ha : getActiveVersion T = some a) (hr : T.find (byVersionId r.id) = some r)
    (hinactive : r.status ≠ .active) : Lands T a r now (promote T r.id now) ↔ a.id < r.id := by
  have hne := ne_of_active ha hr hinactive
  constructor
  · rintro ⟨T', hok, -⟩
    rcases Nat.lt_or_gt_of_ne hne with hlt | hlt
    · exact hlt
    · rw [not_promote ha hr hlt] at hok
      exact nomatch hok
  · intro hlt
    obtain ⟨T', hok⟩ := exists_promote now ha hr hlt
    have hactive : a.status = .active := (activeVersion_ident a).1 (Table.sel_of_find ha)
    refine ⟨T', hok, ?_, ?_, fun id hidr hida ↦ ?_⟩
    · rw [find_of_promote hok, hr, Option.map_some, promoteRow, if_pos rfl]
    · rw [find_of_promote hok, find_self (Table.mem_of_find ha), Option.map_some, promoteRow,
        if_neg hne, if_pos hactive]
    · rw [find_of_promote hok]
      rcases hfind : T.find (byVersionId id) with - | v
      · rfl
      · obtain rfl : v.id = id := (byVersionId_ident _ _).1 (Table.sel_of_find hfind)
        -- The row is neither of the two, so it is not active.
        have hinert : v.status ≠ .active := fun h ↦ hida <| congrArg RagIndexVersion.id <|
          Table.eq_of_mem_of_sel single_activeVersion (Table.mem_of_find hfind) (Table.mem_of_find ha)
            ((activeVersion_ident v).2 h) (Table.sel_of_find ha)
        rw [Option.map_some, promoteRow, if_neg hidr, if_neg hinert]

end Promote

/-- **Promotions land**, the activation of a validated version that passes `promotion_readiness` as well
as the rollback to a retired one that has chunks and the dimensions of the schema, exactly if the key of
the active version is smaller than that of the version to promote. -/
theorem promotions_land (T : VersionTable) (a r : RagIndexVersion) (now : DateTime)
    (ha : getActiveVersion T = some a) (hr : T.find (byVersionId r.id) = some r) :
    (∀ counts, r.status = .validated → readyForActivation r counts = true →
      (Lands T a r now (activate T r.id counts now) ↔ a.id < r.id)) ∧
    ∀ chunkCount, r.status = .retired → r.embeddingDimensions = ragVectorDimensions → 1 ≤ chunkCount →
      (Lands T a r now (rollback T r.id chunkCount now) ↔ a.id < r.id) := by
  have hlock : lockVersion T r.id = .ok r := by rw [lockVersion, hr]
  refine ⟨fun counts hstatus hready ↦ ?_, fun chunkCount hstatus hdims hcount ↦ ?_⟩
  · have hinactive : r.status ≠ .active := by rw [hstatus]; decide
    have hvalidated : r.validatedAt ≠ none := by
      simp only [readyForActivation, Bool.decide_and, Bool.and_eq_true, decide_eq_true_eq] at hready
      exact Option.isSome_iff_ne_none.1 hready.2.2.2.2
    have hactivate : activate T r.id counts now = promote T r.id now := by
      rw [activate, hlock]
      dsimp only
      rw [if_neg hinactive, hstatus, show assertTransition .validated .active = .ok () from rfl]
      dsimp only
      rw [if_neg (by simp [hvalidated]), if_pos hready]
    rw [hactivate]
    exact lands_promote_iff ha hr hinactive
  · have hinactive : r.status ≠ .active := by rw [hstatus]; decide
    have hrollback : rollback T r.id chunkCount now = promote T r.id now := by
      rw [rollback, hlock]
      dsimp only
      rw [if_neg hinactive, if_neg (by simp [hstatus]), assertDimensionsCompatible,
        if_neg (by simp [hdims])]
      dsimp only
      rw [if_neg (by omega)]
    rw [hrollback]
    exact lands_promote_iff ha hr hinactive

/-! ### Keys only grow -/

section Growing

variable {sha256 : String → String} {T T' : VersionTable} {c : VersionCall}

/-- Retired versions have smaller keys than the active one. -/
def RetiredBelow (T : VersionTable) : Prop :=
  ∀ v ∈ T.rows, v.status = .retired → ∃ a ∈ T.rows, a.status = .active ∧ v.id < a.id

theorem RetiredBelow.promote {row : RagIndexVersion} {now : DateTime} (h : RetiredBelow T)
    (hrow : T.find (byVersionId row.id) = some row)
    (hinactive : row.status ≠ .active) (hok : GenericApp.promote T row.id now = .ok T') :
    RetiredBelow T' := by
  have hfind : T'.find (byVersionId row.id) = some (promoteRow row.id now row) := by
    rw [find_of_promote hok, hrow, Option.map_some]
  have hactive : (promoteRow row.id now row).status = .active := by rw [promoteRow, if_pos rfl]
  -- The promotion has landed, so the key of the version that was active is smaller.
  have hbefore : ∀ a ∈ T.rows, a.status = .active → a.id < row.id := fun a ha hstatus ↦ by
    have hne := ne_of_active (getActiveVersion_of_mem ha hstatus) hrow hinactive
    refine (Nat.lt_or_gt_of_ne hne).resolve_right fun hlt ↦ ?_
    rw [not_promote (getActiveVersion_of_mem ha hstatus) hrow hlt] at hok
    cases hok
  intro v hv hretired
  refine ⟨promoteRow row.id now row, Table.mem_of_find hfind, hactive, ?_⟩
  have hv' := find_self hv
  rw [find_of_promote hok] at hv'
  obtain ⟨w, hw, rfl⟩ := Option.map_eq_some_iff.1 hv'
  rw [promoteRow_id, promoteRow_id]
  have hmem := Table.mem_of_find hw
  by_cases hid : w.id = row.id
  · rw [promoteRow, if_pos hid] at hretired
    cases hretired
  · rw [promoteRow, if_neg hid] at hretired
    by_cases hstatus : w.status = .active
    · exact hbefore w hmem hstatus
    · rw [if_neg hstatus] at hretired
      obtain ⟨a, ha, hactive_a, hlt⟩ := h w hmem hretired
      exact hlt.trans (hbefore a ha hactive_a)

theorem RetiredBelow.effect (h : RetiredBelow T) (heffect : VersionEffect sha256 T c T') :
    RetiredBelow T' := by
  have hinsert : ∀ row : RagIndexVersion, T.insert row = some T' → row.status ≠ .retired →
      RetiredBelow T' := fun row hinsert hrow v hv hretired ↦ by
    rw [Table.rows_of_insert hinsert] at hv ⊢
    rcases List.mem_append.1 hv with hv | hv
    · obtain ⟨a, ha, hactive, hlt⟩ := h v hv hretired
      exact ⟨a, List.mem_append_left _ ha, hactive, hlt⟩
    · obtain rfl := List.mem_singleton.1 hv
      exact absurd hretired hrow
  rcases heffect with - | ⟨-, row, hstatus, -, hins⟩ | ⟨-, -, -, row, -, -, -, hstatus, -, hins⟩ |
    ⟨-, now, row, hrow, hbuilding, hupdate⟩ | ⟨-, now, row, hrow, hstatus, hpromote⟩
  · exact h
  · exact hinsert row hins (by rw [hstatus]; decide)
  · exact hinsert row hins (by rw [hstatus]; decide)
  · -- The row that is validated was neither active nor retired, and is not now.
    have hback : ∀ v ∈ T'.rows, v.status ≠ .validated → v ∈ T.rows := fun v hv hstatus ↦ by
      have hv' := find_self hv
      rw [Table.find_of_update hupdate fun _ _ ↦ rfl] at hv'
      obtain ⟨w, hw, hwv⟩ := Option.map_eq_some_iff.1 hv'
      split at hwv
      · exact absurd (congrArg RagIndexVersion.status hwv).symm hstatus
      · exact hwv ▸ Table.mem_of_find hw
    intro v hv hretired
    obtain ⟨a, ha, hactive, hlt⟩ := h v (hback v hv (by rw [hretired]; decide)) hretired
    refine ⟨a, ?_, hactive, hlt⟩
    have ha' := find_self ha
    have hfind : T'.find (byVersionId a.id) = some a := by
      rw [Table.find_of_update hupdate fun _ _ ↦ rfl, ha', Option.map_some, if_neg fun hsel ↦ ?_]
      have : a = row := Table.eq_of_mem_of_sel (single_byVersionId row.id) ha
        (Table.mem_of_find hrow) hsel ((byVersionId_ident _ _).2 rfl)
      rw [this, hbuilding] at hactive
      exact nomatch hactive
    exact Table.mem_of_find hfind
  · exact h.promote hrow (by rcases hstatus with h | h <;> rw [h] <;> decide) hpromote

/-- **Rollbacks never land** on a relation that the calls have built up from nothing: a version is
retired by one with a greater key. -/
theorem rollbacks_never_land {s : Lifecycle} (hs : (lifecycleMachine sha256).Reachable anyStep s)
    {r : RagIndexVersion} (hr : s.versions.find (byVersionId r.id) = some r) (hretired : r.status = .retired)
    (chunkCount : ℕ) (now : DateTime) : ∃ e, rollback s.versions r.id chunkCount now = .error e := by
  have hbelow : RetiredBelow s.versions := by
    refine hs.invariant (I := fun s ↦ RetiredBelow s.versions) ?_ fun s c t h _ hstep ↦ ?_
    · rintro s rfl v hv
      exact nomatch (hv : v ∈ [])
    · obtain rfl : s.call sha256 c = t := Option.some.inj hstep
      rw [Lifecycle.call]
      split
      · next T hrun => exact h.effect (effect_of_run hrun)
      · exact h
  obtain ⟨a, ha, hactive, hlt⟩ := hbelow r (Table.mem_of_find hr) hretired
  have hlock : lockVersion s.versions r.id = .ok r := by rw [lockVersion, hr]
  rw [rollback, hlock]
  dsimp only
  rw [if_neg (by rw [hretired]; decide), if_neg (by simp [hretired])]
  split
  · exact ⟨_, rfl⟩
  · split
    · exact ⟨_, rfl⟩
    · exact ⟨_, not_promote (getActiveVersion_of_mem ha hactive) hr hlt⟩

end Growing

/-! ### Two versions -/

/-- The relation is bootstrapped with the key `i`, the model changes, and a version with the key `j` is
opened and validated. -/
def validatedHistory (i j : Uuid) : List VersionCall :=
  [.ensureActiveVersion smallConfig i 0, .ensureActiveVersion adaConfig j 1,
    .markValidated j { oneDocument with chunkCount := 1 } 2]

set_option maxRecDepth 8000 in
theorem validatedHistory_isSome : ((lifecycleMachine digest).run anyStep .initial
    (validatedHistory 11 12)).isSome = true := by
  decide +kernel

set_option maxRecDepth 8000 in
/-- Rows from before the index was there: a version that is active, and one that has been retired. -/
def legacyVersions : VersionTable where
  rows := [newVersion digest smallConfig 11 .active none (some 0) 0,
    { newVersion digest adaConfig 12 .retired none (some 0) 0 with retiredAt := some 1 }]
  compat := by decide

set_option maxRecDepth 8000 in
theorem promotions_land_twice :
    (∃ a r, a.id = 11 ∧ r.id = 12 ∧ Lands (Option.get _ validatedHistory_isSome).versions a r 3
      (activate (Option.get _ validatedHistory_isSome).versions r.id
        { oneDocument with chunkCount := 1 } 3)) ∧
    ∃ a r, a.id = 11 ∧ r.id = 12 ∧ Lands legacyVersions a r 3 (rollback legacyVersions r.id 1 3) := by
  constructor
  · have ha : ∃ a ∈ (Option.get _ validatedHistory_isSome).versions.rows,
        a.id = 11 ∧ a.status = .active := by decide
    have hr : ∃ r ∈ (Option.get _ validatedHistory_isSome).versions.rows, r.id = 12 ∧
        r.status = .validated ∧ readyForActivation r { oneDocument with chunkCount := 1 } = true := by
      decide
    obtain ⟨a, ha, hida, hactive⟩ := ha
    obtain ⟨r, hr, hidr, hvalidated, hready⟩ := hr
    refine ⟨a, r, hida, hidr, ?_⟩
    refine ((promotions_land _ a r 3 (getActiveVersion_of_mem ha hactive) (find_self hr)).1 _ hvalidated
      hready).2 ?_
    rw [hida, hidr]
    decide
  · have ha : ∃ a ∈ legacyVersions.rows, a.id = 11 ∧ a.status = .active := by decide
    have hr : ∃ r ∈ legacyVersions.rows, r.id = 12 ∧ r.status = .retired ∧
        r.embeddingDimensions = ragVectorDimensions := by decide
    obtain ⟨a, ha, hida, hactive⟩ := ha
    obtain ⟨r, hr, hidr, hretired, hdims⟩ := hr
    refine ⟨a, r, hida, hidr, ?_⟩
    refine ((promotions_land _ a r 3 (getActiveVersion_of_mem ha hactive) (find_self hr)).2 1 hretired
      hdims (Nat.le_refl 1)).2 ?_
    rw [hida, hidr]
    decide

set_option maxRecDepth 8000 in
theorem swappedHistory_isSome : ((lifecycleMachine digest).run anyStep .initial
    (validatedHistory 12 11)).isSome = true := by
  decide +kernel

/-- The second version is activated, and the first is retired. -/
def retiredHistory : List VersionCall :=
  validatedHistory 11 12 ++ [.activate 12 { oneDocument with chunkCount := 1 } 3]

set_option maxRecDepth 8000 in
theorem retiredHistory_isSome : ((lifecycleMachine digest).run anyStep .initial
    retiredHistory).isSome = true := by
  decide +kernel

set_option maxRecDepth 8000 in
theorem rollbacks_never_land_example :
    ∃ r ∈ (Option.get _ retiredHistory_isSome).versions.rows, r.id = 11 ∧ r.status = .retired ∧
      ∃ e, rollback (Option.get _ retiredHistory_isSome).versions r.id 1 4 = .error e := by
  have hr : ∃ r ∈ (Option.get _ retiredHistory_isSome).versions.rows, r.id = 11 ∧ r.status = .retired := by
    decide
  obtain ⟨r, hr, hid, hretired⟩ := hr
  exact ⟨r, hr, hid, hretired,
    rollbacks_never_land (reachable_run rfl retiredHistory_isSome) (find_self hr) hretired 1 4⟩

set_option maxRecDepth 8000 in
/-- **Promotions fail.** The activation fails if the key of the second version is the smaller one. If it
is the greater one the activation lands, and then it is the rollback that fails. -/
theorem promotions_fail :
    (¬∀ s, (lifecycleMachine digest).Reachable anyStep s → ∀ a r now counts,
      getActiveVersion s.versions = some a → s.versions.find (byVersionId r.id) = some r →
      r.status = .validated → readyForActivation r counts = true →
      Lands s.versions a r now (activate s.versions r.id counts now)) ∧
    (¬∀ s, (lifecycleMachine digest).Reachable anyStep s → ∀ a r now chunkCount,
      getActiveVersion s.versions = some a → s.versions.find (byVersionId r.id) = some r →
      r.status = .retired → r.embeddingDimensions = ragVectorDimensions → 1 ≤ chunkCount →
      Lands s.versions a r now (rollback s.versions r.id chunkCount now)) := by
  constructor
  · intro h
    have ha : ∃ a ∈ (Option.get _ swappedHistory_isSome).versions.rows, a.status = .active := by decide
    have hr : ∃ r ∈ (Option.get _ swappedHistory_isSome).versions.rows, r.id = 11 ∧
        r.status = .validated ∧ readyForActivation r { oneDocument with chunkCount := 1 } = true := by
      decide
    obtain ⟨a, ha, hactive⟩ := ha
    obtain ⟨r, hr, hid, hvalidated, hready⟩ := hr
    obtain ⟨T', hok, -⟩ := h _ (reachable_run rfl swappedHistory_isSome) a r 3 _
      (getActiveVersion_of_mem ha hactive) (find_self hr) hvalidated hready
    have herror : activate (Option.get _ swappedHistory_isSome).versions 11
        { oneDocument with chunkCount := 1 } 3 = .error ⟨500, "IntegrityError"⟩ := rfl
    rw [hid, herror] at hok
    exact nomatch hok
  · intro h
    have ha : ∃ a ∈ (Option.get _ retiredHistory_isSome).versions.rows, a.status = .active := by decide
    have hr : ∃ r ∈ (Option.get _ retiredHistory_isSome).versions.rows, r.id = 11 ∧
        r.status = .retired ∧ r.embeddingDimensions = ragVectorDimensions := by decide
    obtain ⟨a, ha, hactive⟩ := ha
    obtain ⟨r, hr, hid, hretired, hdims⟩ := hr
    obtain ⟨T', hok, -⟩ := h _ (reachable_run rfl retiredHistory_isSome) a r 4 1
      (getActiveVersion_of_mem ha hactive) (find_self hr) hretired hdims (Nat.le_refl 1)
    have herror : rollback (Option.get _ retiredHistory_isSome).versions 11 1 4 =
        .error ⟨500, "IntegrityError"⟩ := rfl
    rw [hid, herror] at hok
    exact nomatch hok

end GenericApp
