import GenericApp.Rag.IndexHomogeneity

/-!
# The life of an index version

The six calls that write `rag_index_versions`, in any order, under any configurations and with any
results of `promotion_readiness`. What a call that succeeds has done is one of five things,
`VersionEffect`: nothing, a row that is building, a bootstrap, a validation or a promotion.

`Lifecycle` keeps two records that the program does not. `passed` is the rows that `mark_validated` has
validated, and when. `bootstrapped` is the rows that were inserted as active, and whether the relation
was empty. The program means to bootstrap only an empty relation, but looks for an active row and for a
row of its own key; a relation with other rows, none of them active, passes both tests.

* `versions_are_earned`: if no call bootstraps a relation with rows, every row that is or was active
  was validated, or is the first row; and every call that does breaks this.
* `versions_are_given_away`: such a call is possible.
-/

namespace GenericApp

open Machine Py

/-! ### The calls -/

/-- A call of `IndexVersionService`, with the configuration it runs under, the identifier and the time
that it draws, and what it counts. -/
inductive VersionCall
  | ensureActiveVersion (config : RagConfig) (id : Uuid) (now : DateTime)
  | ensureDesiredBuildingVersion (config : RagConfig) (id : Uuid) (now : DateTime)
  | createBuildingVersion (config : RagConfig) (id : Uuid) (notes : Option String) (now : DateTime)
  | markValidated (versionId : Uuid) (counts : PromotionCounts) (now : DateTime)
  | activate (versionId : Uuid) (counts : PromotionCounts) (now : DateTime)
  | rollback (versionId : Uuid) (chunkCount : ℕ) (now : DateTime)

/-- The relation that the call commits, or the error it raises. -/
def VersionCall.run (sha256 : String → String) (T : VersionTable) :
    VersionCall → Except HttpError VersionTable
  | ensureActiveVersion config id now => (GenericApp.ensureActiveVersion sha256 config T id now).map (·.1)
  | ensureDesiredBuildingVersion config id now =>
    (GenericApp.ensureDesiredBuildingVersion sha256 config T id now).map (·.1)
  | createBuildingVersion config id notes now =>
    (GenericApp.createBuildingVersion sha256 config T id notes now).map (·.1)
  | markValidated versionId counts now => GenericApp.markValidated T versionId counts now
  | activate versionId counts now => GenericApp.activate T versionId counts now
  | rollback versionId chunkCount now => GenericApp.rollback T versionId chunkCount now

/-- What a call that succeeds has done. -/
inductive VersionEffect (sha256 : String → String) (T : VersionTable) : VersionCall → VersionTable → Prop
  | unchanged (c : VersionCall) : VersionEffect sha256 T c T
  | opened (c : VersionCall) (row : RagIndexVersion) {T' : VersionTable}
      (hstatus : row.status = .building) (hfit : row.embeddingDimensions = ragVectorDimensions)
      (hinsert : T.insert row = some T') : VersionEffect sha256 T c T'
  | bootstrapped (config : RagConfig) (id : Uuid) (now : DateTime) (row : RagIndexVersion)
      {T' : VersionTable} (hactive : getActiveVersion T = none)
      (hkey : getByKey T (desiredKey sha256 config) = none)
      (hdims : config.embeddingDimensions = ragVectorDimensions) (hstatus : row.status = .active)
      (hfit : row.embeddingDimensions = ragVectorDimensions) (hinsert : T.insert row = some T') :
      VersionEffect sha256 T (.ensureActiveVersion config id now) T'
  | validated (counts : PromotionCounts) (now : DateTime) (row : RagIndexVersion) {T' : VersionTable}
      (hrow : T.find (byVersionId row.id) = some row) (hstatus : row.status = .building)
      (hupdate : T.update (byVersionId row.id)
        (fun row ↦ { row with status := .validated, validatedAt := some now }) = some T') :
      VersionEffect sha256 T (.markValidated row.id counts now) T'
  | promoted (c : VersionCall) (now : DateTime) (row : RagIndexVersion) {T' : VersionTable}
      (hrow : T.find (byVersionId row.id) = some row)
      (hstatus : row.status = .validated ∨ row.status = .retired)
      (hpromote : promote T row.id now = .ok T') : VersionEffect sha256 T c T'

section Effect

variable {sha256 : String → String} {config : RagConfig} {T T' : VersionTable}
  {id versionId : Uuid} {now : DateTime} {v : RagIndexVersion}

theorem addVersion_dimensions {row : RagIndexVersion} (h : addVersion T row = .ok (T', v)) :
    row.embeddingDimensions = ragVectorDimensions := by
  rw [addVersion, assertDimensionsCompatible] at h
  by_contra hne
  rw [if_pos hne] at h
  cases h

theorem lockVersion_eq_ok (h : lockVersion T versionId = .ok v) :
    T.find (byVersionId versionId) = some v ∧ v.id = versionId := by
  rw [lockVersion] at h
  split at h
  · next row hrow =>
    obtain rfl := Except.ok.inj h
    exact ⟨hrow, (byVersionId_ident _ _).1 (Table.sel_of_find hrow)⟩
  · exact nomatch h

theorem ensureDesired_effect (c : VersionCall) {r : VersionTable × Option RagIndexVersion}
    (h : ensureDesiredBuildingVersion sha256 config T id now = .ok r) : VersionEffect sha256 T c r.1 := by
  rw [ensureDesiredBuildingVersion] at h
  split at h
  · obtain rfl := Except.ok.inj h
    exact .unchanged c
  · split at h
    · obtain rfl := Except.ok.inj h
      exact .unchanged c
    · obtain ⟨r', hadd, rfl⟩ := eq_ok_of_map h
      exact .opened c _ rfl (addVersion_dimensions hadd) (addVersion_eq_ok hadd).1

theorem ensureActive_effect (h : ensureActiveVersion sha256 config T id now = .ok (T', v)) :
    VersionEffect sha256 T (.ensureActiveVersion config id now) T' := by
  rw [ensureActiveVersion] at h
  split at h
  · obtain ⟨r, hdesired, hr⟩ := eq_ok_of_map h
    obtain ⟨rfl, rfl⟩ := Prod.mk.inj hr
    exact ensureDesired_effect _ hdesired
  · next hactive =>
    split at h
    · split at h
      · obtain ⟨rfl, rfl⟩ := Prod.mk.inj (Except.ok.inj h)
        exact .unchanged _
      · cases h
    · next hkey =>
      exact .bootstrapped config id now _ hactive hkey (addVersion_dimensions h) rfl
        (addVersion_dimensions h) (addVersion_eq_ok h).1

theorem createBuilding_effect (c : VersionCall) {notes : Option String}
    (h : createBuildingVersion sha256 config T id notes now = .ok (T', v)) :
    VersionEffect sha256 T c T' := by
  rw [createBuildingVersion] at h
  split at h
  · cases h
  · split at h
    · obtain ⟨rfl, -⟩ := Prod.mk.inj (Except.ok.inj h)
      exact .unchanged c
    · exact .opened c _ rfl (addVersion_dimensions h) (addVersion_eq_ok h).1

theorem assertTransition_eq_ok {current target : IndexVersionStatus}
    (h : assertTransition current target = .ok ()) : (current, target) ∈ allowedTransitions := by
  rw [assertTransition] at h
  split at h
  · next hmem => exact List.contains_iff_mem.1 hmem
  · exact nomatch h

/-- Only what is building becomes validated. -/
theorem markValidated_effect {counts : PromotionCounts}
    (h : markValidated T versionId counts now = .ok T') :
    VersionEffect sha256 T (.markValidated versionId counts now) T' := by
  rw [markValidated] at h
  split at h
  · cases h
  · next row hlock =>
    obtain ⟨hrow, rfl⟩ := lockVersion_eq_ok hlock
    split at h
    · obtain rfl := Except.ok.inj h
      exact .unchanged _
    · split at h
      · cases h
      · next hallowed =>
        have hstatus : row.status = .building := by
          simpa [allowedTransitions] using assertTransition_eq_ok hallowed
        split at h
        · split at h
          · next T'' hupdate =>
            obtain rfl := Except.ok.inj h
            exact .validated counts now row hrow hstatus hupdate
          · cases h
        · cases h

theorem activate_effect (c : VersionCall) {counts : PromotionCounts}
    (h : activate T versionId counts now = .ok T') : VersionEffect sha256 T c T' := by
  rw [activate] at h
  split at h
  · cases h
  · next row hlock =>
    obtain ⟨hrow, rfl⟩ := lockVersion_eq_ok hlock
    split at h
    · obtain rfl := Except.ok.inj h
      exact .unchanged c
    · split at h
      · cases h
      · split at h
        · cases h
        · next hvalidated =>
          rw [not_or, not_not] at hvalidated
          split at h
          · exact .promoted c now row hrow (.inl hvalidated.1) h
          · cases h

theorem rollback_effect (c : VersionCall) {chunkCount : ℕ}
    (h : rollback T versionId chunkCount now = .ok T') : VersionEffect sha256 T c T' := by
  rw [rollback] at h
  split at h
  · cases h
  · next row hlock =>
    obtain ⟨hrow, rfl⟩ := lockVersion_eq_ok hlock
    split at h
    · obtain rfl := Except.ok.inj h
      exact .unchanged c
    · split at h
      · cases h
      · next hretired =>
        rw [not_not] at hretired
        split at h
        · cases h
        · split at h
          · cases h
          · exact .promoted c now row hrow (.inr hretired) h

/-- **What a call can do.** -/
theorem effect_of_run {c : VersionCall} (h : c.run sha256 T = .ok T') : VersionEffect sha256 T c T' := by
  match c with
  | .ensureActiveVersion .. =>
    obtain ⟨r, hr, rfl⟩ := eq_ok_of_map h
    exact ensureActive_effect hr
  | .ensureDesiredBuildingVersion .. =>
    obtain ⟨r, hr, rfl⟩ := eq_ok_of_map h
    exact ensureDesired_effect _ hr
  | .createBuildingVersion .. =>
    obtain ⟨r, hr, rfl⟩ := eq_ok_of_map h
    exact createBuilding_effect _ hr
  | .markValidated .. => exact markValidated_effect h
  | .activate .. => exact activate_effect _ h
  | .rollback .. => exact rollback_effect _ h

end Effect

/-! ### Rows along a call -/

section Rows

variable {sha256 : String → String} {T T' : VersionTable} {c : VersionCall}

/-- A row along a call: where it is afterwards, and how its status has moved. -/
def RowMoves (v v' : RagIndexVersion) : Prop :=
  v'.key = v.key ∧ (v'.status = v.status ∨ (v.status, v'.status) ∈ allowedTransitions)

theorem moves_promoteRow {row v : RagIndexVersion} (now : DateTime)
    (hrow : T.find (byVersionId row.id) = some row)
    (hstatus : row.status = .validated ∨ row.status = .retired) (hv : v ∈ T.rows) :
    RowMoves v (promoteRow row.id now v) := by
  refine ⟨promoteRow_key v, ?_⟩
  rw [promoteRow]
  split
  · next hid =>
    obtain rfl : v = row := Table.eq_of_mem_of_sel (single_byVersionId row.id) hv
      (Table.mem_of_find hrow) ((byVersionId_ident _ _).2 hid) ((byVersionId_ident _ _).2 rfl)
    right
    show (v.status, IndexVersionStatus.active) ∈ allowedTransitions
    rcases hstatus with h | h <;> rw [h] <;> decide
  · split
    · next hactive =>
      right
      show (v.status, IndexVersionStatus.retired) ∈ allowedTransitions
      rw [hactive]
      decide
    · exact .inl rfl

/-- **Statuses move along the edges of the lifecycle.** -/
theorem VersionEffect.moves (h : VersionEffect sha256 T c T') {id : Uuid} {v : RagIndexVersion}
    (hv : T.find (byVersionId id) = some v) :
    ∃ v', T'.find (byVersionId id) = some v' ∧ RowMoves v v' := by
  rcases h with - | ⟨-, row, -, -, hinsert⟩ | ⟨-, -, -, row, -, -, -, -, -, hinsert⟩ |
    ⟨-, now, row, hrow, hstatus, hupdate⟩ | ⟨-, now, row, hrow, hstatus, hpromote⟩
  · exact ⟨v, hv, rfl, .inl rfl⟩
  · exact ⟨v, Table.find_of_insert_of_some hinsert hv, rfl, .inl rfl⟩
  · exact ⟨v, Table.find_of_insert_of_some hinsert hv, rfl, .inl rfl⟩
  · have hfind := Table.find_of_update (q := byVersionId id) hupdate fun _ _ ↦ rfl
    rw [hv, Option.map_some] at hfind
    refine ⟨_, hfind, ?_⟩
    split
    · next hsel =>
      obtain rfl : v = row := Table.eq_of_mem_of_sel (single_byVersionId row.id)
        (Table.mem_of_find hv) (Table.mem_of_find hrow) hsel ((byVersionId_ident _ _).2 rfl)
      refine ⟨rfl, .inr ?_⟩
      show (v.status, IndexVersionStatus.validated) ∈ _
      rw [hstatus]
      decide
    · exact ⟨rfl, .inl rfl⟩
  · refine ⟨_, ?_, moves_promoteRow now hrow hstatus (Table.mem_of_find hv)⟩
    rw [find_of_promote hpromote, hv, Option.map_some]

/-- An active row stays, unless another is promoted. -/
theorem VersionEffect.isSome_active (h : VersionEffect sha256 T c T')
    (hactive : (getActiveVersion T).isSome = true) : (getActiveVersion T').isSome = true := by
  have hkeep : ∀ id v', T'.find (byVersionId id) = some v' → v'.status = .active →
      (getActiveVersion T').isSome = true := fun id v' hfind hstatus ↦ by
    rw [getActiveVersion, Table.find_eq_some_of_mem single_activeVersion (Table.mem_of_find hfind)
      ((activeVersion_ident v').2 hstatus)]
    rfl
  obtain ⟨v, hv⟩ := Option.isSome_iff_exists.1 hactive
  have hstatus : v.status = .active := (activeVersion_ident v).1 (Table.sel_of_find hv)
  have hfind : T.find (byVersionId v.id) = some v :=
    Table.find_eq_some_of_mem (single_byVersionId _) (Table.mem_of_find hv) ((byVersionId_ident _ _).2 rfl)
  rcases h with - | ⟨-, row, -, -, hinsert⟩ | ⟨-, -, -, row, hnone, -, -, -, -, -⟩ |
    ⟨-, now, row, hrow, hbuilding, hupdate⟩ | ⟨-, now, row, hrow, -, hpromote⟩
  · exact hactive
  · exact hkeep v.id v (Table.find_of_insert_of_some hinsert hfind) hstatus
  · rw [hnone] at hactive
    exact nomatch hactive
  · refine hkeep v.id v ?_ hstatus
    rw [Table.find_of_update hupdate fun _ _ ↦ rfl, hfind, Option.map_some, if_neg fun hsel ↦ ?_]
    -- The row that was building is not the active one.
    obtain rfl : v = row := Table.eq_of_mem_of_sel (single_byVersionId row.id)
      (Table.mem_of_find hv) (Table.mem_of_find hrow) hsel ((byVersionId_ident _ _).2 rfl)
    rw [hbuilding] at hstatus
    exact nomatch hstatus
  · refine hkeep row.id (promoteRow row.id now row) ?_ ?_
    · rw [find_of_promote hpromote, hrow, Option.map_some]
    · rw [promoteRow, if_pos rfl]

end Rows

/-! ### The history of a relation -/

/-- The relation, and the two records. -/
structure Lifecycle where
  versions : VersionTable
  passed : List (Uuid × DateTime)
  bootstrapped : List (Uuid × Bool)

namespace Lifecycle

/-- Nothing yet. -/
def initial : Lifecycle := ⟨.empty, [], []⟩

/-- The row that the call validates. -/
def newlyPassed (T : VersionTable) : VersionCall → List (Uuid × DateTime)
  | .markValidated versionId _ now =>
    if (T.find (byVersionId versionId)).any fun row ↦ row.status = .building then [(versionId, now)] else []
  | _ => []

/-- The rows that are inserted as active. -/
def newlyBootstrapped (T T' : VersionTable) : List (Uuid × Bool) :=
  (T'.rows.filter fun row ↦
    row.status = .active ∧ (T.find (byVersionId row.id)).isNone).map fun row ↦ (row.id, T.rows.isEmpty)

/-- One call. A call that raises leaves everything as it was. -/
def call (sha256 : String → String) (s : Lifecycle) (c : VersionCall) : Lifecycle :=
  match c.run sha256 s.versions with
  | .ok T =>
    ⟨T, s.passed ++ newlyPassed s.versions c, s.bootstrapped ++ newlyBootstrapped s.versions T⟩
  | .error _ => s

end Lifecycle

/-- The calls, from the empty relation. -/
def lifecycleMachine (sha256 : String → String) : Machine Lifecycle VersionCall where
  init s := s = .initial
  step s c := some (s.call sha256 c)

/-- The call does not bootstrap a relation that has rows. -/
def BootstrapsEmpty (sha256 : String → String) (s : Lifecycle) : VersionCall → Prop
  | .ensureActiveVersion config _ _ =>
    s.versions.rows = [] ∨ (getActiveVersion s.versions).isSome = true ∨
      (getByKey s.versions (desiredKey sha256 config)).isSome = true ∨
      config.embeddingDimensions ≠ ragVectorDimensions
  | _ => True

/-- The row was validated by `mark_validated`, or inserted as active while there were no others. -/
def Earned (s : Lifecycle) (v : RagIndexVersion) : Prop :=
  (∃ t, (v.id, t) ∈ s.passed ∧ v.validatedAt = some t) ∨ (v.id, true) ∈ s.bootstrapped

/-- What holds of the relation and its history. Rows are never deleted, and a row that was active stays
active or retired, so `earned` is about all rows that are or were active. -/
structure LifecycleLaws (s : Lifecycle) : Prop where
  oneActive : ∀ v ∈ s.versions.rows, ∀ w ∈ s.versions.rows,
    v.status = .active → w.status = .active → v = w
  keysUnique : ∀ v ∈ s.versions.rows, ∀ w ∈ s.versions.rows, v.key = w.key → v = w
  earned : ∀ v ∈ s.versions.rows, v.status = .active ∨ v.status = .retired → Earned s v
  bootstrappedOnce : s.bootstrapped.length ≤ 1

/-! ### Along a history -/

section History

variable {sha256 : String → String} {s t : Lifecycle} {c : VersionCall} {T T' : VersionTable}

theorem Earned.mono {v : RagIndexVersion} (h : Earned s v) (hpassed : ∀ p ∈ s.passed, p ∈ t.passed)
    (hbootstrapped : ∀ p ∈ s.bootstrapped, p ∈ t.bootstrapped) : Earned t v := by
  rcases h with ⟨time, hp, hv⟩ | hb
  · exact .inl ⟨time, hpassed _ hp, hv⟩
  · exact .inr (hbootstrapped _ hb)

theorem find_self {v : RagIndexVersion} (h : v ∈ T.rows) : T.find (byVersionId v.id) = some v :=
  Table.find_eq_some_of_mem (single_byVersionId _) h ((byVersionId_ident _ _).2 rfl)

/-- An accepted row is a new one. -/
theorem find_of_insert_new {row : RagIndexVersion} (h : T.insert row = some T') :
    T.find (byVersionId row.id) = none := by
  rw [Table.find_eq_none_iff]
  intro v hv
  exact decide_eq_false (Table.compat_of_insert h hv).1

/-- What the induction carries: the law of the rows, stated of the validated ones too; that nothing is
bootstrapped while there is an active row; and that the records are about rows. -/
structure Lifecycle.Kept (s : Lifecycle) : Prop where
  earned : ∀ v ∈ s.versions.rows, v.status ≠ .building → Earned s v
  bootstrapped : s.bootstrapped = [] ∨
    s.bootstrapped.length = 1 ∧ (getActiveVersion s.versions).isSome = true
  passedRows : ∀ p ∈ s.passed, (s.versions.find (byVersionId p.1)).isSome = true
  bootstrappedRows : ∀ p ∈ s.bootstrapped, (s.versions.find (byVersionId p.1)).isSome = true

theorem Lifecycle.Kept.laws (h : s.Kept) : LifecycleLaws s where
  oneActive v hv w hw hva hwa := Table.eq_of_mem_of_sel single_activeVersion hv hw
    ((activeVersion_ident v).2 hva) ((activeVersion_ident w).2 hwa)
  keysUnique v hv w hw hkey := Table.eq_of_mem_of_sel (single_byVersionKey v.key) hv hw
    ((byVersionKey_ident _ _).2 rfl) ((byVersionKey_ident _ _).2 hkey.symm)
  earned v hv hstatus := h.earned v hv (by rcases hstatus with h | h <;> rw [h] <;> decide)
  bootstrappedOnce := by
    rcases h.bootstrapped with h | h
    · rw [h]
      exact Nat.zero_le 1
    · omega

/-- A row that is inserted as active is recorded. -/
theorem newlyBootstrapped_of_insert {row : RagIndexVersion} (hinsert : T.insert row = some T')
    (hactive : row.status = .active) :
    Lifecycle.newlyBootstrapped T T' = [(row.id, T.rows.isEmpty)] := by
  have hold : (T.rows.filter fun v ↦ v.status = .active ∧ (T.find (byVersionId v.id)).isNone) = [] := by
    rw [List.filter_eq_nil_iff]
    intro v hv
    rw [find_self hv]
    simp
  rw [Lifecycle.newlyBootstrapped, Table.rows_of_insert hinsert, List.filter_append, hold]
  simp [hactive, find_of_insert_new hinsert]

/-- Only a bootstrap adds to the record of bootstraps. -/
theorem newlyBootstrapped_of_effect (h : VersionEffect sha256 T c T') :
    Lifecycle.newlyBootstrapped T T' = [] ∨ (getActiveVersion T = none ∧ ∃ row,
      T.insert row = some T' ∧ row.status = .active ∧
        Lifecycle.newlyBootstrapped T T' = [(row.id, T.rows.isEmpty)]) := by
  have hempty : (∀ v ∈ T'.rows, v.status = .active → T.find (byVersionId v.id) ≠ none) →
      Lifecycle.newlyBootstrapped T T' = [] := fun hold ↦ by
    rw [Lifecycle.newlyBootstrapped, List.map_eq_nil_iff, List.filter_eq_nil_iff]
    intro v hv hnew
    rw [decide_eq_true_eq, Option.isNone_iff_eq_none] at hnew
    exact hold v hv hnew.1 hnew.2
  have hrows : (∀ id, T.find (byVersionId id) = none → T'.find (byVersionId id) = none) →
      Lifecycle.newlyBootstrapped T T' = [] := fun hnone ↦ hempty fun v hv _ hfind ↦ by
    have := hnone _ hfind
    rw [find_self hv] at this
    exact nomatch this
  rcases h with - | ⟨-, row, hstatus, -, hinsert⟩ | ⟨-, -, -, row, hnone, -, -, hstatus, -, hinsert⟩ |
    ⟨-, now, row, hrow, -, hupdate⟩ | ⟨-, now, row, hrow, -, hpromote⟩
  · exact .inl (hrows fun _ h ↦ h)
  · refine .inl (hempty fun v hv hactive ↦ ?_)
    rw [Table.rows_of_insert hinsert] at hv
    rcases List.mem_append.1 hv with hv | hv
    · rw [find_self hv]
      exact Option.some_ne_none v
    · obtain rfl := List.mem_singleton.1 hv
      rw [hstatus] at hactive
      exact nomatch hactive
  · exact .inr ⟨hnone, row, hinsert, hstatus, newlyBootstrapped_of_insert hinsert hstatus⟩
  · refine .inl (hrows fun id h ↦ ?_)
    rw [Table.find_of_update hupdate fun _ _ ↦ rfl, h]
    rfl
  · refine .inl (hrows fun id h ↦ ?_)
    rw [find_of_promote hpromote, h]
    rfl

/-- Rows are never deleted. -/
theorem VersionEffect.isSome_find (h : VersionEffect sha256 T c T') {id : Uuid}
    (hid : (T.find (byVersionId id)).isSome = true) : (T'.find (byVersionId id)).isSome = true := by
  obtain ⟨v, hv⟩ := Option.isSome_iff_exists.1 hid
  obtain ⟨v', hv', -⟩ := h.moves hv
  rw [hv']
  rfl

/-- **Where the rows come from** that a call leaves behind: they are building, or were there and are
validated as they were, or the call has validated them, or bootstrapped the relation with them. -/
theorem VersionEffect.origin (h : VersionEffect sha256 T c T') {v : RagIndexVersion} (hv : v ∈ T'.rows) :
    v.status = .building ∨
    (∃ v₀ ∈ T.rows, v₀.status ≠ .building ∧ v.id = v₀.id ∧ v.validatedAt = v₀.validatedAt) ∨
    (∃ counts now row, c = .markValidated v.id counts now ∧ v.validatedAt = some now ∧
      T.find (byVersionId v.id) = some row ∧ row.status = .building) ∨
    ∃ config id now, c = .ensureActiveVersion config id now ∧ getActiveVersion T = none ∧
      getByKey T (desiredKey sha256 config) = none ∧
      config.embeddingDimensions = ragVectorDimensions ∧ v.status = .active ∧ T.insert v = some T' := by
  have hkept : v ∈ T.rows → v.status = .building ∨
      ∃ v₀ ∈ T.rows, v₀.status ≠ .building ∧ v.id = v₀.id ∧ v.validatedAt = v₀.validatedAt := fun hv ↦ by
    by_cases hstatus : v.status = .building
    · exact .inl hstatus
    · exact .inr ⟨v, hv, hstatus, rfl, rfl⟩
  have hfind := find_self hv
  rcases h with - | ⟨-, row, hbuilding, -, hinsert⟩ |
    ⟨config, id, now, row, hnone, hkey, hdims, hactive, -, hinsert⟩ |
    ⟨counts, now, row, hrow, hbuilding, hupdate⟩ | ⟨-, now, row, hrow, hbefore, hpromote⟩
  · exact (hkept hv).imp_right .inl
  · rw [Table.rows_of_insert hinsert] at hv
    rcases List.mem_append.1 hv with hv | hv
    · exact (hkept hv).imp_right .inl
    · obtain rfl := List.mem_singleton.1 hv
      exact .inl hbuilding
  · rw [Table.rows_of_insert hinsert] at hv
    rcases List.mem_append.1 hv with hv | hv
    · exact (hkept hv).imp_right .inl
    · obtain rfl := List.mem_singleton.1 hv
      exact .inr (.inr (.inr ⟨config, id, now, rfl, hnone, hkey, hdims, hactive, hinsert⟩))
  · rw [Table.find_of_update hupdate fun _ _ ↦ rfl] at hfind
    obtain ⟨v₀, hv₀, hv'⟩ := Option.map_eq_some_iff.1 hfind
    by_cases hid : v₀.id = row.id
    · rw [if_pos ((byVersionId_ident _ _).2 hid)] at hv'
      subst hv'
      refine .inr (.inr (.inl ⟨counts, now, row, ?_, rfl, ?_, hbuilding⟩))
      · rw [hid]
      · rw [← hrow, hid]
    · rw [if_neg fun hsel ↦ hid ((byVersionId_ident _ _).1 hsel)] at hv'
      subst hv'
      exact (hkept (Table.mem_of_find hv₀)).imp_right .inl
  · rw [find_of_promote hpromote] at hfind
    obtain ⟨v₀, hv₀, rfl⟩ := Option.map_eq_some_iff.1 hfind
    have hmem := Table.mem_of_find hv₀
    rw [promoteRow]
    by_cases hid : v₀.id = row.id
    · rw [if_pos hid]
      obtain rfl : v₀ = row := Table.eq_of_mem_of_sel (single_byVersionId row.id) hmem
        (Table.mem_of_find hrow) ((byVersionId_ident _ _).2 hid) ((byVersionId_ident _ _).2 rfl)
      refine .inr (.inl ⟨v₀, hmem, ?_, rfl, rfl⟩)
      rcases hbefore with h | h <;> rw [h] <;> decide
    · rw [if_neg hid]
      by_cases hactive : v₀.status = .active
      · rw [if_pos hactive]
        refine .inr (.inl ⟨v₀, hmem, ?_, rfl, rfl⟩)
        rw [hactive]
        decide
      · rw [if_neg hactive]
        rw [promoteRow, if_neg hid, if_neg hactive] at hkept
        exact (hkept hmem).imp_right .inl

/-- Only rows are validated. -/
theorem isSome_of_mem_newlyPassed {p : Uuid × DateTime} (h : p ∈ Lifecycle.newlyPassed T c) :
    (T.find (byVersionId p.1)).isSome = true := by
  unfold Lifecycle.newlyPassed at h
  split at h
  · split at h
    · next hany =>
      obtain rfl := List.mem_singleton.1 h
      exact Option.isSome_of_any hany
    · exact nomatch h
  · exact nomatch h

/-- What one call that meets the condition does to the records. -/
theorem Lifecycle.Kept.effect (h : s.Kept) (hC : BootstrapsEmpty sha256 s c)
    (heffect : VersionEffect sha256 s.versions c T) :
    Lifecycle.Kept ⟨T, s.passed ++ Lifecycle.newlyPassed s.versions c,
      s.bootstrapped ++ Lifecycle.newlyBootstrapped s.versions T⟩ where
  earned v hv hstatus := by
    rcases heffect.origin hv with hbuilding | ⟨v₀, hmem, hbefore, hid, hvalidated⟩ |
      ⟨counts, now, row, rfl, hvalidated, hrow, hbuilding⟩ |
      ⟨config, id, now, rfl, hnone, hkey, hdims, hactive, hinsert⟩
    · exact absurd hbuilding hstatus
    · have hearned : Earned s v := by
        rw [Earned, hid, hvalidated]
        exact h.earned v₀ hmem hbefore
      exact hearned.mono (fun p hp ↦ List.mem_append_left _ hp) fun p hp ↦ List.mem_append_left _ hp
    · refine .inl ⟨now, List.mem_append_right _ ?_, hvalidated⟩
      rw [Lifecycle.newlyPassed, hrow, Option.any_some, decide_eq_true hbuilding, if_pos rfl]
      exact List.mem_singleton_self _
    · have hempty : s.versions.rows = [] := by
        rcases hC with h | h | h | h
        · exact h
        · rw [hnone] at h
          exact nomatch h
        · rw [hkey] at h
          exact nomatch h
        · exact absurd hdims h
      refine .inr (List.mem_append_right _ ?_)
      rw [newlyBootstrapped_of_insert hinsert hactive, hempty]
      exact List.mem_singleton_self _
  bootstrapped := by
    rcases newlyBootstrapped_of_effect heffect with hnew | ⟨hnone, row, hinsert, hactive, hnew⟩
    · rw [hnew, List.append_nil]
      exact h.bootstrapped.imp_right fun hb ↦ ⟨hb.1, heffect.isSome_active hb.2⟩
    · -- There is no active row yet, so nothing has been bootstrapped.
      have hfirst : s.bootstrapped = [] := h.bootstrapped.resolve_right fun hb ↦ by
        rw [hnone] at hb
        exact nomatch hb.2
      refine .inr ⟨by rw [hnew, hfirst]; rfl, ?_⟩
      have hnone' : s.versions.find activeVersion = none := hnone
      rw [getActiveVersion, Table.find_of_insert hinsert, hnone',
        if_pos ((activeVersion_ident row).2 hactive)]
      rfl
  passedRows p hp := by
    rcases List.mem_append.1 hp with hp | hp
    · exact heffect.isSome_find (h.passedRows p hp)
    · exact heffect.isSome_find (isSome_of_mem_newlyPassed hp)
  bootstrappedRows p hp := by
    rcases List.mem_append.1 hp with hp | hp
    · exact heffect.isSome_find (h.bootstrappedRows p hp)
    · obtain ⟨v, hv, rfl⟩ := List.mem_map.1 hp
      rw [find_self (List.mem_of_mem_filter hv)]
      rfl

/-- **One call.** -/
theorem Lifecycle.Kept.step (h : s.Kept) (hC : BootstrapsEmpty sha256 s c) : (s.call sha256 c).Kept := by
  rw [Lifecycle.call]
  split
  · next T hrun => exact h.effect hC (effect_of_run hrun)
  · exact h

/-- A bootstrap of a relation that has rows gives a version away. -/
theorem Lifecycle.Kept.not_laws (h : s.Kept) (hC : ¬BootstrapsEmpty sha256 s c)
    (hrun : c.run sha256 s.versions = .ok T) : ¬LifecycleLaws (s.call sha256 c) := by
  cases c with
  | ensureActiveVersion config id now =>
    rw [BootstrapsEmpty, not_or, not_or, not_or, Option.not_isSome_iff_eq_none,
      Option.not_isSome_iff_eq_none, not_not] at hC
    obtain ⟨hrows, hnone, hkey, hdims⟩ := hC
    obtain ⟨⟨T', v⟩, hensure, rfl⟩ := eq_ok_of_map hrun
    rw [ensureActiveVersion, hnone, hkey] at hensure
    obtain ⟨hinsert, hv⟩ := addVersion_eq_ok hensure
    rw [← hv] at hinsert
    have hactive : v.status = .active := by rw [hv]; rfl
    have hnew := find_of_insert_new hinsert
    rw [Lifecycle.call, hrun]
    intro hlaws
    have hmem : v ∈ T'.rows := by
      rw [Table.rows_of_insert hinsert]
      exact List.mem_append_right _ (List.mem_singleton_self _)
    rcases hlaws.earned v hmem (.inl hactive) with ⟨t, hp, -⟩ | hb
    · -- What has been validated was there before.
      have hp' : (v.id, t) ∈ s.passed := by simpa [Lifecycle.newlyPassed] using hp
      have := h.passedRows _ hp'
      rw [hnew] at this
      cases this
    · rcases List.mem_append.1 hb with hb | hb
      · have := h.bootstrappedRows _ hb
        rw [hnew] at this
        cases this
      · rw [newlyBootstrapped_of_insert hinsert hactive, List.mem_singleton] at hb
        exact hrows (List.isEmpty_iff.1 (Prod.mk.inj hb).2.symm)
  | _ => exact absurd trivial hC

end History

/-- **Versions are earned**, as long as no call bootstraps a relation that has rows: then the laws hold in
every history, a call that raises changes no row, and one that does not moves statuses along the edges
of the lifecycle. Every call that does bootstrap such a relation breaks the laws. -/
theorem versions_are_earned (sha256 : String → String) :
    ∀ s, (lifecycleMachine sha256).Reachable (BootstrapsEmpty sha256) s →
      LifecycleLaws s ∧ ∀ c,
        (∀ e, c.run sha256 s.versions = .error e → (s.call sha256 c).versions = s.versions) ∧
        (∀ T id v, c.run sha256 s.versions = .ok T → s.versions.find (byVersionId id) = some v →
          ∃ v', T.find (byVersionId id) = some v' ∧ RowMoves v v') ∧
        (∀ T, c.run sha256 s.versions = .ok T → ¬BootstrapsEmpty sha256 s c →
          ¬LifecycleLaws (s.call sha256 c)) := by
  intro s hs
  have hkept : s.Kept := by
    refine hs.invariant ?_ fun s c t h hC hstep ↦ ?_
    · rintro s rfl
      refine ⟨fun v hv ↦ ?_, .inl rfl, fun p hp ↦ ?_, fun p hp ↦ ?_⟩
      · exact nomatch (hv : v ∈ [])
      · exact nomatch (hp : p ∈ [])
      · exact nomatch (hp : p ∈ [])
    · obtain rfl : s.call sha256 c = t := Option.some.inj hstep
      exact h.step hC
  refine ⟨hkept.laws, fun c ↦ ⟨fun e he ↦ ?_, fun T id v hrun hv ↦ ?_, fun T hrun hC ↦ ?_⟩⟩
  · rw [Lifecycle.call, he]
  · exact (effect_of_run hrun).moves hv
  · exact hkept.not_laws hC hrun

/-! ### Two histories -/

instance (sha256 : String → String) (s : Lifecycle) (c : VersionCall) :
    Decidable (BootstrapsEmpty sha256 s c) :=
  match c with
  | .ensureActiveVersion config _ _ =>
    have : Decidable (s.versions.rows = []) := decidable_of_iff _ List.isEmpty_iff
    inferInstanceAs (Decidable (s.versions.rows = [] ∨ (getActiveVersion s.versions).isSome = true ∨
      (getByKey s.versions (desiredKey sha256 config)).isSome = true ∨
      config.embeddingDimensions ≠ ragVectorDimensions))
  | .ensureDesiredBuildingVersion .. | .createBuildingVersion .. | .markValidated .. | .activate ..
  | .rollback .. => isTrue trivial

/-- The relation is bootstrapped, the model changes, the version of the new model is validated and
activated, and the old one is activated again. -/
def earnedHistory : List VersionCall :=
  [.ensureActiveVersion smallConfig 11 0, .ensureActiveVersion adaConfig 12 1,
    .markValidated 12 oneDocument 2, .markValidated 12 { oneDocument with chunkCount := 1 } 3,
    .activate 12 { oneDocument with chunkCount := 1 } 4, .rollback 12 1 5, .rollback 11 1 6]

set_option maxRecDepth 8000 in
theorem earnedHistory_isSome : ((lifecycleMachine digest).run (BootstrapsEmpty digest) .initial
    earnedHistory).isSome = true := by
  decide

set_option maxRecDepth 8000 in
theorem earnedHistory_laws : LifecycleLaws (Option.get _ earnedHistory_isSome) ∧
    (Option.get _ earnedHistory_isSome).versions.rows.map (fun v ↦ (v.id, v.status)) =
      [(11, .retired), (12, .active)] :=
  ⟨(versions_are_earned digest _ (reachable_run rfl earnedHistory_isSome)).1, by decide⟩

/-- An operator opens a version, the model changes, and somebody looks at the versions. -/
def givenHistory : List VersionCall :=
  [.createBuildingVersion smallConfig 11 none 0, .ensureActiveVersion adaConfig 12 1]

set_option maxRecDepth 8000 in
theorem givenHistory_isSome : ((lifecycleMachine digest).run anyStep .initial givenHistory).isSome =
    true := by
  decide

set_option maxRecDepth 8000 in
/-- **Versions are given away.** The version of the new model is active, was not validated by
`mark_validated`, and is not the first row. -/
theorem versions_are_given_away :
    (¬∀ s, (lifecycleMachine digest).Reachable anyStep s → LifecycleLaws s) ∧
    (Option.get _ givenHistory_isSome).versions.rows.map (fun v ↦ (v.id, v.status)) =
      [(11, .building), (12, .active)] ∧
    (Option.get _ givenHistory_isSome).passed = [] ∧
    (Option.get _ givenHistory_isSome).bootstrapped = [(12, false)] := by
  have hpassed : (Option.get _ givenHistory_isSome).passed = [] := by decide
  have hbootstrapped : (Option.get _ givenHistory_isSome).bootstrapped = [(12, false)] := by decide
  refine ⟨fun h ↦ ?_, by decide, hpassed, hbootstrapped⟩
  have hlaws := h _ (reachable_run rfl givenHistory_isSome)
  have hget : ∃ v ∈ (Option.get _ givenHistory_isSome).versions.rows, v.status = .active := by decide
  obtain ⟨v, hv, hactive⟩ := hget
  rcases hlaws.earned v hv (.inl hactive) with ⟨t, hp, -⟩ | hb
  · rw [hpassed] at hp
    exact nomatch hp
  · rw [hbootstrapped, List.mem_singleton] at hb
    exact nomatch (Prod.mk.inj hb).2

end GenericApp
