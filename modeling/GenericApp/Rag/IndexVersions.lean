import GenericApp.Foundation.Outcomes
import GenericApp.Rag.PipelineVersions
import GenericApp.Workers.ApplicationJob
import Mathlib.Data.List.Sort

/-!
# Index versions

`rag_index_versions`: one row per pipeline key, at most one of them active. `IndexVersionService` opens
a row for the key of the running configuration, moves it through
`building → validated → active → retired`, and says which row the chunks of an indexing run are written
to.

Every operation here is one transaction. It takes the relation and returns the relation and its answer,
or the error with which the request fails; a failed request leaves the relation as it was.
-/

namespace GenericApp

open Py

/-! ### The relation -/

/-- `INDEX_VERSION_STATUSES`. -/
inductive IndexVersionStatus
  | building | validated | active | retired
  deriving DecidableEq, Repr

/-- `repr` of a status. -/
def IndexVersionStatus.quoted : IndexVersionStatus → String
  | building => "'building'"
  | validated => "'validated'"
  | active => "'active'"
  | retired => "'retired'"

/-- A row of `rag_index_versions`. -/
structure RagIndexVersion where
  id : Uuid
  key : String
  status : IndexVersionStatus
  parserVersion : String
  chunkerVersion : String
  embeddingSchemaVersion : String
  embeddingProvider : String
  embeddingModel : String
  embeddingDimensions : ℤ
  notes : Option String
  createdAt : DateTime
  activatedAt : Option DateTime
  retiredAt : Option DateTime
  validatedAt : Option DateTime
  deriving DecidableEq, Repr

/-- The primary key, the unique `key`, and `uq_rag_index_versions_one_active`. -/
def versionSchema : Schema RagIndexVersion (Uuid × String × IndexVersionStatus) where
  ident row := (row.id, row.key, row.status)
  Compat a b := a.1 ≠ b.1 ∧ a.2.1 ≠ b.2.1 ∧ ¬(a.2.2 = .active ∧ b.2.2 = .active)

instance : DecidableRel versionSchema.Compat := fun a b ↦
  inferInstanceAs (Decidable (a.1 ≠ b.1 ∧ a.2.1 ≠ b.2.1 ∧ ¬(a.2.2 = .active ∧ b.2.2 = .active)))

/-- The relation `rag_index_versions`. -/
abbrev VersionTable := Table versionSchema

/-- `WHERE id = …` -/
def byVersionId (id : Uuid) (i : Uuid × String × IndexVersionStatus) : Bool := i.1 = id

/-- `WHERE key = …` -/
def byVersionKey (key : String) (i : Uuid × String × IndexVersionStatus) : Bool := i.2.1 = key

/-- `WHERE status = 'active'` -/
def activeVersion (i : Uuid × String × IndexVersionStatus) : Bool := i.2.2 = .active

@[simp] theorem byVersionId_ident (id : Uuid) (row : RagIndexVersion) :
    byVersionId id (versionSchema.ident row) = true ↔ row.id = id :=
  decide_eq_true_iff

@[simp] theorem byVersionKey_ident (key : String) (row : RagIndexVersion) :
    byVersionKey key (versionSchema.ident row) = true ↔ row.key = key :=
  decide_eq_true_iff

@[simp] theorem activeVersion_ident (row : RagIndexVersion) :
    activeVersion (versionSchema.ident row) = true ↔ row.status = .active :=
  decide_eq_true_iff

theorem single_byVersionId (id : Uuid) : versionSchema.Single (byVersionId id) := by
  intro a b hc ha hb
  simp only [byVersionId, decide_eq_true_eq] at ha hb
  exact hc.1 (ha.trans hb.symm)

theorem single_activeVersion : versionSchema.Single activeVersion := by
  intro a b hc ha hb
  simp only [activeVersion, decide_eq_true_eq] at ha hb
  exact hc.2.2 ⟨ha, hb⟩

theorem single_byVersionKey (key : String) : versionSchema.Single (byVersionKey key) := by
  intro a b hc ha hb
  simp only [byVersionKey, decide_eq_true_eq] at ha hb
  exact hc.2.1 (ha.trans hb.symm)

/-! ### Errors -/

/-- `HTTPException`, and the database error of a row that collides. -/
structure HttpError where
  statusCode : ℕ
  detail : String
  deriving DecidableEq, Repr

/-- `RAG_VECTOR_DIMENSIONS` -/
def ragVectorDimensions : ℤ := 1536

/-- `_assert_dimensions_compatible`. -/
def assertDimensionsCompatible (dimensions : ℤ) : Except HttpError Unit :=
  if dimensions ≠ ragVectorDimensions then
    .error ⟨422, "Embedding dimensions " ++ toString dimensions ++
      " are incompatible with the pgvector column (" ++ toString ragVectorDimensions ++
      "). Create an Alembic migration to change the vector schema before activating this " ++
      "index version."⟩
  else .ok ()

/-- `_ALLOWED_TRANSITIONS` -/
def allowedTransitions : List (IndexVersionStatus × IndexVersionStatus) :=
  [(.building, .validated), (.validated, .active), (.active, .retired), (.retired, .active)]

/-- `_assert_transition`. -/
def assertTransition (current target : IndexVersionStatus) : Except HttpError Unit :=
  if allowedTransitions.contains (current, target) then .ok ()
  else .error ⟨422, "Invalid index version transition " ++ current.quoted ++ " -> " ++ target.quoted⟩

/-! ### The service -/

section Service

variable (sha256 : String → String) (config : RagConfig)

/-- A row for the key of the running configuration. -/
def newVersion (id : Uuid) (status : IndexVersionStatus) (notes : Option String)
    (since : Option DateTime) (now : DateTime) : RagIndexVersion :=
  let metadata := pipelineVersionMetadata sha256 config
  { id := id
    key := metadata.indexVersion
    status := status
    parserVersion := metadata.parserVersion
    chunkerVersion := metadata.chunkerVersion
    embeddingSchemaVersion := metadata.embeddingSchemaVersion
    embeddingProvider := metadata.embeddingProvider
    embeddingModel := metadata.embeddingModel
    embeddingDimensions := metadata.embeddingDimensions
    notes := notes
    createdAt := now
    activatedAt := since
    retiredAt := none
    validatedAt := since }

/-- `db.add(row)` and `db.flush()`, after the check of the dimensions that precedes them everywhere. -/
def addVersion (T : VersionTable) (row : RagIndexVersion) :
    Except HttpError (VersionTable × RagIndexVersion) :=
  match assertDimensionsCompatible row.embeddingDimensions with
  | .error e => .error e
  | .ok () =>
    match T.insert row with
    | some T' => .ok (T', row)
    | none => .error ⟨500, "IntegrityError"⟩

/-- `get_active_version`. -/
def getActiveVersion (T : VersionTable) : Option RagIndexVersion := T.find activeVersion

/-- `get_by_key`. -/
def getByKey (T : VersionTable) (key : String) : Option RagIndexVersion := T.find (byVersionKey key)

/-- The key of the running configuration. -/
def desiredKey : String := (pipelineVersionMetadata sha256 config).indexVersion

/-- `ensure_desired_building_version`. -/
def ensureDesiredBuildingVersion (T : VersionTable) (id : Uuid) (now : DateTime) :
    Except HttpError (VersionTable × Option RagIndexVersion) :=
  if (getActiveVersion T).any fun active ↦ active.key = desiredKey sha256 config then .ok (T, none)
  else
    match getByKey T (desiredKey sha256 config) with
    | some existing => .ok (T, some existing)
    | none => (addVersion T (newVersion sha256 config id .building
        (some "Auto-opened building candidate because runtime config differs from active.") none
        now)).map fun r ↦ (r.1, some r.2)

/-- `ensure_active_version`. -/
def ensureActiveVersion (T : VersionTable) (id : Uuid) (now : DateTime) :
    Except HttpError (VersionTable × RagIndexVersion) :=
  match getActiveVersion T with
  | some active => (ensureDesiredBuildingVersion sha256 config T id now).map fun r ↦ (r.1, active)
  | none =>
    match getByKey T (desiredKey sha256 config) with
    | some existing =>
      if existing.status = .active then .ok (T, existing)
      else .error ⟨409, "No active RAG index version. Validate and activate a candidate " ++
        "(desired key='" ++ desiredKey sha256 config ++ "', found status=" ++
        existing.status.quoted ++ ")."⟩
    | none => addVersion T (newVersion sha256 config id .active
        (some "Bootstrap active version from runtime RAG configuration.") (some now) now)

/-- `resolve_write_version`: the version that chunks are written to. -/
def resolveWriteVersion (T : VersionTable) (id : Uuid) (now : DateTime) :
    Except HttpError (VersionTable × RagIndexVersion) :=
  match getByKey T (desiredKey sha256 config) with
  | some desired =>
    if desired.status = .building ∨ desired.status = .validated ∨ desired.status = .active then
      .ok (T, desired)
    else ensureActiveVersion sha256 config T id now
  | none => ensureActiveVersion sha256 config T id now

/-- `create_building_version`. -/
def createBuildingVersion (T : VersionTable) (id : Uuid) (notes : Option String) (now : DateTime) :
    Except HttpError (VersionTable × RagIndexVersion) :=
  match assertDimensionsCompatible config.embeddingDimensions with
  | .error e => .error e
  | .ok () =>
    match getByKey T (desiredKey sha256 config) with
    | some existing => .ok (T, existing)
    | none => addVersion T (newVersion sha256 config id .building notes none now)

end Service

/-- What `promotion_readiness` counts: the chunks of the version, the indexed documents, whether the
quotient of the two document counts reaches `RAG_INDEX_ACTIVATION_MIN_DOC_COVERAGE`, the failed and the
active jobs, and `RAG_INDEX_ACTIVATION_MAX_FAILED_JOBS`. -/
structure PromotionCounts where
  chunkCount : ℕ
  documentsIndexed : ℕ
  coverageOk : Bool
  jobsFailed : ℕ
  jobsActive : ℕ
  maxFailed : ℕ

/-- `ready_for_validation`. -/
def readyForValidation (row : RagIndexVersion) (counts : PromotionCounts) : Bool :=
  row.embeddingDimensions = ragVectorDimensions ∧
    (0 < counts.chunkCount ∨ counts.documentsIndexed = 0)

/-- `ready_for_activation`. -/
def readyForActivation (row : RagIndexVersion) (counts : PromotionCounts) : Bool :=
  readyForValidation row counts ∧ counts.coverageOk ∧ counts.jobsFailed ≤ counts.maxFailed ∧
    counts.jobsActive = 0 ∧ row.validatedAt.isSome

/-- `_lock_version`. -/
def lockVersion (T : VersionTable) (versionId : Uuid) : Except HttpError RagIndexVersion :=
  match T.find (byVersionId versionId) with
  | some row => .ok row
  | none => .error ⟨404, "Index version not found"⟩

/-- `mark_validated`. -/
def markValidated (T : VersionTable) (versionId : Uuid) (counts : PromotionCounts) (now : DateTime) :
    Except HttpError VersionTable :=
  match lockVersion T versionId with
  | .error e => .error e
  | .ok row =>
    if row.status = .validated then .ok T
    else
      match assertTransition row.status .validated with
      | .error e => .error e
      | .ok () =>
        if readyForValidation row counts then
          match T.update (byVersionId versionId)
            fun row ↦ { row with status := .validated, validatedAt := some now } with
          | some T' => .ok T'
          | none => .error ⟨500, "IntegrityError"⟩
        else .error ⟨422, "Index version is not ready for validation"⟩

/-- What `_retire_other_active` and the lines after it do to a row. -/
def promoteRow (versionId : Uuid) (now : DateTime) (row : RagIndexVersion) : RagIndexVersion :=
  if row.id = versionId then
    { row with status := .active, activatedAt := some now, retiredAt := none }
  else if row.status = .active then { row with status := .retired, retiredAt := some now }
  else row

/-- The rows that they change, in the order in which the session flushes them: that of their keys. -/
def dirtyVersions (T : VersionTable) (versionId : Uuid) : List Uuid :=
  ((T.rows.filter fun row ↦ row.id = versionId ∨ row.status = .active).map (·.id)).insertionSort
    (· ≤ ·)

/-- `_retire_other_active` and the lines after it: one `UPDATE` for each row that has changed. The
unique indexes are checked after every `UPDATE`. -/
def promote (T : VersionTable) (versionId : Uuid) (now : DateTime) : Except HttpError VersionTable :=
  match T.flush (promoteRow versionId now) ((dirtyVersions T versionId).map byVersionId) with
  | some T' => .ok T'
  | none => .error ⟨500, "IntegrityError"⟩

/-- `activate`. -/
def activate (T : VersionTable) (versionId : Uuid) (counts : PromotionCounts) (now : DateTime) :
    Except HttpError VersionTable :=
  match lockVersion T versionId with
  | .error e => .error e
  | .ok row =>
    if row.status = .active then .ok T
    else
      match assertTransition row.status .active with
      | .error e => .error e
      | .ok () =>
        if row.status ≠ .validated ∨ row.validatedAt = none then
          .error ⟨422, "Only validated index versions can be activated"⟩
        else if readyForActivation row counts then promote T versionId now
        else .error ⟨422, "Index version failed promotion criteria"⟩

/-- `rollback`. -/
def rollback (T : VersionTable) (versionId : Uuid) (chunkCount : ℕ) (now : DateTime) :
    Except HttpError VersionTable :=
  match lockVersion T versionId with
  | .error e => .error e
  | .ok row =>
    if row.status = .active then .ok T
    else if row.status ≠ .retired then
      .error ⟨422, "Rollback requires a retired version (got " ++ row.status.quoted ++ ")"⟩
    else
      match assertDimensionsCompatible row.embeddingDimensions with
      | .error e => .error e
      | .ok () =>
        if chunkCount < 1 then
          .error ⟨422, "Cannot rollback to a version with no remaining chunks"⟩
        else promote T versionId now

/-! ### Promotion, row by row -/

section Promote

variable {T T' : VersionTable} {id versionId : Uuid} {now : DateTime}

@[simp] theorem promoteRow_id (row : RagIndexVersion) : (promoteRow versionId now row).id = row.id := by
  rw [promoteRow]
  split
  · rfl
  · split <;> rfl

@[simp] theorem promoteRow_key (row : RagIndexVersion) :
    (promoteRow versionId now row).key = row.key := by
  rw [promoteRow]
  split
  · rfl
  · split <;> rfl

theorem mem_dirtyVersions : id ∈ dirtyVersions T versionId ↔
    ∃ row ∈ T.rows, row.id = id ∧ (row.id = versionId ∨ row.status = .active) := by
  simp only [dirtyVersions, List.mem_insertionSort, List.mem_map, List.mem_filter, decide_eq_true_eq]
  exact ⟨fun ⟨row, ⟨hrow, h⟩, hid⟩ ↦ ⟨row, hrow, hid, h⟩, fun ⟨row, hrow, hid, h⟩ ↦ ⟨row, ⟨hrow, h⟩, hid⟩⟩

/-- No two rows have the same key. -/
theorem nodup_dirtyVersions : (dirtyVersions T versionId).Nodup := by
  refine (List.perm_insertionSort _ _).nodup_iff.2 ?_
  refine List.Nodup.sublist (List.filter_sublist.map _) ?_
  exact List.pairwise_map.2 (T.compat.imp fun h ↦ h.1)

/-- **The law of `promote`.** -/
theorem find_of_promote (h : promote T versionId now = .ok T') (id : Uuid) :
    T'.find (byVersionId id) = (T.find (byVersionId id)).map (promoteRow versionId now) := by
  rw [promote] at h
  split at h
  · next T'' hflush =>
    obtain rfl := Except.ok.inj h
    have hcol : ∀ id (row : RagIndexVersion), byVersionId id
        (versionSchema.ident (promoteRow versionId now row)) = byVersionId id (versionSchema.ident row) :=
      fun id row ↦ by
        show decide ((promoteRow versionId now row).id = id) = decide (row.id = id)
        rw [promoteRow_id]
    rw [Table.find_of_flush (hcol id) hflush]
    · rcases hfind : T.find (byVersionId id) with - | row
      · rfl
      · rw [Option.map_some, Option.map_some, Option.some.injEq]
        split
        · rfl
        · next hany =>
          -- A row that is not flushed is one that has not changed.
          have hclean : ¬(row.id = versionId ∨ row.status = .active) := fun hdirty ↦ hany <| by
            rw [List.any_eq_true]
            refine ⟨byVersionId row.id, List.mem_map_of_mem ?_, (byVersionId_ident _ _).2 rfl⟩
            exact mem_dirtyVersions.2 ⟨row, Table.mem_of_find hfind, rfl, hdirty⟩
          rw [not_or] at hclean
          rw [promoteRow, if_neg hclean.1, if_neg hclean.2]
    · intro p hp
      obtain ⟨i, -, rfl⟩ := List.mem_map.1 hp
      exact hcol i
    · refine List.pairwise_map.2 (nodup_dirtyVersions.imp fun {i j} hne row hi ↦ ?_)
      rw [byVersionId_ident] at hi
      exact decide_eq_false fun hj ↦ hne (hi.symm.trans hj)
  · cases h

end Promote

end GenericApp
