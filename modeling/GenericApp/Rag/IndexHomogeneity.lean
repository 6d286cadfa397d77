import GenericApp.Foundation.Machine
import GenericApp.Rag.IndexVersions

/-!
# What is in an index version

The index versions and the chunks stored under them, for any sequence of requests and indexing runs.
Every one of these carries the configuration that it runs under, so configurations change freely in
between. A request is one transaction. An indexing run is one as well, from `resolve_write_version` to
the commit of the chunks.

An index version is homogeneous if its chunks are all from runs whose configuration has its key.
`resolve_write_version` keeps to that when it finds the row of its key, and when it bootstraps the
catalog. Under **drift**, when some other version is active and the row of the key is missing or
retired, it returns the active version (and opens the row of the key, if it is missing, which nobody
writes to this time).

* `key_of_resolveWriteVersion`: the version resolved has the key of the configuration exactly where
  there is no drift.
* `versions_are_homogeneous`: without indexing runs under drift, all versions are homogeneous.
* `versions_are_mixed`: with one, they are not.
-/

namespace GenericApp

open Machine Py

/-! ### The catalog -/

/-- A row of `rag_chunks`. Its metadata are those of the configuration of the run that wrote it. -/
structure RagChunk where
  documentId : Uuid
  indexVersionId : Uuid
  chunkIndex : ℕ
  content : String
  metadata : PipelineMetadata
  deriving DecidableEq, Repr

/-- The two relations. -/
structure IndexCatalog where
  versions : VersionTable
  chunks : List RagChunk

/-- The requests, the indexing runs and the retention task. -/
inductive CatalogAction
  | ensureActiveVersion (config : RagConfig) (id : Uuid) (now : DateTime)
  | ensureDesiredBuildingVersion (config : RagConfig) (id : Uuid) (now : DateTime)
  | createBuildingVersion (config : RagConfig) (id : Uuid) (notes : Option String) (now : DateTime)
  | markValidated (versionId : Uuid) (counts : PromotionCounts) (now : DateTime)
  | activate (versionId : Uuid) (counts : PromotionCounts) (now : DateTime)
  | rollback (versionId : Uuid) (now : DateTime)
  | indexDocument (config : RagConfig) (documentId : Uuid) (contents : List String) (id : Uuid)
    (now : DateTime)
  | cleanupRetiredVersions (cutoff : DateTime)

namespace IndexCatalog

/-- Nothing yet. -/
def initial : IndexCatalog := ⟨.empty, []⟩

/-- The catalog after a request: a failed one leaves it as it was. -/
def after {α : Type} (s : IndexCatalog) (versions : α → VersionTable) (r : Except HttpError α) :
    IndexCatalog :=
  match r with
  | .ok a => { s with versions := versions a }
  | .error _ => s

/-- `_count_chunks_for_version`. -/
def countChunks (s : IndexCatalog) (versionId : Uuid) : ℕ :=
  (s.chunks.filter fun c ↦ c.indexVersionId = versionId).length

/-- `replace_chunks`: only the chunks of the document under this version are replaced. -/
def replaceChunks (chunks : List RagChunk) (documentId versionId : Uuid)
    (metadata : PipelineMetadata) (contents : List String) : List RagChunk :=
  (chunks.filter fun c ↦ !(decide (c.documentId = documentId) &&
    decide (c.indexVersionId = versionId))) ++
    contents.mapIdx fun i content ↦ ⟨documentId, versionId, i, content, metadata⟩

/-- `index_document`, from `resolve_write_version` on. -/
def indexDocument (sha256 : String → String) (s : IndexCatalog) (config : RagConfig)
    (documentId : Uuid) (contents : List String) (id : Uuid) (now : DateTime) : IndexCatalog :=
  match resolveWriteVersion sha256 config s.versions id now with
  | .ok (versions, version) =>
    ⟨versions, replaceChunks s.chunks documentId version.id (pipelineVersionMetadata sha256 config)
      contents⟩
  | .error _ => s

/-- `cleanup_retired_versions`. -/
def cleanupRetiredVersions (s : IndexCatalog) (cutoff : DateTime) : IndexCatalog :=
  { s with chunks := s.chunks.filter fun c ↦
      !((s.versions.find (byVersionId c.indexVersionId)).any fun v ↦
        decide (v.status = .retired) && v.retiredAt.any (· < cutoff)) }

end IndexCatalog

/-- One request, run or clean-up. -/
def catalogStep (sha256 : String → String) (s : IndexCatalog) : CatalogAction → IndexCatalog
  | .ensureActiveVersion config id now =>
    s.after (·.1) (ensureActiveVersion sha256 config s.versions id now)
  | .ensureDesiredBuildingVersion config id now =>
    s.after (·.1) (ensureDesiredBuildingVersion sha256 config s.versions id now)
  | .createBuildingVersion config id notes now =>
    s.after (·.1) (createBuildingVersion sha256 config s.versions id notes now)
  | .markValidated versionId counts now =>
    s.after id (markValidated s.versions versionId
      { counts with chunkCount := s.countChunks versionId } now)
  | .activate versionId counts now =>
    s.after id (activate s.versions versionId
      { counts with chunkCount := s.countChunks versionId } now)
  | .rollback versionId now =>
    s.after id (rollback s.versions versionId (s.countChunks versionId) now)
  | .indexDocument config documentId contents id now =>
    s.indexDocument sha256 config documentId contents id now
  | .cleanupRetiredVersions cutoff => s.cleanupRetiredVersions cutoff

/-- The catalog, from nothing. -/
def catalogMachine (sha256 : String → String) : Machine IndexCatalog CatalogAction where
  init s := s = .initial
  step s a := some (catalogStep sha256 s a)

/-! ### Drift -/

/-- Some version is active, and the row of the key of the configuration is missing or retired. -/
def drifted (sha256 : String → String) (config : RagConfig) (T : VersionTable) : Bool :=
  ((getByKey T (desiredKey sha256 config)).all fun desired ↦ desired.status = .retired) &&
    (getActiveVersion T).isSome

/-- No indexing run resolves its write version under drift. -/
def IndexesInStep (sha256 : String → String) (s : IndexCatalog) : CatalogAction → Prop
  | .indexDocument config _ _ _ _ => drifted sha256 config s.versions = false
  | _ => True

instance (sha256 : String → String) (s : IndexCatalog) (a : CatalogAction) :
    Decidable (IndexesInStep sha256 s a) :=
  match a with
  | .indexDocument config _ _ _ _ =>
    inferInstanceAs (Decidable (drifted sha256 config s.versions = false))
  | .ensureActiveVersion .. | .ensureDesiredBuildingVersion .. | .createBuildingVersion ..
  | .markValidated .. | .activate .. | .rollback .. | .cleanupRetiredVersions .. => isTrue trivial

/-! ### The version resolved -/

section Resolve

variable {sha256 : String → String} {config : RagConfig} {T T' : VersionTable} {id : Uuid}
  {now : DateTime} {v : RagIndexVersion}

theorem addVersion_eq_ok {row : RagIndexVersion} (h : addVersion T row = .ok (T', v)) :
    T.insert row = some T' ∧ v = row := by
  rw [addVersion] at h
  split at h
  · cases h
  · split at h
    · next T'' hins =>
      obtain ⟨rfl, rfl⟩ := Prod.mk.inj (Except.ok.inj h)
      exact ⟨hins, rfl⟩
    · cases h

/-- The active version answers whenever there is one. -/
theorem ensureActiveVersion_of_active {active : RagIndexVersion}
    (hactive : getActiveVersion T = some active)
    (h : ensureActiveVersion sha256 config T id now = .ok (T', v)) : v = active := by
  rw [ensureActiveVersion, hactive] at h
  dsimp only at h
  rcases hr : ensureDesiredBuildingVersion sha256 config T id now with e | r
  · rw [hr] at h
    cases h
  · rw [hr] at h
    exact (Prod.mk.inj (Except.ok.inj h)).2.symm

/-- Without one, the catalog is bootstrapped under the key of the configuration. -/
theorem key_of_ensureActiveVersion (hnone : getActiveVersion T = none)
    (h : ensureActiveVersion sha256 config T id now = .ok (T', v)) :
    v.key = desiredKey sha256 config := by
  rw [ensureActiveVersion, hnone] at h
  dsimp only at h
  split at h
  · next existing hexisting =>
    split at h
    · obtain ⟨-, rfl⟩ := Prod.mk.inj (Except.ok.inj h)
      exact (byVersionKey_ident _ _).1 (Table.sel_of_find hexisting)
    · cases h
  · obtain ⟨-, rfl⟩ := addVersion_eq_ok h
    rfl

/-- **The version that chunks are written to has the key of the configuration, exactly where there is no
drift.** -/
theorem key_of_resolveWriteVersion (h : resolveWriteVersion sha256 config T id now = .ok (T', v)) :
    v.key = desiredKey sha256 config ↔ drifted sha256 config T = false := by
  -- Past the first test, the row of the key is missing or retired.
  have hfallback : ((getByKey T (desiredKey sha256 config)).all fun d ↦ d.status = .retired) = true →
      ensureActiveVersion sha256 config T id now = .ok (T', v) →
      (v.key = desiredKey sha256 config ↔ drifted sha256 config T = false) := by
    intro hretired hensure
    rw [drifted, hretired, Bool.true_and]
    rcases hactive : getActiveVersion T with - | active
    · exact iff_of_true (key_of_ensureActiveVersion hactive hensure) rfl
    · -- The active version is not retired, so the row of the key is another one.
      refine iff_of_false (fun hkey ↦ ?_) (by simp)
      obtain rfl := ensureActiveVersion_of_active hactive hensure
      have hstatus : v.status = .active := (activeVersion_ident v).1 (Table.sel_of_find hactive)
      have hfind : getByKey T (desiredKey sha256 config) = some v :=
        Table.find_eq_some_of_mem (single_byVersionKey _) (Table.mem_of_find hactive)
          ((byVersionKey_ident _ _).2 hkey)
      simp [hfind, hstatus] at hretired
  rw [resolveWriteVersion] at h
  split at h
  · next desired hdesired =>
    split at h
    · next hopen =>
      obtain ⟨-, rfl⟩ := Prod.mk.inj (Except.ok.inj h)
      refine iff_of_true ((byVersionKey_ident _ _).1 (Table.sel_of_find hdesired)) ?_
      rw [drifted, hdesired]
      rcases hopen with hs | hs | hs <;> simp [hs]
    · next hclosed =>
      refine hfallback ?_ h
      rw [hdesired]
      rcases hs : desired.status with - | - | - | -
      · exact absurd (.inl hs) hclosed
      · exact absurd (.inr (.inl hs)) hclosed
      · exact absurd (.inr (.inr hs)) hclosed
      · simp [hs]
  · next hnone => exact hfallback (by rw [hnone]; rfl) h

end Resolve

/-! ### What requests leave alone -/

/-- Every version is still there, under its key. -/
def KeysKept (T T' : VersionTable) : Prop :=
  ∀ id v, T.find (byVersionId id) = some v →
    ∃ v', T'.find (byVersionId id) = some v' ∧ v'.key = v.key

section Kept

variable {sha256 : String → String} {config : RagConfig} {T T' : VersionTable} {id versionId : Uuid}
  {now : DateTime} {v : RagIndexVersion}

theorem KeysKept.refl (T : VersionTable) : KeysKept T T := fun _ v hv ↦ ⟨v, hv, rfl⟩

theorem KeysKept.of_update {p : Uuid × String × IndexVersionStatus → Bool}
    {f : RagIndexVersion → RagIndexVersion} (h : T.update p f = some T')
    (hf : ∀ v, (f v).id = v.id ∧ (f v).key = v.key) : KeysKept T T' := by
  intro id v hv
  have hid : ∀ v, byVersionId id (versionSchema.ident (f v)) =
      byVersionId id (versionSchema.ident v) := fun v ↦ by
    show decide ((f v).id = id) = decide (v.id = id)
    rw [(hf v).1]
  rw [Table.find_of_update h fun v _ ↦ hid v, hv, Option.map_some]
  refine ⟨_, rfl, ?_⟩
  split
  · exact (hf v).2
  · rfl

theorem addVersion_kept {row : RagIndexVersion} (h : addVersion T row = .ok (T', v)) :
    KeysKept T T' := fun _ a ha ↦
  ⟨a, Table.find_of_insert_of_some (addVersion_eq_ok h).1 ha, rfl⟩

/-- The row that was added is the row that is found. -/
theorem find_of_addVersion {row : RagIndexVersion} (h : addVersion T row = .ok (T', v)) :
    T'.find (byVersionId v.id) = some v := by
  obtain ⟨hins, rfl⟩ := addVersion_eq_ok h
  refine Table.find_eq_some_of_mem (single_byVersionId _) ?_ ((byVersionId_ident _ _).2 rfl)
  rw [Table.rows_of_insert hins]
  exact List.mem_append_right _ (List.mem_singleton_self _)

theorem ensureDesiredBuildingVersion_kept {r : VersionTable × Option RagIndexVersion}
    (h : ensureDesiredBuildingVersion sha256 config T id now = .ok r) : KeysKept T r.1 := by
  rw [ensureDesiredBuildingVersion] at h
  split at h
  · obtain rfl := Except.ok.inj h
    exact KeysKept.refl T
  · split at h
    · obtain rfl := Except.ok.inj h
      exact KeysKept.refl T
    · rcases hadd : addVersion T (newVersion sha256 config id .building
        (some "Auto-opened building candidate because runtime config differs from active.") none
        now) with e | r'
      · rw [hadd] at h
        cases h
      · rw [hadd] at h
        obtain rfl := Except.ok.inj h
        exact addVersion_kept hadd

/-- The version returned is in the relation. -/
theorem ensureActiveVersion_kept (h : ensureActiveVersion sha256 config T id now = .ok (T', v)) :
    KeysKept T T' ∧ ∃ v', T'.find (byVersionId v.id) = some v' ∧ v'.key = v.key := by
  rw [ensureActiveVersion] at h
  split at h
  · next active hactive =>
    rcases hr : ensureDesiredBuildingVersion sha256 config T id now with e | r
    · rw [hr] at h
      cases h
    · rw [hr] at h
      obtain ⟨rfl, rfl⟩ := Prod.mk.inj (Except.ok.inj h)
      have hkept := ensureDesiredBuildingVersion_kept hr
      refine ⟨hkept, hkept _ _ ?_⟩
      exact Table.find_eq_some_of_mem (single_byVersionId _) (Table.mem_of_find hactive)
        ((byVersionId_ident _ _).2 rfl)
  · split at h
    · next existing hexisting =>
      split at h
      · obtain ⟨rfl, rfl⟩ := Prod.mk.inj (Except.ok.inj h)
        refine ⟨KeysKept.refl _, KeysKept.refl _ _ _ ?_⟩
        exact Table.find_eq_some_of_mem (single_byVersionId _) (Table.mem_of_find hexisting)
          ((byVersionId_ident _ _).2 rfl)
      · cases h
    · exact ⟨addVersion_kept h, v, find_of_addVersion h, rfl⟩

theorem resolveWriteVersion_kept (h : resolveWriteVersion sha256 config T id now = .ok (T', v)) :
    KeysKept T T' ∧ ∃ v', T'.find (byVersionId v.id) = some v' ∧ v'.key = v.key := by
  rw [resolveWriteVersion] at h
  split at h
  · next desired hdesired =>
    split at h
    · obtain ⟨rfl, rfl⟩ := Prod.mk.inj (Except.ok.inj h)
      refine ⟨KeysKept.refl _, KeysKept.refl _ _ _ ?_⟩
      exact Table.find_eq_some_of_mem (single_byVersionId _) (Table.mem_of_find hdesired)
        ((byVersionId_ident _ _).2 rfl)
    · exact ensureActiveVersion_kept h
  · exact ensureActiveVersion_kept h

theorem createBuildingVersion_kept {notes : Option String}
    (h : createBuildingVersion sha256 config T id notes now = .ok (T', v)) : KeysKept T T' := by
  rw [createBuildingVersion] at h
  split at h
  · cases h
  · split at h
    · obtain ⟨rfl, -⟩ := Prod.mk.inj (Except.ok.inj h)
      exact KeysKept.refl T
    · exact addVersion_kept h

theorem promote_kept (h : promote T versionId now = .ok T') : KeysKept T T' := by
  intro id v hv
  refine ⟨promoteRow versionId now v, ?_, promoteRow_key v⟩
  rw [find_of_promote h, hv, Option.map_some]

theorem markValidated_kept {counts : PromotionCounts}
    (h : markValidated T versionId counts now = .ok T') : KeysKept T T' := by
  rw [markValidated] at h
  split at h
  · cases h
  · split at h
    · obtain rfl := Except.ok.inj h
      exact KeysKept.refl T
    · split at h
      · cases h
      · split at h
        · split at h
          · next T'' hupdate =>
            obtain rfl := Except.ok.inj h
            exact KeysKept.of_update hupdate fun _ ↦ ⟨rfl, rfl⟩
          · cases h
        · cases h

theorem activate_kept {counts : PromotionCounts} (h : activate T versionId counts now = .ok T') :
    KeysKept T T' := by
  rw [activate] at h
  split at h
  · cases h
  · split at h
    · obtain rfl := Except.ok.inj h
      exact KeysKept.refl T
    · split at h
      · cases h
      · split at h
        · cases h
        · split at h
          · exact promote_kept h
          · cases h

theorem rollback_kept {chunkCount : ℕ} (h : rollback T versionId chunkCount now = .ok T') :
    KeysKept T T' := by
  rw [rollback] at h
  split at h
  · cases h
  · split at h
    · obtain rfl := Except.ok.inj h
      exact KeysKept.refl T
    · split at h
      · cases h
      · split at h
        · cases h
        · split at h
          · cases h
          · exact promote_kept h

end Kept

/-! ### Homogeneity -/

/-- Every chunk is stored under a version, and was written by a run whose configuration has the key of
that version. -/
def Homogeneous (sha256 : String → String) (s : IndexCatalog) : Prop :=
  ∀ c ∈ s.chunks, ∃ v config, s.versions.find (byVersionId c.indexVersionId) = some v ∧
    c.metadata = pipelineVersionMetadata sha256 config ∧
    (pipelineVersionMetadata sha256 config).indexVersion = v.key

section Run

variable {sha256 : String → String} {s t : IndexCatalog} {a : CatalogAction}

/-- Versions that are kept keep their chunks. -/
theorem Homogeneous.kept (h : Homogeneous sha256 s) (hkept : KeysKept s.versions t.versions)
    (hchunks : ∀ c ∈ t.chunks, c ∈ s.chunks) : Homogeneous sha256 t := by
  intro c hc
  obtain ⟨v, config, hfind, hmetadata, hkey⟩ := h c (hchunks c hc)
  obtain ⟨v', hfind', hkey'⟩ := hkept _ v hfind
  exact ⟨v', config, hfind', hmetadata, hkey.trans hkey'.symm⟩

/-- A request that keeps the versions. -/
theorem Homogeneous.after {α : Type} {versions : α → VersionTable} {r : Except HttpError α}
    (h : Homogeneous sha256 s) (hr : ∀ x, r = .ok x → KeysKept s.versions (versions x)) :
    Homogeneous sha256 (s.after versions r) := by
  rcases r with e | x
  · exact h
  · exact h.kept (hr x rfl) fun _ hc ↦ hc

/-- **An indexing run that is not under drift.** -/
theorem Homogeneous.indexDocument (h : Homogeneous sha256 s) {config : RagConfig}
    {documentId id : Uuid} {contents : List String} {now : DateTime}
    (hdrift : drifted sha256 config s.versions = false) :
    Homogeneous sha256 (s.indexDocument sha256 config documentId contents id now) := by
  rw [IndexCatalog.indexDocument]
  split
  · next versions version hresolve =>
    obtain ⟨hkept, v, hfind, hkey⟩ := resolveWriteVersion_kept hresolve
    intro c hc
    rcases List.mem_append.1 hc with hc | hc
    · obtain ⟨v₀, config₀, hfind₀, hmetadata, hkey₀⟩ := h c (List.mem_of_mem_filter hc)
      obtain ⟨v', hfind', hkey'⟩ := hkept _ v₀ hfind₀
      exact ⟨v', config₀, hfind', hmetadata, hkey₀.trans hkey'.symm⟩
    · obtain ⟨i, hi, rfl⟩ := List.mem_mapIdx.1 hc
      have hwritten := (key_of_resolveWriteVersion hresolve).2 hdrift
      exact ⟨v, config, hfind, rfl, hwritten.symm.trans hkey.symm⟩
  · exact h

theorem Homogeneous.step (h : Homogeneous sha256 s) (hC : IndexesInStep sha256 s a) :
    Homogeneous sha256 (catalogStep sha256 s a) := by
  cases a with
  | ensureActiveVersion config id now => exact h.after fun _ hr ↦ (ensureActiveVersion_kept hr).1
  | ensureDesiredBuildingVersion config id now =>
    exact h.after fun _ hr ↦ ensureDesiredBuildingVersion_kept hr
  | createBuildingVersion config id notes now =>
    exact h.after fun _ hr ↦ createBuildingVersion_kept hr
  | markValidated versionId counts now => exact h.after fun _ hr ↦ markValidated_kept hr
  | activate versionId counts now => exact h.after fun _ hr ↦ activate_kept hr
  | rollback versionId now => exact h.after fun _ hr ↦ rollback_kept hr
  | indexDocument config documentId contents id now => exact h.indexDocument hC
  | cleanupRetiredVersions cutoff =>
    exact h.kept (KeysKept.refl _) fun _ hc ↦ List.mem_of_mem_filter hc

end Run

/-- **Index versions are homogeneous**, as long as no indexing run resolves its write version under
drift; and there, and only there, `resolve_write_version` returns a version with another key. -/
theorem versions_are_homogeneous (sha256 : String → String) :
    (∀ (config : RagConfig) (T T' : VersionTable) (v : RagIndexVersion) (id : Uuid) (now : DateTime),
      resolveWriteVersion sha256 config T id now = .ok (T', v) →
      (v.key = (pipelineVersionMetadata sha256 config).indexVersion ↔
        drifted sha256 config T = false)) ∧
    ∀ s, (catalogMachine sha256).Reachable (IndexesInStep sha256) s → Homogeneous sha256 s := by
  refine ⟨fun config T T' v id now h ↦ key_of_resolveWriteVersion h, fun s h ↦ ?_⟩
  refine h.invariant ?_ fun s a t hs hC hstep ↦ ?_
  · rintro s rfl c hc
    cases hc
  · obtain rfl : catalogStep sha256 s a = t := Option.some.inj hstep
    exact hs.step hC

/-! ### Two configurations -/

/-- SHA-256 of the pipelines of the two configurations below. -/
def digest (pipeline : String) : String :=
  if pipeline = "parser_version=parser-v1|chunker_version=chunker-v3|" ++
    "embedding_schema_version=embedding-schema-v1|embedding_provider=local|" ++
    "embedding_model=text-embedding-3-small|embedding_dimensions=1536|chunking_mode=basic" then
    "1fc265960332b15fbf63f6a36e7cf27f9c11d3c21dcd6c4ff864f3579d20cbe7"
  else "3ab669c047b94f449071ee9264fb84fbf9ccbfa80c651b7a0d9f40e70a432992"

/-- The default configuration. -/
def smallConfig : RagConfig where
  enabled := true
  embeddingProvider := "local"
  embeddingModel := "text-embedding-3-small"
  embeddingDimensions := 1536
  chunkSize := 1000
  chunkOverlap := 150
  topK := 5

/-- The default configuration with another model. -/
def adaConfig : RagConfig := { smallConfig with embeddingModel := "text-embedding-ada-002" }

/-- The counts of a catalog with one indexed document. -/
def oneDocument : PromotionCounts := ⟨0, 1, true, 0, 0, 0⟩

/-- The model changes, a version is opened for it, and the document is indexed into that version. -/
def openedRun : List CatalogAction :=
  [.indexDocument smallConfig 1 ["text"] 11 0, .createBuildingVersion adaConfig 12 none 1,
    .indexDocument adaConfig 1 ["text"] 13 2, .markValidated 12 oneDocument 3,
    .activate 12 oneDocument 4]

set_option maxRecDepth 8000 in
theorem openedRun_isSome : ((catalogMachine digest).run (IndexesInStep digest) .initial
    openedRun).isSome = true := by
  decide +kernel

set_option maxRecDepth 8000 in
theorem openedRun_homogeneous : Homogeneous digest (Option.get _ openedRun_isSome) ∧
    (Option.get _ openedRun_isSome).chunks.map (·.indexVersionId) = [11, 12] :=
  ⟨(versions_are_homogeneous digest).2 _ (reachable_run rfl openedRun_isSome), by decide +kernel⟩

/-- The model changes, and the next document is indexed before anybody has opened a version for it. -/
def missingRun : List CatalogAction :=
  [.indexDocument smallConfig 1 ["text"] 11 0, .indexDocument adaConfig 1 ["text"] 12 1]

set_option maxRecDepth 8000 in
theorem missingRun_isSome : ((catalogMachine digest).run anyStep .initial missingRun).isSome = true := by
  decide +kernel

/-- The model changes back after the version of the new one has been activated. -/
def retiredRun : List CatalogAction := openedRun ++ [.indexDocument smallConfig 2 ["more"] 14 5]

set_option maxRecDepth 8000 in
theorem retiredRun_isSome : ((catalogMachine digest).run anyStep .initial retiredRun).isSome = true := by
  decide +kernel

/-- A chunk under a version with another key. -/
theorem not_homogeneous {sha256 : String → String} {s : IndexCatalog} {c : RagChunk}
    {v : RagIndexVersion} (hc : c ∈ s.chunks)
    (hfind : s.versions.find (byVersionId c.indexVersionId) = some v)
    (hne : c.metadata.indexVersion ≠ v.key) : ¬Homogeneous sha256 s := by
  intro h
  obtain ⟨v', config, hfind', hmetadata, hkey⟩ := h c hc
  obtain rfl := Option.some.inj (hfind.symm.trans hfind')
  exact hne (by rw [hmetadata, hkey])

set_option maxRecDepth 8000 in
/-- **Versions are mixed.** While the row of the new key is missing, the chunks of the new model replace
those of the old one under the active version; once the row of the old key is retired, the chunks of
the old model are stored under the version of the new one. -/
theorem versions_are_mixed :
    (¬ ∀ s, (catalogMachine digest).Reachable anyStep s → Homogeneous digest s) ∧
    (Option.get _ missingRun_isSome).chunks.map
      (fun c ↦ (c.indexVersionId, c.metadata.indexVersion)) = [(11, "idx-3ab669c047b9")] ∧
    (Option.get _ missingRun_isSome).versions.rows.map (fun v ↦ (v.id, v.key)) =
      [(11, "idx-1fc265960332"), (12, "idx-3ab669c047b9")] ∧
    ¬Homogeneous digest (Option.get _ retiredRun_isSome) := by
  refine ⟨fun h ↦ ?_, by decide, by decide, ?_⟩
  · refine absurd (h _ (reachable_run rfl missingRun_isSome)) ?_
    exact not_homogeneous (c := ((Option.get _ missingRun_isSome).chunks.get ⟨0, by decide⟩))
      (List.get_mem _ _) (Option.some_get (by decide)).symm (by decide)
  · exact not_homogeneous (c := ((Option.get _ retiredRun_isSome).chunks.get ⟨2, by decide⟩))
      (List.get_mem _ _) (Option.some_get (by decide)).symm (by decide)

end GenericApp
