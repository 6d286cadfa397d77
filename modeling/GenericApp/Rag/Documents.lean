import GenericApp.Rag.IngestionJob

/-!
# Documents, their jobs and their chunks

The three relations that indexing works on: `rag_documents`, `rag_ingestion_jobs` and `rag_chunks`, the
columns that ingestion and retrieval read or write, and `_scope_filters`, which says of a chunk whether
a search may return it.

A document is deleted by setting `deleted_at`; its row stays. The status column is one for all index
versions.
-/

namespace GenericApp

open Py

/-! ### Documents -/

/-- `DocumentStatus`. -/
inductive DocumentStatus
  | uploaded | validating | extracting | parsing | chunking | embedding | indexed | failed | deleted
  deriving DecidableEq, Repr

/-- A row of `rag_documents`. -/
structure RagDocument where
  id : Uuid
  userId : String
  organizationId : Option String
  projectId : Option String
  filename : String
  originalFilename : String
  contentType : String
  contentFingerprint : Option String
  storagePath : Option String
  status : DocumentStatus
  sourceType : String
  createdAt : DateTime
  updatedAt : DateTime
  deletedAt : Option DateTime
  deriving DecidableEq, Repr

/-- What `uq_rag_documents_active_scope_fingerprint` indexes of a live document. -/
abbrev LiveScope := String × String × String × String

/-- The entry of a document in that index. -/
def RagDocument.liveScope (document : RagDocument) : Option LiveScope :=
  if document.deletedAt = none then
    document.contentFingerprint.map fun fingerprint ↦
      (document.userId, document.organizationId.getD "", document.projectId.getD "", fingerprint)
  else none

/-- The primary key and `uq_rag_documents_active_scope_fingerprint`. -/
def documentSchema : Schema RagDocument (Uuid × Option LiveScope) where
  ident document := (document.id, document.liveScope)
  Compat a b := a.1 ≠ b.1 ∧ ¬(a.2 ≠ none ∧ a.2 = b.2)

instance : DecidableRel documentSchema.Compat := fun a b ↦
  inferInstanceAs (Decidable (a.1 ≠ b.1 ∧ ¬(a.2 ≠ none ∧ a.2 = b.2)))

/-- The relation `rag_documents`. -/
abbrev DocumentTable := Table documentSchema

/-- `WHERE id = …` -/
def byDocumentId (id : Uuid) (i : Uuid × Option LiveScope) : Bool := i.1 = id

@[simp] theorem byDocumentId_ident (id : Uuid) (document : RagDocument) :
    byDocumentId id (documentSchema.ident document) = true ↔ document.id = id :=
  decide_eq_true_iff

/-- `update_document_status`, flushed by a session in which the document has the status `memory`: an
attribute is written if it differs from the one in memory. -/
def updateDocumentStatus (memory status : DocumentStatus) (now : DateTime) (document : RagDocument) :
    RagDocument :=
  { document with
    status := if status = memory then document.status else status
    updatedAt := now }

/-- `soft_delete_document`. -/
def softDeleteDocument (now : DateTime) (document : RagDocument) : RagDocument :=
  { document with status := .deleted, deletedAt := some now, updatedAt := now }

/-- `scrub_deleted_document`. -/
def scrubDeletedDocument (now : DateTime) (document : RagDocument) : RagDocument :=
  if document.deletedAt = none then document
  else { document with
    filename := "deleted-document"
    originalFilename := "deleted-document"
    contentFingerprint := none
    storagePath := none
    updatedAt := now }

@[simp] theorem ident_updateDocumentStatus (memory status : DocumentStatus) (now : DateTime)
    (document : RagDocument) :
    documentSchema.ident (updateDocumentStatus memory status now document) =
      documentSchema.ident document := rfl

@[simp] theorem ident_scrubDeletedDocument (now : DateTime) (document : RagDocument) :
    documentSchema.ident (scrubDeletedDocument now document) = documentSchema.ident document := by
  rw [scrubDeletedDocument]
  split
  · rfl
  · next h => simp [documentSchema, RagDocument.liveScope, h]

/-- A document as it is uploaded. -/
def handbook : RagDocument where
  id := 1
  userId := "ana"
  organizationId := none
  projectId := none
  filename := "handbook.md"
  originalFilename := "handbook.md"
  contentType := "text/markdown"
  contentFingerprint := none
  storagePath := none
  status := .uploaded
  sourceType := "upload"
  createdAt := 0
  updatedAt := 0
  deletedAt := none

/-! ### Jobs -/

/-- The primary key. -/
def ingestionJobSchema : Schema RagIngestionJob Uuid where
  ident job := job.id
  Compat a b := a ≠ b

instance : DecidableRel ingestionJobSchema.Compat := fun a b ↦ inferInstanceAs (Decidable (a ≠ b))

/-- The relation `rag_ingestion_jobs`. -/
abbrev IngestionJobTable := Table ingestionJobSchema

/-- `WHERE id = …` -/
def byIngestionJobId (id : Uuid) (i : Uuid) : Bool := i = id

@[simp] theorem byIngestionJobId_ident (id : Uuid) (job : RagIngestionJob) :
    byIngestionJobId id (ingestionJobSchema.ident job) = true ↔ job.id = id :=
  decide_eq_true_iff

theorem single_byIngestionJobId (id : Uuid) : ingestionJobSchema.Single (byIngestionJobId id) := by
  intro a b hc ha hb
  simp only [byIngestionJobId, decide_eq_true_eq] at ha hb
  exact hc (ha.trans hb.symm)

/-! ### Chunks -/

/-- A row of `rag_chunks`, and the number of the run that has inserted it. -/
structure ChunkRow where
  writer : ℕ
  documentId : Uuid
  indexVersionId : Uuid
  userId : String
  organizationId : Option String
  projectId : Option String
  chunkIndex : ℕ
  content : String
  chunkRole : String
  deriving DecidableEq, Repr

/-- `uq_rag_chunks_document_version_chunk_index` -/
def ChunkRow.collides (a b : ChunkRow) : Bool :=
  a.documentId = b.documentId ∧ a.indexVersionId = b.indexVersionId ∧ a.chunkIndex = b.chunkIndex

/-- `WHERE document_id = … AND index_version_id = …` -/
def ChunkRow.isOf (documentId versionId : Uuid) (row : ChunkRow) : Bool :=
  row.documentId = documentId ∧ row.indexVersionId = versionId

/-! ### Retrieval -/

/-- The arguments of `_scope_filters`. -/
structure SearchScope where
  userId : String
  projectId : Option String
  documentIds : List Uuid
  sourceType : Option String
  organizationId : Option String
  indexVersionId : Option Uuid
  deriving DecidableEq, Repr

/-- `_scope_filters`, on a chunk and its document. -/
def scopeFilters (scope : SearchScope) (document : RagDocument) (chunk : ChunkRow) : Bool :=
  (chunk.userId = scope.userId ∨
    (scope.organizationId ≠ none ∧ chunk.organizationId = scope.organizationId)) ∧
  document.status = .indexed ∧
  document.deletedAt = none ∧
  (scope.organizationId ≠ none → chunk.organizationId = scope.organizationId) ∧
  (given scope.projectId ≠ none → chunk.projectId = given scope.projectId) ∧
  (scope.documentIds ≠ [] → chunk.documentId ∈ scope.documentIds) ∧
  (∀ sourceType ∈ given scope.sourceType, document.sourceType = sourceType) ∧
  (∀ versionId ∈ scope.indexVersionId, chunk.indexVersionId = versionId) ∧
  chunk.chunkRole ≠ "parent"

end GenericApp
