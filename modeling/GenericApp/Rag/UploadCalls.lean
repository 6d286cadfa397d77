import GenericApp.Rag.IndexVersions
import GenericApp.Rag.Documents
import GenericApp.Workers.Outbox

/-!
# Uploads

`DocumentIngestionService.upload_document`, called any number of times. A call checks the request, looks
for a live document with the same content in the same scope, and if there is none stores the content
under a key of its own, inserts a document, a job and an outbox event, and commits. Two handlers undo what
a failure leaves behind: they roll back and delete the stored object, and after an integrity error the call
returns the document that was there first.

Each `await` is a stage of a call, and a step takes a call from one to the next or raises an exception
there. An exception after the awaited effect is one at the stage that follows it, so the commit has a
stage of its own for the time between its effect and its answer. `asyncio.to_thread` keeps on running
when the task that awaits it is cancelled, so the object may arrive after the call has ended.

The rows of an open transaction are in the stage. An `INSERT` waits for those of other calls that it
collides with. The identifiers of `uuid4` are new, and so are the keys made from them. `deleted` is not
part of the program: it records the keys that compensations have deleted.
-/

namespace GenericApp

open Py

/-! ### The request -/

/-- What `upload_document` reads of its configuration and of the settings. -/
structure UploadConfig where
  enabled : Bool
  maxFileBytes : ℕ
  allowedFileTypes : List String
  ragMalwareScanEnabled : Bool
  isProduction : Bool
  storageBucket : String
  celeryTaskAlwaysEager : Bool

/-- `ObjectStorage.is_configured`. -/
def UploadConfig.isConfigured (C : UploadConfig) : Bool := C.storageBucket ≠ ""

/-- `s.rsplit(c, 1)[-1]`. -/
def afterLast (c : Char) (s : String) : String :=
  String.ofList (s.toList.reverse.takeWhile (· ≠ c)).reverse

/-- `re.sub(r"[\x00-\x1f\x7f]", "", s)`. -/
def dropControls (s : String) : String :=
  String.ofList (s.toList.filter fun c ↦ 31 < c.toNat ∧ c.toNat ≠ 127)

/-- `display_filename`. -/
def displayFilename (filename : String) : String :=
  let raw := replaceChar '\\' '/' (orStr (some filename) "upload.bin")
  let name := strip (dropControls (afterLast '/' raw))
  slice 512 (orStr (some name) "upload.bin")

/-- The suffix that the file type policy goes by. -/
def fileSuffix (filename : String) : String :=
  if '.' ∈ filename.toList then lower (afterLast '.' filename) else ""

/-- `RagPolicyService.is_allowed_file_type`. -/
def isAllowedFileType (filename : String) (allowed : List String) : Bool :=
  allowed.contains (fileSuffix filename)

/-- `RagPolicyService.detect_content_type`. -/
def detectContentType (filename : String) (content : List UInt8) : Option String :=
  match fileSuffix filename with
  | "pdf" => if [0x25, 0x50, 0x44, 0x46, 0x2d].isPrefixOf content then some "application/pdf" else none
  | "docx" =>
    if [0x50, 0x4b, 0x03, 0x04].isPrefixOf content then
      some "application/vnd.openxmlformats-officedocument.wordprocessingml.document"
    else none
  | "txt" => text "text/plain"
  | "md" => text "text/markdown"
  | "csv" => text "text/csv"
  | _ => none
where
  text (contentType : String) : Option String :=
    if (ByteArray.mk content.toArray).validateUTF8 ∧ 0 ∉ content then some contentType else none

/-- The arguments of a call. -/
structure UploadRequest where
  userId : String
  filename : String
  content : List UInt8
  deriving DecidableEq, Repr

/-- `safe_filename`. -/
def UploadRequest.safeFilename (request : UploadRequest) : String := displayFilename request.filename

/-- `detected_content_type`. -/
def UploadRequest.detectedContentType (request : UploadRequest) : Option String :=
  detectContentType request.safeFilename request.content

/-- The checks of `upload_document` that precede its first `await`. -/
def checkUpload (C : UploadConfig) (request : UploadRequest) : Except HttpError Unit :=
  if C.enabled = false then .error ⟨503, "RAG is disabled"⟩
  else if C.maxFileBytes < request.content.length then .error ⟨413, "File too large"⟩
  else if isAllowedFileType request.safeFilename C.allowedFileTypes = false then
    .error ⟨400, "Unsupported file type"⟩
  else if request.detectedContentType = none then
    .error ⟨400, "File content does not match its extension"⟩
  else .ok ()

/-- What the malware scanner says. -/
inductive ScanVerdict
  | clean | infected | unavailable
  deriving DecidableEq, Repr

/-- `_scan_or_reject`. -/
def scanOrReject (C : UploadConfig) (verdict : ScanVerdict) : Except HttpError Unit :=
  if C.ragMalwareScanEnabled = false then
    if C.isProduction then .error ⟨503, "Malware scanning is required for production uploads"⟩
    else .ok ()
  else
    match verdict with
    | .unavailable => .error ⟨503, "Malware scan unavailable"⟩
    | .infected => .error ⟨422, "Uploaded file failed malware scanning"⟩
    | .clean => .ok ()

/-- `build_document_object_key`. -/
def buildDocumentObjectKey (userId : String) (objectId : Uuid) : String :=
  "rag/" ++ userId ++ "/" ++ toString objectId

theorem buildDocumentObjectKey_ne (userId : String) (objectId : Uuid) :
    buildDocumentObjectKey userId objectId ≠ "" := by
  intro h
  have hlist := congrArg String.toList h
  simp [buildDocumentObjectKey] at hlist

/-! ### Calls -/

/-- What a call raises: one of its own errors, an `IntegrityError`, another `Exception`, or a
`CancelledError`, which is not an `Exception`. -/
inductive UploadError
  | http (error : HttpError)
  | integrity
  | other
  | cancelled
  deriving DecidableEq, Repr

/-- `DocumentUploadResult`. -/
structure DocumentUploadResult where
  document : RagDocument
  job : RagIngestionJob
  duplicate : Bool
  deriving DecidableEq, Repr

/-- How a call ends. -/
inductive UploadOutcome
  | returned (result : DocumentUploadResult)
  | raised (error : UploadError)
  deriving DecidableEq, Repr

/-- Where a call is. `_find_duplicate` is called twice, the second time by the handler of the integrity
error. -/
inductive UploadStage
  | scanning
  | resolving
  | searching (again : Bool)
  | adopting (again : Bool) (document : RagDocument)
  | found (again : Bool) (document : RagDocument) (job : RagIngestionJob)
  | storing
  | inserting
  | creatingJob (document : RagDocument)
  | enqueuing (document : RagDocument) (job : RagIngestionJob)
  | committing (document : RagDocument) (job : RagIngestionJob) (event : Option BackgroundJobOutbox)
  | acknowledging (document : RagDocument) (job : RagIngestionJob)
  | refreshing (document : RagDocument) (job : RagIngestionJob)
  | rollingBack (pending : Option RagDocument) (error : UploadError)
  | compensating (outcome : UploadOutcome)
  | compensated (outcome : UploadOutcome)
  | ended (outcome : UploadOutcome)
  deriving DecidableEq, Repr

namespace UploadStage

/-- The row that the open transaction of the call has inserted. -/
def pending : UploadStage → Option RagDocument
  | creatingJob document | enqueuing document _ | committing document _ _ => some document
  | rollingBack pending _ => pending
  | scanning | resolving | searching _ | adopting _ _ | found _ _ _ | storing | inserting
  | acknowledging _ _ | refreshing _ _ | compensating _ | compensated _ | ended _ => none

/-- The call has returned or raised. -/
def isEnded : UploadStage → Bool
  | ended _ => true
  | scanning | resolving | searching _ | adopting _ _ | found _ _ _ | storing | inserting | creatingJob _
  | enqueuing _ _ | committing _ _ _ | acknowledging _ _ | refreshing _ _ | rollingBack _ _
  | compensating _ | compensated _ => false

/-- The two handlers, after `_rollback_upload_transaction`. -/
def handle : UploadError → UploadStage
  | .integrity => searching true
  | error => compensating (.raised error)

/-- Where an exception takes a call that has stored its object, up to the commit. -/
def caught (pending : Option RagDocument) : UploadError → UploadStage
  | .cancelled => ended (.raised .cancelled)
  | error => rollingBack pending error

/-- Where an exception takes a call. The deletion of an object does not fail. -/
def raise (error : UploadError) : UploadStage → Option UploadStage
  | scanning | resolving | searching false | adopting false _ | found false _ _ | refreshing _ _ =>
    some (ended (.raised error))
  | storing | inserting | acknowledging _ _ => some (caught none error)
  | creatingJob document | enqueuing document _ | committing document _ _ =>
    some (caught (some document) error)
  -- `finally` compensates, whatever the exception is.
  | searching true | adopting true _ | found true _ _ => some (compensating (.raised error))
  -- `_rollback_upload_transaction` and `_compensate_uploaded_object` swallow an `Exception`.
  | rollingBack _ error' =>
    some (if error = .cancelled then ended (.raised .cancelled) else handle error')
  | compensating _ => if error = .cancelled then some (ended (.raised .cancelled)) else none
  | compensated outcome => some (ended (if error = .cancelled then .raised .cancelled else outcome))
  | ended _ => none

end UploadStage

/-- The thread of `upload_bytes`: not started or failed, at work, or done. -/
inductive UploadThread
  | idle | running | stored
  deriving DecidableEq, Repr

/-- A call of `upload_document`: its arguments, the scope it has resolved, and its local variables. -/
structure UploadCall where
  request : UploadRequest
  projectId : Option String
  organizationId : Option String
  documentId : Option Uuid
  storagePath : Option String
  thread : UploadThread
  stage : UploadStage
  deriving DecidableEq, Repr

namespace UploadCall

/-- The call at another stage. -/
def moved (call : UploadCall) (stage : UploadStage) : UploadCall := { call with stage := stage }

/-- `object_key`. -/
def objectKey (call : UploadCall) : Option String :=
  call.documentId.map (buildDocumentObjectKey call.request.userId)

/-- An exception is raised in the call. A thread that the call awaits has failed, unless the call is
cancelled. -/
def raise (call : UploadCall) (error : UploadError) : Option UploadCall :=
  (call.stage.raise error).map fun stage ↦
    { call with
      stage := stage
      thread := if call.thread = .running ∧ error ≠ .cancelled then .idle else call.thread }

end UploadCall

/-! ### What the calls share -/

/-- The relations, the stored objects, and the keys that compensations have deleted. -/
structure UploadStore where
  documents : DocumentTable
  jobs : IngestionJobTable
  outbox : OutboxTable
  objects : List String
  deleted : List String

/-- The `WHERE` of `find_document_by_fingerprint`. -/
def RagDocument.isLiveIn (userId : String) (projectId organizationId : Option String) (fingerprint : String)
    (document : RagDocument) : Bool :=
  document.userId = userId ∧ document.contentFingerprint = some fingerprint ∧
    document.deletedAt = none ∧ document.projectId = projectId ∧
    document.organizationId = organizationId

namespace UploadStore

/-- `find_document_by_fingerprint`. -/
def findDocumentByFingerprint (store : UploadStore) (userId : String)
    (projectId organizationId : Option String) (fingerprint : String) : Option RagDocument :=
  (store.documents.rows.filter (RagDocument.isLiveIn userId projectId organizationId fingerprint)).maxOn?
    (·.updatedAt)

/-- `get_latest_ingestion_job_for_document`. -/
def latestIngestionJob (store : UploadStore) (documentId : Uuid) : Option RagIngestionJob :=
  (store.jobs.rows.filter fun job ↦ job.documentId = documentId).maxOn? (·.createdAt)

/-- The store with an object. -/
def put (store : UploadStore) (key : String) : UploadStore :=
  { store with objects := key :: store.objects }

/-- The store without an object, deleted by a compensation. -/
def compensate (store : UploadStore) (key : String) : UploadStore :=
  { store with
    objects := store.objects.filter (· ≠ key)
    deleted := key :: store.deleted }

/-- The outbox with an event, if there is one to add. -/
def addEvent (outbox : OutboxTable) : Option BackgroundJobOutbox → Option OutboxTable
  | none => some outbox
  | some event => outbox.insert event

/-- The commit of an upload. -/
def commit (store : UploadStore) (document : RagDocument) (job : RagIngestionJob)
    (event : Option BackgroundJobOutbox) : Option UploadStore :=
  match store.documents.insert document, store.jobs.insert job, addEvent store.outbox event with
  | some documents, some jobs, some outbox =>
    some { store with documents := documents, jobs := jobs, outbox := outbox }
  | _, _, _ => none

end UploadStore

/-- The store and the calls. -/
structure Uploads where
  store : UploadStore
  calls : List UploadCall

/-- The steps of a call, each named after what it awaits. -/
inductive UploadMove
  | scan (verdict : ScanVerdict)
  | resolve (projectId organizationId : Option String)
  | search (documentId : Uuid)
  | adopt (jobId : Uuid) (now : DateTime)
  | giveBack
  | send
  | land
  | stored
  | insert (now : DateTime)
  | createJob (jobId : Uuid) (now : DateTime)
  | enqueue (eventId : Uuid) (now : DateTime)
  | commit
  | acknowledge
  | refresh
  | rollback
  | compensate
  | finish
  | raise (error : UploadError)
  deriving DecidableEq, Repr

/-- A call begins, or takes a step. -/
inductive UploadAction
  | start (request : UploadRequest)
  | move (k : ℕ) (a : UploadMove)
  deriving DecidableEq, Repr

namespace Uploads

/-! ### The steps of a call -/

section Moves

variable (S : Settings) (C : UploadConfig) (sha256 : List UInt8 → String) (s : Uploads) (call : UploadCall)

/-- A call, as it begins. -/
def begun (request : UploadRequest) : UploadCall where
  request := request
  projectId := none
  organizationId := none
  documentId := none
  storagePath := none
  thread := .idle
  stage := match checkUpload C request with
    | .ok () => .scanning
    | .error error => .ended (.raised (.http error))

/-- `_scan_or_reject`. -/
def scan (verdict : ScanVerdict) : Option (UploadStore × UploadCall) :=
  match call.stage, scanOrReject C verdict with
  | .scanning, .ok () => some (s.store, call.moved .resolving)
  | .scanning, .error error => some (s.store, call.moved (.ended (.raised (.http error))))
  | _, _ => none

/-- `resolve_ownership_scope`. -/
def resolve (projectId organizationId : Option String) : Option (UploadStore × UploadCall) :=
  if call.stage = .resolving then
    some (s.store, { call with
      projectId := projectId
      organizationId := organizationId
      stage := .searching false })
  else none

/-- The identifier is new, and so is the key made from it. -/
def isNew (userId : String) (documentId : Uuid) : Bool :=
  let key := buildDocumentObjectKey userId documentId
  (s.store.documents.rows.all fun document ↦
      document.id ≠ documentId ∧ document.storagePath ≠ some key) &&
    (s.calls.all fun call ↦ call.documentId ≠ some documentId ∧ call.objectKey ≠ some key) &&
    !s.store.objects.contains key && !s.store.deleted.contains key

/-- `_find_duplicate`, up to its answer or to `create_ingestion_job`. -/
def search (documentId : Uuid) : Option (UploadStore × UploadCall) :=
  match call.stage with
  | .searching again =>
    match s.store.findDocumentByFingerprint call.request.userId call.projectId call.organizationId
        (sha256 call.request.content) with
    | some document =>
      match s.store.latestIngestionJob document.id with
      | some job => some (s.store, call.moved (.found again document job))
      | none => some (s.store, call.moved (.adopting again document))
    | none =>
      if again then some (s.store, call.moved (.compensating (.raised .integrity)))
      else if s.isNew call.request.userId documentId then
        some (s.store, { call with
          documentId := some documentId
          storagePath := some (buildDocumentObjectKey call.request.userId documentId)
          stage := .storing })
      else none
  | _ => none

/-- `_find_duplicate`, where it creates the job. -/
def adopt (jobId : Uuid) (now : DateTime) : Option (UploadStore × UploadCall) :=
  match call.stage with
  | .adopting again document =>
    let job := createIngestionJob S jobId document.id call.request.userId now
    match s.store.jobs.insert job with
    | some jobs => some ({ s.store with jobs := jobs }, call.moved (.found again document job))
    | none => (call.raise .integrity).map fun call' ↦ (s.store, call')
  | _ => none

/-- `_find_duplicate` returns. -/
def giveBack : Option (UploadStore × UploadCall) :=
  match call.stage with
  | .found again document job =>
    let outcome : UploadOutcome := .returned ⟨document, job, true⟩
    some (s.store, call.moved (if again then .compensating outcome else .ended outcome))
  | _ => none

/-- `upload_bytes` starts its thread. -/
def send : Option (UploadStore × UploadCall) :=
  if call.stage = .storing ∧ call.thread = .idle ∧ C.isConfigured then
    some (s.store, { call with thread := .running })
  else none

/-- `put_object` takes effect. -/
def land : Option (UploadStore × UploadCall) :=
  match call.objectKey with
  | some key =>
    if call.thread = .running then some (s.store.put key, { call with thread := .stored }) else none
  | none => none

/-- `store_document` returns. -/
def stored : Option (UploadStore × UploadCall) :=
  if call.stage = .storing then
    if C.isConfigured then
      if call.thread = .stored then
        some (s.store, { call with storagePath := call.objectKey, stage := .inserting })
      else none
    else if call.thread = .idle then
      some (s.store, { call with storagePath := none, stage := .inserting })
    else none
  else none

/-- `create_document`. -/
def createDocument (documentId : Uuid) (now : DateTime) : RagDocument where
  id := documentId
  userId := call.request.userId
  organizationId := call.organizationId
  projectId := call.projectId
  filename := call.request.safeFilename
  originalFilename := call.request.safeFilename
  contentType := call.request.detectedContentType.getD ""
  contentFingerprint := some (sha256 call.request.content)
  storagePath := call.storagePath
  status := .uploaded
  sourceType := "upload"
  createdAt := now
  updatedAt := now
  deletedAt := none

/-- The row collides with one that another call has inserted and not committed. -/
def waits (document : RagDocument) : Bool :=
  s.calls.any fun call ↦ call.stage.pending.any fun document' ↦
    !decide (documentSchema.Compat (documentSchema.ident document') (documentSchema.ident document))

/-- The flush of `create_document`. -/
def insert (now : DateTime) : Option (UploadStore × UploadCall) :=
  match call.stage, call.documentId with
  | .inserting, some documentId =>
    let document := createDocument sha256 call documentId now
    if s.waits document then none
    else
      match s.store.documents.insert document with
      | some _ => some (s.store, call.moved (.creatingJob document))
      | none => some (s.store, call.moved (.rollingBack none .integrity))
  | _, _ => none

/-- `create_ingestion_job`. -/
def createJob (jobId : Uuid) (now : DateTime) : Option (UploadStore × UploadCall) :=
  match call.stage with
  | .creatingJob document =>
    some (s.store, call.moved (.enqueuing document
      (createIngestionJob S jobId document.id call.request.userId now)))
  | _ => none

/-- `enqueue_job_event`: the event that it adds. -/
def jobEvent (job : RagIngestionJob) (documentId eventId : Uuid) (now : DateTime) :
    Option BackgroundJobOutbox :=
  if C.celeryTaskAlwaysEager ∨ (s.store.outbox.find (byJobId job.id)).isSome then none
  else some (newEvent eventId job.id "rag-indexing"
    [("document_id", toString documentId), ("user_id", call.request.userId), ("job_id", toString job.id)]
    job.deadlineAt now)

/-- `enqueue_job_event`. -/
def enqueue (eventId : Uuid) (now : DateTime) : Option (UploadStore × UploadCall) :=
  match call.stage with
  | .enqueuing document job =>
    some (s.store, call.moved (.committing document job (jobEvent C s call job document.id eventId now)))
  | _ => none

/-- `commit`, as it takes effect. -/
def commit : Option (UploadStore × UploadCall) :=
  match call.stage with
  | .committing document job event =>
    match s.store.commit document job event with
    | some store => some (store, call.moved (.acknowledging document job))
    | none => some (s.store, call.moved (.rollingBack (some document) .integrity))
  | _ => none

/-- `commit` returns. -/
def acknowledge : Option (UploadStore × UploadCall) :=
  match call.stage with
  | .acknowledging document job => some (s.store, call.moved (.refreshing document job))
  | _ => none

/-- The two refreshes, and the return. -/
def refresh : Option (UploadStore × UploadCall) :=
  match call.stage with
  | .refreshing document job =>
    some (s.store, call.moved (.ended (.returned ⟨document, job, false⟩)))
  | _ => none

/-- `_rollback_upload_transaction`. -/
def rollback : Option (UploadStore × UploadCall) :=
  match call.stage with
  | .rollingBack _ error => some (s.store, call.moved (UploadStage.handle error))
  | _ => none

/-- `_compensate_uploaded_object`. -/
def compensate : Option (UploadStore × UploadCall) :=
  match call.stage with
  | .compensating outcome =>
    match given call.storagePath with
    | some path =>
      some (if C.isConfigured then s.store.compensate path else s.store, call.moved (.compensated outcome))
    | none => some (s.store, call.moved (.compensated outcome))
  | _ => none

/-- The handler returns or raises. -/
def finish : Option (UploadStore × UploadCall) :=
  match call.stage with
  | .compensated outcome => some (s.store, call.moved (.ended outcome))
  | _ => none

/-- A step of a call: what it leaves of the store and of the call. -/
def move : UploadMove → Option (UploadStore × UploadCall)
  | .scan verdict => scan C s call verdict
  | .resolve projectId organizationId => s.resolve call projectId organizationId
  | .search documentId => search sha256 s call documentId
  | .adopt jobId now => adopt S s call jobId now
  | .giveBack => s.giveBack call
  | .send => send C s call
  | .land => s.land call
  | .stored => stored C s call
  | .insert now => insert sha256 s call now
  | .createJob jobId now => createJob S s call jobId now
  | .enqueue eventId now => enqueue C s call eventId now
  | .commit => s.commit call
  | .acknowledge => s.acknowledge call
  | .refresh => s.refresh call
  | .rollback => s.rollback call
  | .compensate => compensate C s call
  | .finish => s.finish call
  | .raise error => (call.raise error).map fun call' ↦ (s.store, call')

end Moves

end Uploads

/-- The transition function. -/
def uploadStep (S : Settings) (C : UploadConfig) (sha256 : List UInt8 → String) (s : Uploads) :
    UploadAction → Option Uploads
  | .start request => some { s with calls := s.calls ++ [Uploads.begun C request] }
  | .move k a =>
    s.calls[k]?.bind fun call ↦ (Uploads.move S C sha256 s call a).map fun (store, call') ↦
      ⟨store, s.calls.set k call'⟩

/-- The machine. The relations and the objects that it starts from are any. -/
def uploadMachine (S : Settings) (C : UploadConfig) (sha256 : List UInt8 → String) :
    Machine Uploads UploadAction where
  init s := s.calls = [] ∧ s.store.deleted = []
  step := uploadStep S C sha256

end GenericApp
