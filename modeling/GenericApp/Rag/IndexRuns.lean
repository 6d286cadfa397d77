import GenericApp.Foundation.Machine
import GenericApp.Rag.DocumentIngestion
import GenericApp.Rag.Documents

/-!
# Indexing, transaction by transaction

`DocumentIngestionService` and what else writes to the jobs, for any number of calls at the same time. A
step is a commit of one of them, or a statement before a commit whose place between the others matters.

A run of `index_document` loads the document, commits its claim of the job and, stage by stage, the
status of the document. Its last transaction deletes the chunks of the document and version (`replace`),
inserts its own (`store`) and commits both with the status and the job (`finish`). Statements see what is
committed when they start, so `replace` keeps the rows that it has deleted, and `store` waits for
uncommitted rows with the same index and is impossible next to committed ones. When a run raises, its
handler commits the failure (`fail`) in the transaction that is open, so whatever `replace` and `store`
have done is committed with it. A run that crashes, or whose handler raises as well (after a database
error, or over a job that is gone), commits nothing more (`abandon`).

The other calls are transactions in slots of their own: `delete_document` and `cleanup_deleted_document`
with the rows that their `DELETE` statements have found, `enqueue_document_indexing`, the outbox giving
up on a job, and an operator cancelling one, with what they have read before they write. A `DELETE` waits
for a run that has written to one of the rows in its open transaction, and whoever wants to write to a
deleted row waits for the `DELETE`.
-/

namespace GenericApp

open Machine Py

/-! ### Runs and transactions -/

/-- How far a run of `index_document` is. -/
inductive RunStage
  | loaded | claimed | extracting | chunking | embedding | replaced | stored | committed
  | returned | skipped | refused | failed | abandoned
  deriving DecidableEq, Repr

/-- The run is inside the `try` block, where a failure is handled. -/
def RunStage.inTry : RunStage → Bool
  | claimed | extracting | chunking | embedding | replaced | stored | committed => true
  | loaded | returned | skipped | refused | failed | abandoned => false

/-- The run has not ended. -/
def RunStage.isLive (stage : RunStage) : Bool := stage = .loaded || stage.inTry

/-- The stage that the next intermediate commit leads to, its document status, and whether `_touch_job`
precedes it. -/
def RunStage.next : RunStage → Option (RunStage × DocumentStatus × Bool)
  | claimed => some (extracting, .extracting, true)
  | extracting => some (chunking, .chunking, true)
  | chunking => some (embedding, .embedding, false)
  | _ => none

/-- A run of `index_document`: the document as it is in memory, the job and whether the run creates it,
and in the last transaction the version, the new rows and the rows that it has deleted. -/
structure IndexRun where
  document : RagDocument
  jobId : Uuid
  createsJob : Bool
  userId : String
  stage : RunStage
  versionId : Uuid
  rows : List ChunkRow
  doomed : List ChunkRow
  deriving DecidableEq, Repr

namespace IndexRun

/-- The run at another stage, with another status in memory. -/
def moved (run : IndexRun) (stage : RunStage) (status : DocumentStatus) : IndexRun :=
  { run with stage := stage, document := { run.document with status := status } }

/-- The run holds the lock of its job between two statements. -/
def locksJob (run : IndexRun) : Bool := run.stage = .replaced ∨ run.stage = .stored

/-- The chunks as a commit of the run leaves them. -/
def applied (run : IndexRun) (chunks : List ChunkRow) : List ChunkRow :=
  match run.stage with
  | .replaced => chunks.filter fun c ↦ c ∉ run.doomed
  | .stored => (chunks.filter fun c ↦ c ∉ run.doomed) ++ run.rows
  | _ => chunks

end IndexRun

/-- What the other calls have in hand before they commit: what they have read, or the rows that their
`DELETE` statements have found. -/
inductive Transaction
  | closed
  | enqueue (document : RagDocument)
  | deadLetter (job : RagIngestionJob)
  | cancel (jobId : Uuid)
  | delete (documentId : Uuid) (jobs : List Uuid)
  | cleanup (documentId : Uuid) (chunks : List ChunkRow)
  | cleanupJobs (documentId : Uuid) (chunks : List ChunkRow) (jobs : List Uuid)
  deriving DecidableEq, Repr

namespace Transaction

/-- The job is among the rows that the transaction has deleted. -/
def locksJob (jobId : Uuid) : Transaction → Bool
  | delete _ jobs | cleanupJobs _ _ jobs => jobs.contains jobId
  | closed | enqueue _ | deadLetter _ | cancel _ | cleanup _ _ => false

/-- The transaction has written to the document. -/
def locksDocument (documentId : Uuid) : Transaction → Bool
  | delete documentId' _ => documentId' = documentId
  | closed | enqueue _ | deadLetter _ | cancel _ | cleanup _ _ | cleanupJobs _ _ _ => false

end Transaction

/-- The relations, the runs and the transactions, and the documents whose cleanup has committed. -/
structure RagLibrary where
  documents : DocumentTable
  jobs : IngestionJobTable
  chunks : List ChunkRow
  runs : List IndexRun
  transactions : List Transaction
  cleaned : List Uuid

/-- The steps. -/
inductive RagAction
  | upload (document : RagDocument) (jobId : Uuid) (now : DateTime)
  | load (documentId jobId : Uuid) (createsJob : Bool) (userId : String)
  | claim (k : ℕ) (now : DateTime)
  | advance (k : ℕ) (now : DateTime)
  | replace (k : ℕ) (versionId : Uuid) (contents : List (String × String)) (now : DateTime)
  | store (k : ℕ)
  | finish (k : ℕ) (now : DateTime)
  | report (k : ℕ)
  | fail (k : ℕ) (message : String) (now : DateTime)
  | abandon (k : ℕ)
  | enqueue (documentId : Uuid)
  | commitEnqueue (k : ℕ) (jobId : Uuid) (userId : String) (now : DateTime)
  | deadLetter (jobId : Uuid)
  | commitDeadLetter (k : ℕ) (reason : String) (now : DateTime)
  | cancel (jobId : Uuid)
  | commitCancel (k : ℕ) (now : DateTime)
  | delete (documentId : Uuid)
  | commitDelete (k : ℕ) (now : DateTime)
  | cleanup (documentId : Uuid)
  | cleanupJobs (k : ℕ)
  | commitCleanup (k : ℕ) (now : DateTime)
  | rollback (k : ℕ)

namespace RagLibrary

/-! ### Reading -/

/-- Nothing yet. -/
def initial : RagLibrary := ⟨.empty, .empty, [], [], [], []⟩

/-- The document of an identifier. -/
def document (s : RagLibrary) (documentId : Uuid) : Option RagDocument :=
  s.documents.find (byDocumentId documentId)

/-- The job of an identifier. -/
def job (s : RagLibrary) (jobId : Uuid) : Option RagIngestionJob :=
  s.jobs.find (byIngestionJobId jobId)

/-- `get_document`: a document that is not deleted. -/
def liveDocument (s : RagLibrary) (documentId : Uuid) : Option RagDocument :=
  (s.document documentId).filter fun document ↦ document.deletedAt = none

/-- The jobs of a document. -/
def jobsOf (s : RagLibrary) (documentId : Uuid) : List Uuid :=
  (s.jobs.rows.filter fun job ↦ job.documentId = documentId).map (·.id)

/-- The chunks of a document under a version. -/
def chunksOf (s : RagLibrary) (documentId versionId : Uuid) : List ChunkRow :=
  s.chunks.filter (ChunkRow.isOf documentId versionId)

/-- No transaction has deleted the job. -/
def jobFree (s : RagLibrary) (jobId : Uuid) : Bool := s.transactions.all fun x ↦ !x.locksJob jobId

/-- No transaction has written to the document. -/
def documentFree (s : RagLibrary) (documentId : Uuid) : Bool :=
  s.transactions.all fun x ↦ !x.locksDocument documentId

/-- The identifier is free to be a new job's: it is of no job that a transaction has deleted or a run
has worked on. -/
def newJobId (s : RagLibrary) (jobId : Uuid) : Bool :=
  s.jobFree jobId && s.runs.all fun run ↦ run.jobId ≠ jobId || run.stage = .loaded

/-- No run has written to a job of the document in an open transaction. -/
def jobsUnlocked (s : RagLibrary) (documentId : Uuid) : Bool :=
  s.runs.all fun run ↦ !(run.locksJob && (s.jobsOf documentId).contains run.jobId)

/-! ### Writing -/

/-- The library with a run changed. -/
def setRun (s : RagLibrary) (k : ℕ) (run : IndexRun) : RagLibrary := { s with runs := s.runs.set k run }

/-- The library with a transaction changed. -/
def setTransaction (s : RagLibrary) (k : ℕ) (x : Transaction) : RagLibrary :=
  { s with transactions := s.transactions.set k x }

/-- The library with one more transaction. -/
def openTransaction (s : RagLibrary) (x : Transaction) : RagLibrary :=
  { s with transactions := s.transactions ++ [x] }

/-- The library with a document changed. -/
def modifyDocument (s : RagLibrary) (documentId : Uuid) (f : RagDocument → RagDocument) : RagLibrary :=
  { s with documents := s.documents.modify (byDocumentId documentId) f }

/-- The library with a job changed. -/
def modifyJob (s : RagLibrary) (jobId : Uuid) (f : RagIngestionJob → RagIngestionJob) : RagLibrary :=
  { s with jobs := s.jobs.modify (byIngestionJobId jobId) f }

/-- The library with other chunks. -/
def setChunks (s : RagLibrary) (chunks : List ChunkRow) : RagLibrary := { s with chunks := chunks }

/-- A commit of a run: the document gets a status, in the relation and in memory. -/
def commitStatus (s : RagLibrary) (k : ℕ) (run : IndexRun) (stage : RunStage) (status : DocumentStatus)
    (now : DateTime) : RagLibrary :=
  (s.modifyDocument run.document.id (updateDocumentStatus run.document.status status now)).setRun k
    (run.moved stage status)

/-- The library with a new job. -/
def insertJob (S : Settings) (s : RagLibrary) (jobId documentId : Uuid) (userId : String)
    (now : DateTime) : Option RagLibrary :=
  if s.newJobId jobId then
    (s.jobs.insert (createIngestionJob S jobId documentId userId now)).map fun jobs ↦
      { s with jobs := jobs }
  else none

/-! ### The run -/

/-- The library with the job that a run without one creates. -/
def withJob (S : Settings) (s : RagLibrary) (run : IndexRun) (now : DateTime) : Option RagLibrary :=
  if run.createsJob then s.insertJob S run.jobId run.document.id run.userId now else some s

/-- `index_document`, from the lock of the job to the commit of the claim. -/
def claim (S : Settings) (s : RagLibrary) (k : ℕ) (run : IndexRun) (now : DateTime) :
    Option RagLibrary :=
  match s.withJob S run now with
  | none => none
  | some s' =>
    match s'.job run.jobId with
    | none => some (s.setRun k { run with stage := .refused })
    | some job =>
      if s.jobFree run.jobId then
        if job.documentId = run.document.id then
          match startIndexing S now job with
          | .completed => some (s.setRun k { run with stage := .skipped })
          | .busy => some (s.setRun k { run with stage := .refused })
          | .refused job' _ =>
            some ((s'.modifyJob run.jobId fun _ ↦ job').setRun k { run with stage := .refused })
          | .started job' =>
            if s.documentFree run.document.id then
              some ((s'.modifyJob run.jobId fun _ ↦ job').commitStatus k run .claimed .validating now)
            else none
        else some (s.setRun k { run with stage := .refused })
      else none

/-- The run gets past its claim: its job is there, is its document's, and may run. -/
def begins (S : Settings) (s : RagLibrary) (run : IndexRun) (now : DateTime) : Bool :=
  (s.withJob S run now).any fun s' ↦ (s'.job run.jobId).any fun job ↦
    job.documentId = run.document.id ∧ (startIndexing S now job).outcome = none

/-- The run can write to its job: the row is there, no `DELETE` holds it, and its deadline has not
passed. -/
def touches (s : RagLibrary) (run : IndexRun) (now : DateTime) : Option RagIngestionJob :=
  if s.jobFree run.jobId then (s.job run.jobId).bind (touchJob now) else none

/-- An intermediate commit. -/
def advance (s : RagLibrary) (k : ℕ) (run : IndexRun) (now : DateTime) : Option RagLibrary :=
  match run.stage.next with
  | none => none
  | some (stage, status, touch) =>
    if s.documentFree run.document.id then
      if touch then
        (s.touches run now).map fun job' ↦
          (s.modifyJob run.jobId fun _ ↦ job').commitStatus k run stage status now
      else some (s.commitStatus k run stage status now)
    else none

/-- The rows of `replace_chunks`. -/
def newRows (k : ℕ) (document : RagDocument) (versionId : Uuid) (contents : List (String × String)) :
    List ChunkRow :=
  contents.mapIdx fun i (content, role) ↦
    ⟨k, document.id, versionId, document.userId, document.organizationId, document.projectId, i,
      content, role⟩

/-- `replace_chunks`, up to its `DELETE`. -/
def replace (s : RagLibrary) (k : ℕ) (run : IndexRun) (versionId : Uuid)
    (contents : List (String × String)) (now : DateTime) : Option RagLibrary :=
  if run.stage = .embedding ∧ (s.touches run now).isSome then
    some (s.setRun k { run with
      stage := .replaced
      versionId := versionId
      rows := newRows k run.document versionId contents
      doomed := s.chunksOf run.document.id versionId })
  else none

/-- No row of the run has the index of a committed row, or of another uncommitted one. -/
def storable (s : RagLibrary) (run : IndexRun) : Bool :=
  ((s.chunks.filter fun c ↦ c ∉ run.doomed).all fun c ↦ run.rows.all fun r ↦ !c.collides r) &&
    s.runs.all fun run' ↦ run'.stage ≠ .stored ||
      run'.rows.all fun c ↦ run.rows.all fun r ↦ !c.collides r

/-- A commit that needs the job and the document. -/
def writable (s : RagLibrary) (run : IndexRun) : Bool :=
  (s.job run.jobId).isSome && s.jobFree run.jobId && s.documentFree run.document.id

/-- The commit of the chunks. -/
def finish (s : RagLibrary) (k : ℕ) (run : IndexRun) (now : DateTime) : Option RagLibrary :=
  if run.stage = .stored ∧ s.writable run then
    some (((s.setChunks (run.applied s.chunks)).modifyJob run.jobId
      (completeIndexing now)).commitStatus k run .committed .indexed now)
  else none

/-- The commit of a failure. -/
def fail (s : RagLibrary) (k : ℕ) (run : IndexRun) (message : String) (now : DateTime) :
    Option RagLibrary :=
  if run.stage.inTry ∧ s.writable run then
    some (((s.setChunks (run.applied s.chunks)).modifyJob run.jobId
      (failIndexing message now)).commitStatus k run .failed .failed now)
  else none

/-! ### The other calls -/

/-- What `_dead_letter` does to the row of the job that it has read. -/
def deadLetterJob (memory : RagIngestionJob) (reason : String) (now : DateTime)
    (job : RagIngestionJob) : RagIngestionJob :=
  { job with
    status := if memory.status = .failed then job.status else .failed
    errorMessage := if memory.errorMessage = some reason then job.errorMessage else some reason
    finishedAt := some now
    heartbeatAt := some now }

/-- `upload_document`, as it commits. -/
def upload (S : Settings) (s : RagLibrary) (document : RagDocument) (jobId : Uuid) (now : DateTime) :
    Option RagLibrary :=
  (s.documents.insert { document with
      status := .uploaded, createdAt := now, updatedAt := now, deletedAt := none }).bind fun documents ↦
    { s with documents := documents }.insertJob S jobId document.id document.userId now

/-- `delete_document`, as it commits. -/
def commitDelete (s : RagLibrary) (k : ℕ) (documentId : Uuid) (jobs : List Uuid) (now : DateTime) :
    Option RagLibrary :=
  (s.documents.update (byDocumentId documentId) (softDeleteDocument now)).map fun documents ↦
    { s with documents := documents, jobs := s.jobs.delete jobs.contains }.setTransaction k .closed

/-- `cleanup_deleted_document`, as it commits. -/
def commitCleanup (s : RagLibrary) (k : ℕ) (documentId : Uuid) (chunks : List ChunkRow)
    (jobs : List Uuid) (now : DateTime) : RagLibrary :=
  ({ s with
      chunks := s.chunks.filter fun c ↦ c ∉ chunks
      jobs := s.jobs.delete jobs.contains
      cleaned := s.cleaned ++ [documentId] }.modifyDocument documentId
    (scrubDeletedDocument now)).setTransaction k .closed

end RagLibrary

open RagLibrary

/-- One step. -/
def ragStep (S : Settings) (s : RagLibrary) : RagAction → Option RagLibrary
  | .upload document jobId now => s.upload S document jobId now
  | .load documentId jobId createsJob userId =>
    (s.liveDocument documentId).map fun document ↦
      { s with runs := s.runs ++ [⟨document, jobId, createsJob, userId, .loaded, 0, [], []⟩] }
  | .claim k now =>
    (s.runs[k]?).bind fun run ↦ if run.stage = .loaded then s.claim S k run now else none
  | .advance k now => (s.runs[k]?).bind fun run ↦ s.advance k run now
  | .replace k versionId contents now =>
    (s.runs[k]?).bind fun run ↦ s.replace k run versionId contents now
  | .store k => (s.runs[k]?).bind fun run ↦
    if run.stage = .replaced ∧ s.storable run then some (s.setRun k { run with stage := .stored })
    else none
  | .finish k now => (s.runs[k]?).bind fun run ↦ s.finish k run now
  | .report k => (s.runs[k]?).bind fun run ↦
    if run.stage = .committed then some (s.setRun k { run with stage := .returned }) else none
  | .fail k message now => (s.runs[k]?).bind fun run ↦ s.fail k run message now
  | .abandon k => (s.runs[k]?).bind fun run ↦
    if run.stage.isLive then some (s.setRun k { run with stage := .abandoned }) else none
  | .enqueue documentId =>
    (s.liveDocument documentId).map fun document ↦ s.openTransaction (.enqueue document)
  | .commitEnqueue k jobId userId now =>
    match s.transactions[k]? with
    | some (.enqueue document) =>
      (s.insertJob S jobId document.id userId now).map fun s' ↦ s'.setTransaction k .closed
    | _ => none
  | .deadLetter jobId =>
    ((s.job jobId).filter fun job ↦ job.status ≠ .completed).map fun job ↦
      s.openTransaction (.deadLetter job)
  | .commitDeadLetter k reason now =>
    match s.transactions[k]? with
    | some (.deadLetter job) =>
      if (s.job job.id).isSome ∧ s.jobFree job.id then
        some ((s.modifyJob job.id (deadLetterJob job reason now)).setTransaction k .closed)
      else none
    | _ => none
  | .cancel jobId =>
    ((s.job jobId).filter fun job ↦ job.status = .pending).map fun _ ↦
      s.openTransaction (.cancel jobId)
  | .commitCancel k now =>
    match s.transactions[k]? with
    | some (.cancel jobId) =>
      if (s.job jobId).isSome ∧ s.jobFree jobId then
        some ((s.modifyJob jobId (updateIngestionJob .cancelled (some "cancelled_by_operator") false
          true now)).setTransaction k .closed)
      else none
    | _ => none
  | .delete documentId =>
    if (s.liveDocument documentId).isSome ∧ s.jobsUnlocked documentId then
      some (s.openTransaction (.delete documentId (s.jobsOf documentId)))
    else none
  | .commitDelete k now =>
    match s.transactions[k]? with
    | some (.delete documentId jobs) => s.commitDelete k documentId jobs now
    | _ => none
  | .cleanup documentId =>
    if (s.document documentId).any fun document ↦ document.deletedAt ≠ none then
      some (s.openTransaction (.cleanup documentId
        (s.chunks.filter fun c ↦ c.documentId = documentId)))
    else none
  | .cleanupJobs k =>
    match s.transactions[k]? with
    | some (.cleanup documentId chunks) =>
      if s.jobsUnlocked documentId then
        some (s.setTransaction k (.cleanupJobs documentId chunks (s.jobsOf documentId)))
      else none
    | _ => none
  | .commitCleanup k now =>
    match s.transactions[k]? with
    | some (.cleanupJobs documentId chunks jobs) => some (s.commitCleanup k documentId chunks jobs now)
    | _ => none
  | .rollback k =>
    (s.transactions[k]?).bind fun x ↦ if x = .closed then none else some (s.setTransaction k .closed)

/-- All of it, from nothing. -/
def ragMachine (S : Settings) : Machine RagLibrary RagAction where
  init s := s = .initial
  step := ragStep S

/-! ### What a step does -/

/-- The steps of a run that commit nothing. -/
inductive RunMove (s : RagLibrary) (k : ℕ) (run : IndexRun) : RagAction → IndexRun → Prop
  | unclaimed (now : DateTime) (stage : RunStage) (hstage : run.stage = .loaded)
      (hend : stage = .refused ∨ stage = .skipped) :
      RunMove s k run (.claim k now) { run with stage := stage }
  | replaced (versionId : Uuid) (contents : List (String × String)) (now : DateTime)
      (hstage : run.stage = .embedding) (htouch : (s.touches run now).isSome = true) :
      RunMove s k run (.replace k versionId contents now) { run with
        stage := .replaced
        versionId := versionId
        rows := newRows k run.document versionId contents
        doomed := s.chunksOf run.document.id versionId }
  | stored (hstage : run.stage = .replaced) (hstorable : s.storable run = true) :
      RunMove s k run (.store k) { run with stage := .stored }
  | returned (hstage : run.stage = .committed) :
      RunMove s k run (.report k) { run with stage := .returned }
  | abandoned (hlive : run.stage.isLive = true) :
      RunMove s k run (.abandon k) { run with stage := .abandoned }

/-- What is read when a transaction begins. -/
inductive Opens (s : RagLibrary) : RagAction → Transaction → Prop
  | enqueue {documentId : Uuid} {document : RagDocument}
      (hdoc : s.liveDocument documentId = some document) :
      Opens s (.enqueue documentId) (.enqueue document)
  | deadLetter {jobId : Uuid} {job : RagIngestionJob} (hjob : s.job jobId = some job)
      (hstatus : job.status ≠ .completed) : Opens s (.deadLetter jobId) (.deadLetter job)
  | cancel {jobId : Uuid} {job : RagIngestionJob} (hjob : s.job jobId = some job)
      (hstatus : job.status = .pending) : Opens s (.cancel jobId) (.cancel jobId)
  | delete {documentId : Uuid} (hlive : (s.liveDocument documentId).isSome = true)
      (hunlocked : s.jobsUnlocked documentId = true) :
      Opens s (.delete documentId) (.delete documentId (s.jobsOf documentId))
  | cleanup {documentId : Uuid} {document : RagDocument} (hdoc : s.document documentId = some document)
      (hdeleted : document.deletedAt ≠ none) :
      Opens s (.cleanup documentId)
        (.cleanup documentId (s.chunks.filter fun c ↦ c.documentId = documentId))

/-- **What a step can do.** -/
inductive RagStep (S : Settings) (s : RagLibrary) : RagAction → RagLibrary → Prop
  | uploaded {document : RagDocument} {jobId : Uuid} {now : DateTime} {D : DocumentTable}
      {J : IngestionJobTable}
      (hdoc : s.documents.insert { document with
        status := .uploaded, createdAt := now, updatedAt := now, deletedAt := none } = some D)
      (hnew : s.newJobId jobId = true)
      (hjob : s.jobs.insert (createIngestionJob S jobId document.id document.userId now) = some J) :
      RagStep S s (.upload document jobId now) { s with documents := D, jobs := J }
  | loaded {documentId jobId : Uuid} {createsJob : Bool} {userId : String} {document : RagDocument}
      (hdoc : s.liveDocument documentId = some document) :
      RagStep S s (.load documentId jobId createsJob userId)
        { s with runs := s.runs ++ [⟨document, jobId, createsJob, userId, .loaded, 0, [], []⟩] }
  | moved {a : RagAction} {k : ℕ} {run run' : IndexRun} (hrun : s.runs[k]? = some run)
      (hmove : RunMove s k run a run') : RagStep S s a (s.setRun k run')
  | refused {k : ℕ} {now : DateTime} {run : IndexRun} {s' : RagLibrary} {job job' : RagIngestionJob}
      {detail : String} (hrun : s.runs[k]? = some run) (hstage : run.stage = .loaded)
      (hwith : s.withJob S run now = some s') (hjob : s'.job run.jobId = some job)
      (hfree : s.jobFree run.jobId = true) (hof : job.documentId = run.document.id)
      (hstart : startIndexing S now job = .refused job' detail) :
      RagStep S s (.claim k now)
        ((s'.modifyJob run.jobId fun _ ↦ job').setRun k { run with stage := .refused })
  | claimed {k : ℕ} {now : DateTime} {run : IndexRun} {s' : RagLibrary} {job job' : RagIngestionJob}
      (hrun : s.runs[k]? = some run) (hstage : run.stage = .loaded)
      (hwith : s.withJob S run now = some s') (hjob : s'.job run.jobId = some job)
      (hfree : s.jobFree run.jobId = true) (hof : job.documentId = run.document.id)
      (hdoc : s.documentFree run.document.id = true)
      (hstart : startIndexing S now job = .started job') :
      RagStep S s (.claim k now)
        ((s'.modifyJob run.jobId fun _ ↦ job').commitStatus k run .claimed .validating now)
  | advanced {k : ℕ} {now : DateTime} {run : IndexRun} {s' : RagLibrary} {stage : RunStage}
      {status : DocumentStatus} {touch : Bool} (hrun : s.runs[k]? = some run)
      (hnext : run.stage.next = some (stage, status, touch))
      (hdoc : s.documentFree run.document.id = true)
      (hs : s' = s ∨ ∃ job', s.touches run now = some job' ∧ s' = s.modifyJob run.jobId fun _ ↦ job') :
      RagStep S s (.advance k now) (s'.commitStatus k run stage status now)
  | finished {k : ℕ} {now : DateTime} {run : IndexRun} (hrun : s.runs[k]? = some run)
      (hstage : run.stage = .stored) (hwritable : s.writable run = true) :
      RagStep S s (.finish k now) (((s.setChunks (run.applied s.chunks)).modifyJob run.jobId
        (completeIndexing now)).commitStatus k run .committed .indexed now)
  | failed {k : ℕ} {message : String} {now : DateTime} {run : IndexRun}
      (hrun : s.runs[k]? = some run) (htry : run.stage.inTry = true)
      (hwritable : s.writable run = true) :
      RagStep S s (.fail k message now) (((s.setChunks (run.applied s.chunks)).modifyJob run.jobId
        (failIndexing message now)).commitStatus k run .failed .failed now)
  | opened {a : RagAction} {x : Transaction} (hopen : Opens s a x) :
      RagStep S s a (s.openTransaction x)
  | enqueued {k : ℕ} {jobId : Uuid} {userId : String} {now : DateTime} {document : RagDocument}
      {J : IngestionJobTable} (hx : s.transactions[k]? = some (.enqueue document))
      (hnew : s.newJobId jobId = true)
      (hjob : s.jobs.insert (createIngestionJob S jobId document.id userId now) = some J) :
      RagStep S s (.commitEnqueue k jobId userId now) ({ s with jobs := J }.setTransaction k .closed)
  | deadLettered {k : ℕ} {reason : String} {now : DateTime} {job : RagIngestionJob}
      (hx : s.transactions[k]? = some (.deadLetter job)) (hfree : s.jobFree job.id = true) :
      RagStep S s (.commitDeadLetter k reason now)
        ((s.modifyJob job.id (deadLetterJob job reason now)).setTransaction k .closed)
  | cancelled {k : ℕ} {now : DateTime} {jobId : Uuid}
      (hx : s.transactions[k]? = some (.cancel jobId)) (hfree : s.jobFree jobId = true) :
      RagStep S s (.commitCancel k now) ((s.modifyJob jobId (updateIngestionJob .cancelled
        (some "cancelled_by_operator") false true now)).setTransaction k .closed)
  | deleted {k : ℕ} {now : DateTime} {documentId : Uuid} {jobs : List Uuid} {D : DocumentTable}
      (hx : s.transactions[k]? = some (.delete documentId jobs))
      (hdoc : s.documents.update (byDocumentId documentId) (softDeleteDocument now) = some D) :
      RagStep S s (.commitDelete k now)
        ({ s with documents := D, jobs := s.jobs.delete jobs.contains }.setTransaction k .closed)
  | jobsDeleted {k : ℕ} {documentId : Uuid} {chunks : List ChunkRow}
      (hx : s.transactions[k]? = some (.cleanup documentId chunks))
      (hunlocked : s.jobsUnlocked documentId = true) :
      RagStep S s (.cleanupJobs k)
        (s.setTransaction k (.cleanupJobs documentId chunks (s.jobsOf documentId)))
  | cleanedUp {k : ℕ} {now : DateTime} {documentId : Uuid} {chunks : List ChunkRow} {jobs : List Uuid}
      (hx : s.transactions[k]? = some (.cleanupJobs documentId chunks jobs)) :
      RagStep S s (.commitCleanup k now) (s.commitCleanup k documentId chunks jobs now)
  | rolledBack {k : ℕ} {x : Transaction} (hx : s.transactions[k]? = some x) :
      RagStep S s (.rollback k) (s.setTransaction k .closed)

section Steps

variable {S : Settings} {s t : RagLibrary} {a : RagAction} {k : ℕ} {run : IndexRun} {now : DateTime}

theorem insertJob_eq_some {jobId documentId : Uuid} {userId : String}
    (h : s.insertJob S jobId documentId userId now = some t) :
    ∃ J, t = { s with jobs := J } ∧ s.newJobId jobId = true ∧
      s.jobs.insert (createIngestionJob S jobId documentId userId now) = some J := by
  rw [insertJob] at h
  split at h
  · next hnew =>
    obtain ⟨J, hJ, rfl⟩ := Option.map_eq_some_iff.1 h
    exact ⟨J, rfl, hnew, hJ⟩
  · exact nomatch h

theorem claim_sound (hrun : s.runs[k]? = some run) (hstage : run.stage = .loaded)
    (h : s.claim S k run now = some t) : RagStep S s (.claim k now) t := by
  rw [claim] at h
  split at h
  · exact nomatch h
  · next s' hwith =>
    split at h
    · obtain rfl := Option.some.inj h
      exact .moved hrun (.unclaimed now _ hstage (.inl rfl))
    · next job hjob =>
      split at h
      · next hfree =>
        split at h
        · next hof =>
          split at h
          · obtain rfl := Option.some.inj h
            exact .moved hrun (.unclaimed now _ hstage (.inr rfl))
          · obtain rfl := Option.some.inj h
            exact .moved hrun (.unclaimed now _ hstage (.inl rfl))
          · next hstart =>
            obtain rfl := Option.some.inj h
            exact .refused hrun hstage hwith hjob hfree hof hstart
          · next hstart =>
            split at h
            · next hdoc =>
              obtain rfl := Option.some.inj h
              exact .claimed hrun hstage hwith hjob hfree hof hdoc hstart
            · exact nomatch h
        · obtain rfl := Option.some.inj h
          exact .moved hrun (.unclaimed now _ hstage (.inl rfl))
      · exact nomatch h

/-- A run that gets past its claim commits it. -/
theorem claim_of_begins (hbegins : s.begins S run now = true) (h : s.claim S k run now = some t) :
    ∃ s' : RagLibrary, s'.documents = s.documents ∧ s'.runs = s.runs ∧
      t = s'.commitStatus k run .claimed .validating now := by
  obtain ⟨s', hwith, hbegins⟩ := (Option.any_eq_true _ _).1 hbegins
  obtain ⟨job, hjob, hbegins⟩ := (Option.any_eq_true _ _).1 hbegins
  obtain ⟨hof, hstart⟩ := of_decide_eq_true hbegins
  have hsame : s'.documents = s.documents ∧ s'.runs = s.runs := by
    rw [withJob] at hwith
    split at hwith
    · obtain ⟨J, rfl, -⟩ := insertJob_eq_some hwith
      exact ⟨rfl, rfl⟩
    · obtain rfl := Option.some.inj hwith
      exact ⟨rfl, rfl⟩
  simp only [claim, hwith, hjob, if_pos hof] at h
  split at h
  · match hstarting : startIndexing S now job with
    | .completed | .busy | .refused _ _ =>
      rw [hstarting] at hstart
      exact nomatch hstart
    | .started job' =>
      rw [hstarting] at h
      simp only at h
      split at h
      · obtain rfl := Option.some.inj h
        exact ⟨s'.modifyJob run.jobId fun _ ↦ job', hsame.1, hsame.2, rfl⟩
      · exact nomatch h
  · exact nomatch h

theorem advance_eq_some (h : s.advance k run now = some t) :
    ∃ stage status touch s', run.stage.next = some (stage, status, touch) ∧
      s.documentFree run.document.id = true ∧
      (s' = s ∨ ∃ job', s.touches run now = some job' ∧ s' = s.modifyJob run.jobId fun _ ↦ job') ∧
      t = s'.commitStatus k run stage status now := by
  rw [advance] at h
  split at h
  · exact nomatch h
  · next stage status touch hnext =>
    split at h
    · next hdoc =>
      split at h
      · obtain ⟨job', htouch, rfl⟩ := Option.map_eq_some_iff.1 h
        exact ⟨stage, status, touch, _, hnext, hdoc, .inr ⟨job', htouch, rfl⟩, rfl⟩
      · obtain rfl := Option.some.inj h
        exact ⟨stage, status, touch, s, hnext, hdoc, .inl rfl, rfl⟩
    · exact nomatch h

theorem advance_sound (hrun : s.runs[k]? = some run) (h : s.advance k run now = some t) :
    RagStep S s (.advance k now) t := by
  obtain ⟨stage, status, touch, s', hnext, hdoc, hs', rfl⟩ := advance_eq_some h
  exact .advanced hrun hnext hdoc hs'

theorem finish_eq_some (h : s.finish k run now = some t) :
    (run.stage = .stored ∧ s.writable run = true) ∧
      t = ((s.setChunks (run.applied s.chunks)).modifyJob run.jobId
        (completeIndexing now)).commitStatus k run .committed .indexed now := by
  rw [finish] at h
  split at h
  · next hguard => exact ⟨hguard, (Option.some.inj h).symm⟩
  · exact nomatch h

theorem finish_sound (hrun : s.runs[k]? = some run) (h : s.finish k run now = some t) :
    RagStep S s (.finish k now) t := by
  obtain ⟨⟨hstage, hwritable⟩, rfl⟩ := finish_eq_some h
  exact .finished hrun hstage hwritable

theorem fail_eq_some {message : String} (h : s.fail k run message now = some t) :
    (run.stage.inTry = true ∧ s.writable run = true) ∧
      t = ((s.setChunks (run.applied s.chunks)).modifyJob run.jobId
        (failIndexing message now)).commitStatus k run .failed .failed now := by
  rw [fail] at h
  split at h
  · next hguard => exact ⟨hguard, (Option.some.inj h).symm⟩
  · exact nomatch h

theorem fail_sound {message : String} (hrun : s.runs[k]? = some run)
    (h : s.fail k run message now = some t) : RagStep S s (.fail k message now) t := by
  obtain ⟨⟨htry, hwritable⟩, rfl⟩ := fail_eq_some h
  exact .failed hrun htry hwritable

theorem replace_sound {versionId : Uuid} {contents : List (String × String)}
    (hrun : s.runs[k]? = some run) (h : s.replace k run versionId contents now = some t) :
    RagStep S s (.replace k versionId contents now) t := by
  rw [replace] at h
  split at h
  · next hguard =>
    obtain rfl := Option.some.inj h
    exact .moved hrun (.replaced versionId contents now hguard.1 hguard.2)
  · exact nomatch h

theorem upload_sound {document : RagDocument} {jobId : Uuid}
    (h : s.upload S document jobId now = some t) : RagStep S s (.upload document jobId now) t := by
  obtain ⟨D, hdoc, h⟩ := Option.bind_eq_some_iff.1 h
  obtain ⟨J, rfl, hnew, hjob⟩ := insertJob_eq_some h
  exact .uploaded hdoc hnew hjob

theorem delete_sound {documentId : Uuid} (h : ragStep S s (.delete documentId) = some t) :
    RagStep S s (.delete documentId) t := by
  unfold ragStep at h
  dsimp only at h
  split at h
  · next hguard =>
    obtain rfl := Option.some.inj h
    exact .opened (.delete hguard.1 hguard.2)
  · exact nomatch h

theorem cleanup_sound {documentId : Uuid} (h : ragStep S s (.cleanup documentId) = some t) :
    RagStep S s (.cleanup documentId) t := by
  unfold ragStep at h
  dsimp only at h
  split at h
  · next hguard =>
    obtain rfl := Option.some.inj h
    obtain ⟨document, hdoc, hdeleted⟩ := (Option.any_eq_true _ _).1 hguard
    exact .opened (.cleanup hdoc (of_decide_eq_true hdeleted))
  · exact nomatch h

theorem commitEnqueue_sound {jobId : Uuid} {userId : String}
    (h : ragStep S s (.commitEnqueue k jobId userId now) = some t) :
    RagStep S s (.commitEnqueue k jobId userId now) t := by
  unfold ragStep at h
  dsimp only at h
  split at h
  · next hx =>
    obtain ⟨s', hs', rfl⟩ := Option.map_eq_some_iff.1 h
    obtain ⟨J, rfl, hnew, hjob⟩ := insertJob_eq_some hs'
    exact .enqueued hx hnew hjob
  · exact nomatch h

theorem commitDeadLetter_sound {reason : String}
    (h : ragStep S s (.commitDeadLetter k reason now) = some t) :
    RagStep S s (.commitDeadLetter k reason now) t := by
  unfold ragStep at h
  dsimp only at h
  split at h
  · next hx =>
    split at h
    · next hguard =>
      obtain rfl := Option.some.inj h
      exact .deadLettered hx hguard.2
    · exact nomatch h
  · exact nomatch h

theorem commitCancel_sound (h : ragStep S s (.commitCancel k now) = some t) :
    RagStep S s (.commitCancel k now) t := by
  unfold ragStep at h
  dsimp only at h
  split at h
  · next hx =>
    split at h
    · next hguard =>
      obtain rfl := Option.some.inj h
      exact .cancelled hx hguard.2
    · exact nomatch h
  · exact nomatch h

theorem commitDelete_sound (h : ragStep S s (.commitDelete k now) = some t) :
    RagStep S s (.commitDelete k now) t := by
  unfold ragStep at h
  dsimp only at h
  split at h
  · next hx =>
    obtain ⟨D, hdoc, rfl⟩ := Option.map_eq_some_iff.1 h
    exact .deleted hx hdoc
  · exact nomatch h

theorem cleanupJobs_sound (h : ragStep S s (.cleanupJobs k) = some t) :
    RagStep S s (.cleanupJobs k) t := by
  unfold ragStep at h
  dsimp only at h
  split at h
  · next hx =>
    split at h
    · next hunlocked =>
      obtain rfl := Option.some.inj h
      exact .jobsDeleted hx hunlocked
    · exact nomatch h
  · exact nomatch h

theorem commitCleanup_sound (h : ragStep S s (.commitCleanup k now) = some t) :
    RagStep S s (.commitCleanup k now) t := by
  unfold ragStep at h
  dsimp only at h
  split at h
  · next hx =>
    obtain rfl := Option.some.inj h
    exact .cleanedUp hx
  · exact nomatch h

/-- **Every step is one of these.** -/
theorem ragStep_sound (h : ragStep S s a = some t) : RagStep S s a t := by
  match a with
  | .upload document jobId now => exact upload_sound h
  | .load documentId jobId createsJob userId =>
    obtain ⟨document, hdoc, rfl⟩ := Option.map_eq_some_iff.1 h
    exact .loaded hdoc
  | .claim k now =>
    obtain ⟨run, hrun, h⟩ := Option.bind_eq_some_iff.1 h
    split at h
    · next hstage => exact claim_sound hrun hstage h
    · exact nomatch h
  | .advance k now =>
    obtain ⟨run, hrun, h⟩ := Option.bind_eq_some_iff.1 h
    exact advance_sound hrun h
  | .replace k versionId contents now =>
    obtain ⟨run, hrun, h⟩ := Option.bind_eq_some_iff.1 h
    exact replace_sound hrun h
  | .store k =>
    obtain ⟨run, hrun, h⟩ := Option.bind_eq_some_iff.1 h
    split at h
    · next hguard =>
      obtain rfl := Option.some.inj h
      exact .moved hrun (.stored hguard.1 hguard.2)
    · exact nomatch h
  | .finish k now =>
    obtain ⟨run, hrun, h⟩ := Option.bind_eq_some_iff.1 h
    exact finish_sound hrun h
  | .report k =>
    obtain ⟨run, hrun, h⟩ := Option.bind_eq_some_iff.1 h
    split at h
    · next hstage =>
      obtain rfl := Option.some.inj h
      exact .moved hrun (.returned hstage)
    · exact nomatch h
  | .fail k message now =>
    obtain ⟨run, hrun, h⟩ := Option.bind_eq_some_iff.1 h
    exact fail_sound hrun h
  | .abandon k =>
    obtain ⟨run, hrun, h⟩ := Option.bind_eq_some_iff.1 h
    split at h
    · next hlive =>
      obtain rfl := Option.some.inj h
      exact .moved hrun (.abandoned hlive)
    · exact nomatch h
  | .enqueue documentId =>
    obtain ⟨document, hdoc, rfl⟩ := Option.map_eq_some_iff.1 h
    exact .opened (.enqueue hdoc)
  | .commitEnqueue k jobId userId now => exact commitEnqueue_sound h
  | .deadLetter jobId =>
    obtain ⟨job, hjob, rfl⟩ := Option.map_eq_some_iff.1 h
    obtain ⟨hjob, hstatus⟩ := Option.filter_eq_some_iff.1 hjob
    exact .opened (.deadLetter hjob (of_decide_eq_true hstatus))
  | .commitDeadLetter k reason now => exact commitDeadLetter_sound h
  | .cancel jobId =>
    obtain ⟨job, hjob, rfl⟩ := Option.map_eq_some_iff.1 h
    obtain ⟨hjob, hstatus⟩ := Option.filter_eq_some_iff.1 hjob
    exact .opened (.cancel hjob (of_decide_eq_true hstatus))
  | .commitCancel k now => exact commitCancel_sound h
  | .delete documentId => exact delete_sound h
  | .commitDelete k now => exact commitDelete_sound h
  | .cleanup documentId => exact cleanup_sound h
  | .cleanupJobs k => exact cleanupJobs_sound h
  | .commitCleanup k now => exact commitCleanup_sound h
  | .rollback k =>
    obtain ⟨x, hx, h⟩ := Option.bind_eq_some_iff.1 h
    split at h
    · exact nomatch h
    · obtain rfl := Option.some.inj h
      exact .rolledBack hx

end Steps

end GenericApp
