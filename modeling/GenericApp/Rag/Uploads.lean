import GenericApp.Rag.UploadCalls

/-!
# Whether uploads are all or nothing

An upload writes to two systems. The database keeps live documents apart by itself. The stored object is
the call's own, since its key is made from a new identifier, so no other call ever touches it; what is
left is whether the call deletes it exactly if it has not committed its document.

The handlers are `except IntegrityError` and `except Exception`. A `CancelledError` is neither: a call that
is cancelled once its object is on the way leaves it behind, and so does one that is cancelled in a
handler before the deletion. A commit that takes effect and then raises, because its answer is lost, is
taken for a failure, and the object of the committed document is deleted.

* `uploads_are_atomic`: as long as neither happens, a call that ends has its object if and only if a
  document of its own refers to it, and a call that returns returns a live document with the content.
* `uploads_are_not_atomic`: a cancelled call leaves its object, and a lost answer costs a document its.
-/

namespace GenericApp

open Machine Py

/-! ### What is to hold -/

namespace Uploads

variable (s : Uploads) (sha256 : List UInt8 → String)

/-- At most one live document has the content in the scope. -/
def OneLive : Prop :=
  ∀ userId projectId organizationId fingerprint,
    (s.store.documents.rows.filter
      (RagDocument.isLiveIn userId projectId organizationId fingerprint)).length ≤ 1

/-- The object of a call that has ended is that of a document that the call has committed. -/
def NoneLeft : Prop :=
  ∀ call ∈ s.calls, call.stage.isEnded = true → ∀ key ∈ call.objectKey, key ∈ s.store.objects →
    ∃ document ∈ s.store.documents.rows, some document.id = call.documentId ∧
      document.storagePath = some key

/-- No compensation has deleted the object of a live document. -/
def NoneLost : Prop :=
  ∀ document ∈ s.store.documents.rows, document.deletedAt = none →
    ∀ key ∈ document.storagePath, key ∉ s.store.deleted

/-- A call that has returned has returned a live document with the content in the scope. -/
def Answered : Prop :=
  ∀ call ∈ s.calls, ∀ result, call.stage = .ended (.returned result) →
    result.document ∈ s.store.documents.rows ∧
      result.document.isLiveIn call.request.userId call.projectId call.organizationId
        (sha256 call.request.content) = true

/-- The four together. -/
def Atomic : Prop := s.OneLive ∧ s.NoneLeft ∧ s.NoneLost ∧ s.Answered sha256

end Uploads

/-- A call whose object is on the way can do without a handler for the exception: it is not cancelled
before its object is referred to or deleted, and its commit does not raise once it has taken effect. -/
def UploadStage.survives (error : UploadError) : UploadStage → Bool
  | storing | inserting | creatingJob _ | enqueuing _ _ | committing _ _ _ | rollingBack _ _
  | compensating _ => error ≠ .cancelled
  | acknowledging _ _ => error = .cancelled
  | scanning | resolving | searching _ | adopting _ _ | found _ _ _ | refreshing _ _ | compensated _
  | ended _ => true

/-- The condition on a step. -/
def KeepsAtomic (s : Uploads) : UploadAction → Prop
  | .move k (.raise error) => ∀ call ∈ s.calls[k]?, call.thread ≠ .idle → call.stage.survives error = true
  | _ => True

instance (s : Uploads) (a : UploadAction) : Decidable (KeepsAtomic s a) :=
  match a with
  | .move k (.raise error) =>
    inferInstanceAs (Decidable (∀ call ∈ s.calls[k]?, call.thread ≠ .idle →
      call.stage.survives error = true))
  | .start _ | .move _ (.scan _) | .move _ (.resolve _ _) | .move _ (.search _) | .move _ (.adopt _ _)
  | .move _ .giveBack | .move _ .send | .move _ .land | .move _ .stored | .move _ (.insert _)
  | .move _ (.createJob _ _) | .move _ (.enqueue _ _) | .move _ .commit | .move _ .acknowledge
  | .move _ .refresh | .move _ .rollback | .move _ .compensate | .move _ .finish => isTrue trivial

/-! ### What a step can do -/

/-- **What a step of a call can do**, with what it leaves of the store and of the call. -/
inductive UploadMoved (S : Settings) (C : UploadConfig) (sha256 : List UInt8 → String) (s : Uploads)
    (call : UploadCall) : UploadMove → UploadStore → UploadCall → Prop
  | scanned {verdict : ScanVerdict} (hstage : call.stage = .scanning) :
      UploadMoved S C sha256 s call (.scan verdict) s.store (call.moved .resolving)
  | rejected {verdict : ScanVerdict} {error : HttpError} (hstage : call.stage = .scanning) :
      UploadMoved S C sha256 s call (.scan verdict) s.store (call.moved (.ended (.raised (.http error))))
  | resolved {projectId organizationId : Option String} (hstage : call.stage = .resolving) :
      UploadMoved S C sha256 s call (.resolve projectId organizationId) s.store { call with
        projectId := projectId
        organizationId := organizationId
        stage := .searching false }
  | found {id : Uuid} {again : Bool} {document : RagDocument} {job : RagIngestionJob}
      (hstage : call.stage = .searching again)
      (hdoc : s.store.findDocumentByFingerprint call.request.userId call.projectId call.organizationId
        (sha256 call.request.content) = some document) :
      UploadMoved S C sha256 s call (.search id) s.store (call.moved (.found again document job))
  | jobless {id : Uuid} {again : Bool} {document : RagDocument} (hstage : call.stage = .searching again)
      (hdoc : s.store.findDocumentByFingerprint call.request.userId call.projectId call.organizationId
        (sha256 call.request.content) = some document) :
      UploadMoved S C sha256 s call (.search id) s.store (call.moved (.adopting again document))
  | missing {id : Uuid} (hstage : call.stage = .searching true) :
      UploadMoved S C sha256 s call (.search id) s.store (call.moved (.compensating (.raised .integrity)))
  | placed {id : Uuid} (hstage : call.stage = .searching false)
      (hnew : s.isNew call.request.userId id = true) :
      UploadMoved S C sha256 s call (.search id) s.store { call with
        documentId := some id
        storagePath := some (buildDocumentObjectKey call.request.userId id)
        stage := .storing }
  | adopted {jobId : Uuid} {now : DateTime} {again : Bool} {document : RagDocument}
      {job : RagIngestionJob} {J : IngestionJobTable} (hstage : call.stage = .adopting again document) :
      UploadMoved S C sha256 s call (.adopt jobId now) { s.store with jobs := J }
        (call.moved (.found again document job))
  | unadopted {jobId : Uuid} {now : DateTime} {again : Bool} {document : RagDocument} {call' : UploadCall}
      (hstage : call.stage = .adopting again document) (hraise : call.raise .integrity = some call') :
      UploadMoved S C sha256 s call (.adopt jobId now) s.store call'
  | gaveBack {again : Bool} {document : RagDocument} {job : RagIngestionJob}
      (hstage : call.stage = .found again document job) :
      UploadMoved S C sha256 s call .giveBack s.store (call.moved
        (if again then .compensating (.returned ⟨document, job, true⟩)
          else .ended (.returned ⟨document, job, true⟩)))
  | sent (hstage : call.stage = .storing) (hidle : call.thread = .idle) (hconf : C.isConfigured = true) :
      UploadMoved S C sha256 s call .send s.store { call with thread := .running }
  | landed {key : String} (hkey : call.objectKey = some key) (hrunning : call.thread = .running) :
      UploadMoved S C sha256 s call .land (s.store.put key) { call with thread := .stored }
  | stored (hstage : call.stage = .storing) (hthread : call.thread = .stored) :
      UploadMoved S C sha256 s call .stored s.store
        { call with storagePath := call.objectKey, stage := .inserting }
  | unstored (hstage : call.stage = .storing) (hidle : call.thread = .idle) :
      UploadMoved S C sha256 s call .stored s.store { call with storagePath := none, stage := .inserting }
  | inserted {id : Uuid} {now : DateTime} (hstage : call.stage = .inserting)
      (hid : call.documentId = some id) :
      UploadMoved S C sha256 s call (.insert now) s.store
        (call.moved (.creatingJob (Uploads.createDocument sha256 call id now)))
  | collided {now : DateTime} (hstage : call.stage = .inserting) :
      UploadMoved S C sha256 s call (.insert now) s.store (call.moved (.rollingBack none .integrity))
  | jobCreated {jobId : Uuid} {now : DateTime} {document : RagDocument} {job : RagIngestionJob}
      (hstage : call.stage = .creatingJob document) :
      UploadMoved S C sha256 s call (.createJob jobId now) s.store (call.moved (.enqueuing document job))
  | enqueued {eventId : Uuid} {now : DateTime} {document : RagDocument} {job : RagIngestionJob}
      {event : Option BackgroundJobOutbox} (hstage : call.stage = .enqueuing document job) :
      UploadMoved S C sha256 s call (.enqueue eventId now) s.store
        (call.moved (.committing document job event))
  | committed {document : RagDocument} {job : RagIngestionJob} {event : Option BackgroundJobOutbox}
      {D : DocumentTable} {J : IngestionJobTable} {O : OutboxTable}
      (hstage : call.stage = .committing document job event)
      (hdoc : s.store.documents.insert document = some D) :
      UploadMoved S C sha256 s call .commit { s.store with documents := D, jobs := J, outbox := O }
        (call.moved (.acknowledging document job))
  | refused {document : RagDocument} {job : RagIngestionJob} {event : Option BackgroundJobOutbox}
      (hstage : call.stage = .committing document job event) :
      UploadMoved S C sha256 s call .commit s.store (call.moved (.rollingBack (some document) .integrity))
  | acknowledged {document : RagDocument} {job : RagIngestionJob}
      (hstage : call.stage = .acknowledging document job) :
      UploadMoved S C sha256 s call .acknowledge s.store (call.moved (.refreshing document job))
  | refreshed {document : RagDocument} {job : RagIngestionJob}
      (hstage : call.stage = .refreshing document job) :
      UploadMoved S C sha256 s call .refresh s.store
        (call.moved (.ended (.returned ⟨document, job, false⟩)))
  | rolledBack {pending : Option RagDocument} {error : UploadError}
      (hstage : call.stage = .rollingBack pending error) :
      UploadMoved S C sha256 s call .rollback s.store (call.moved (UploadStage.handle error))
  | compensated {outcome : UploadOutcome} {path : String} (hstage : call.stage = .compensating outcome)
      (hpath : given call.storagePath = some path) (hconf : C.isConfigured = true) :
      UploadMoved S C sha256 s call .compensate (s.store.compensate path)
        (call.moved (.compensated outcome))
  | spared {outcome : UploadOutcome} (hstage : call.stage = .compensating outcome)
      (hnone : given call.storagePath = none ∨ C.isConfigured = false) :
      UploadMoved S C sha256 s call .compensate s.store (call.moved (.compensated outcome))
  | finished {outcome : UploadOutcome} (hstage : call.stage = .compensated outcome) :
      UploadMoved S C sha256 s call .finish s.store (call.moved (.ended outcome))
  | raised {error : UploadError} {call' : UploadCall} (hraise : call.raise error = some call') :
      UploadMoved S C sha256 s call (.raise error) s.store call'

section Steps

variable {S : Settings} {C : UploadConfig} {sha256 : List UInt8 → String} {s : Uploads}
  {call call' : UploadCall} {store : UploadStore} {a : UploadMove} {now : DateTime}

namespace Uploads

theorem scan_sound {verdict : ScanVerdict} (h : scan C s call verdict = some (store, call')) :
    UploadMoved S C sha256 s call (.scan verdict) store call' := by
  rw [scan] at h
  split at h
  · next hstage _ =>
    obtain ⟨rfl, rfl⟩ := Prod.mk.inj (Option.some.inj h)
    exact .scanned hstage
  · next hstage _ =>
    obtain ⟨rfl, rfl⟩ := Prod.mk.inj (Option.some.inj h)
    exact .rejected hstage
  · exact nomatch h

theorem search_sound {id : Uuid} (h : search sha256 s call id = some (store, call')) :
    UploadMoved S C sha256 s call (.search id) store call' := by
  rw [search] at h
  split at h
  · next again hstage =>
    split at h
    · next document hdoc =>
      split at h
      · obtain ⟨rfl, rfl⟩ := Prod.mk.inj (Option.some.inj h)
        exact .found hstage hdoc
      · obtain ⟨rfl, rfl⟩ := Prod.mk.inj (Option.some.inj h)
        exact .jobless hstage hdoc
    · split at h
      · next hagain =>
        obtain ⟨rfl, rfl⟩ := Prod.mk.inj (Option.some.inj h)
        exact .missing (hagain ▸ hstage)
      · next hagain =>
        split at h
        · next hnew =>
          obtain ⟨rfl, rfl⟩ := Prod.mk.inj (Option.some.inj h)
          exact .placed (Bool.eq_false_of_not_eq_true hagain ▸ hstage) hnew
        · exact nomatch h
  · exact nomatch h

theorem adopt_sound {jobId : Uuid} (h : adopt S s call jobId now = some (store, call')) :
    UploadMoved S C sha256 s call (.adopt jobId now) store call' := by
  rw [adopt] at h
  split at h
  · next again document hstage =>
    dsimp only at h
    split at h
    · obtain ⟨rfl, rfl⟩ := Prod.mk.inj (Option.some.inj h)
      exact .adopted hstage
    · obtain ⟨call'', hraise, heq⟩ := Option.map_eq_some_iff.1 h
      obtain ⟨rfl, rfl⟩ := Prod.mk.inj heq
      exact .unadopted hstage hraise
  · exact nomatch h

theorem stored_sound (h : stored C s call = some (store, call')) :
    UploadMoved S C sha256 s call .stored store call' := by
  rw [stored] at h
  split at h
  · next hstage =>
    split at h
    · split at h
      · next hthread =>
        obtain ⟨rfl, rfl⟩ := Prod.mk.inj (Option.some.inj h)
        exact .stored hstage hthread
      · exact nomatch h
    · split at h
      · next hidle =>
        obtain ⟨rfl, rfl⟩ := Prod.mk.inj (Option.some.inj h)
        exact .unstored hstage hidle
      · exact nomatch h
  · exact nomatch h

theorem insert_sound (h : insert sha256 s call now = some (store, call')) :
    UploadMoved S C sha256 s call (.insert now) store call' := by
  rw [insert] at h
  split at h
  · next id hstage hid =>
    dsimp only at h
    split at h
    · exact nomatch h
    · split at h
      · obtain ⟨rfl, rfl⟩ := Prod.mk.inj (Option.some.inj h)
        exact .inserted hstage hid
      · obtain ⟨rfl, rfl⟩ := Prod.mk.inj (Option.some.inj h)
        exact .collided hstage
  · exact nomatch h

theorem commit_sound (h : s.commit call = some (store, call')) :
    UploadMoved S C sha256 s call .commit store call' := by
  rw [commit] at h
  split at h
  · next document job event hstage =>
    split at h
    · next store' hcommit =>
      obtain ⟨rfl, rfl⟩ := Prod.mk.inj (Option.some.inj h)
      rw [UploadStore.commit] at hcommit
      split at hcommit
      · next hdoc _ _ =>
        obtain rfl := Option.some.inj hcommit
        exact .committed hstage hdoc
      · exact nomatch hcommit
    · obtain ⟨rfl, rfl⟩ := Prod.mk.inj (Option.some.inj h)
      exact .refused hstage
  · exact nomatch h

theorem compensate_sound (h : compensate C s call = some (store, call')) :
    UploadMoved S C sha256 s call .compensate store call' := by
  rw [compensate] at h
  split at h
  · next outcome hstage =>
    split at h
    · next path hpath =>
      obtain ⟨hstore, rfl⟩ := Prod.mk.inj (Option.some.inj h)
      split at hstore
      · next hconf => exact hstore ▸ .compensated hstage hpath hconf
      · next hconf => exact hstore ▸ .spared hstage (.inr (Bool.eq_false_of_not_eq_true hconf))
    · next hpath =>
      obtain ⟨rfl, rfl⟩ := Prod.mk.inj (Option.some.inj h)
      exact .spared hstage (.inl hpath)
  · exact nomatch h

theorem land_sound (h : s.land call = some (store, call')) :
    UploadMoved S C sha256 s call .land store call' := by
  rw [land] at h
  split at h
  · next key hkey =>
    split at h
    · next hrunning =>
      obtain ⟨rfl, rfl⟩ := Prod.mk.inj (Option.some.inj h)
      exact .landed hkey hrunning
    · exact nomatch h
  · exact nomatch h

theorem move_sound (h : move S C sha256 s call a = some (store, call')) :
    UploadMoved S C sha256 s call a store call' := by
  cases a with
  | scan verdict => exact scan_sound h
  | search id => exact search_sound h
  | adopt jobId now => exact adopt_sound h
  | stored => exact stored_sound h
  | insert now => exact insert_sound h
  | commit => exact commit_sound h
  | compensate => exact compensate_sound h
  | land => exact land_sound h
  | resolve projectId organizationId =>
    rw [move, resolve] at h
    split at h
    · next hstage =>
      obtain ⟨rfl, rfl⟩ := Prod.mk.inj (Option.some.inj h)
      exact .resolved hstage
    · exact nomatch h
  | send =>
    rw [move, send] at h
    split at h
    · next hsend =>
      obtain ⟨rfl, rfl⟩ := Prod.mk.inj (Option.some.inj h)
      exact .sent hsend.1 hsend.2.1 hsend.2.2
    · exact nomatch h
  | giveBack =>
    rw [move, giveBack] at h
    split at h
    · next hstage =>
      obtain ⟨rfl, rfl⟩ := Prod.mk.inj (Option.some.inj h)
      exact .gaveBack hstage
    · exact nomatch h
  | createJob jobId now =>
    rw [move, createJob] at h
    split at h
    · next hstage =>
      obtain ⟨rfl, rfl⟩ := Prod.mk.inj (Option.some.inj h)
      exact .jobCreated hstage
    · exact nomatch h
  | enqueue eventId now =>
    rw [move, enqueue] at h
    split at h
    · next hstage =>
      obtain ⟨rfl, rfl⟩ := Prod.mk.inj (Option.some.inj h)
      exact .enqueued hstage
    · exact nomatch h
  | acknowledge =>
    rw [move, acknowledge] at h
    split at h
    · next hstage =>
      obtain ⟨rfl, rfl⟩ := Prod.mk.inj (Option.some.inj h)
      exact .acknowledged hstage
    · exact nomatch h
  | refresh =>
    rw [move, refresh] at h
    split at h
    · next hstage =>
      obtain ⟨rfl, rfl⟩ := Prod.mk.inj (Option.some.inj h)
      exact .refreshed hstage
    · exact nomatch h
  | rollback =>
    rw [move, rollback] at h
    split at h
    · next hstage =>
      obtain ⟨rfl, rfl⟩ := Prod.mk.inj (Option.some.inj h)
      exact .rolledBack hstage
    · exact nomatch h
  | finish =>
    rw [move, finish] at h
    split at h
    · next hstage =>
      obtain ⟨rfl, rfl⟩ := Prod.mk.inj (Option.some.inj h)
      exact .finished hstage
    · exact nomatch h
  | raise error =>
    obtain ⟨call'', hraise, heq⟩ := Option.map_eq_some_iff.1 h
    obtain ⟨rfl, rfl⟩ := Prod.mk.inj heq
    exact .raised hraise

end Uploads

/-- A step begins a call or moves one. -/
theorem upload_step {b : UploadAction} {t : Uploads} (h : uploadStep S C sha256 s b = some t) :
    (∃ request, b = .start request ∧ t = { s with calls := s.calls ++ [Uploads.begun C request] }) ∨
    ∃ k a call store call', b = .move k a ∧ s.calls[k]? = some call ∧
      UploadMoved S C sha256 s call a store call' ∧ t = ⟨store, s.calls.set k call'⟩ := by
  cases b with
  | start request => exact .inl ⟨request, rfl, (Option.some.inj h).symm⟩
  | move k a =>
    obtain ⟨call, hcall, hmap⟩ := Option.bind_eq_some_iff.1 h
    obtain ⟨⟨store, call'⟩, hmove, rfl⟩ := Option.map_eq_some_iff.1 hmap
    exact .inr ⟨k, a, call, store, call', rfl, hcall, Uploads.move_sound hmove, rfl⟩

/-! ### Handlers -/

namespace UploadStage

/-- The stages that an exception leads to. -/
def isHandling : UploadStage → Bool
  | rollingBack _ _ | searching true | compensating _ | compensated _ | ended _ => true
  | scanning | resolving | searching false | adopting _ _ | found _ _ _ | storing | inserting
  | creatingJob _ | enqueuing _ _ | committing _ _ _ | acknowledging _ _ | refreshing _ _ => false

theorem isHandling_handle (error : UploadError) : (handle error).isHandling = true := by
  cases error with
  | http _ | integrity | other | cancelled => rfl

theorem isHandling_caught (pending : Option RagDocument) (error : UploadError) :
    (caught pending error).isHandling = true := by
  cases error with
  | http _ | integrity | other | cancelled => rfl

theorem isHandling_of_raise {error : UploadError} {stage stage' : UploadStage}
    (h : stage.raise error = some stage') : stage'.isHandling = true := by
  cases stage with
  | ended _ => exact nomatch h
  | scanning | resolving | refreshing _ _ =>
    obtain rfl := Option.some.inj h
    rfl
  | searching again | adopting again _ | found again _ _ =>
    cases again with
    | false | true =>
      obtain rfl := Option.some.inj h
      rfl
  | storing | inserting | acknowledging _ _ | creatingJob _ | enqueuing _ _ | committing _ _ _ =>
    obtain rfl := Option.some.inj h
    exact isHandling_caught _ _
  | rollingBack _ error' =>
    obtain rfl := Option.some.inj h
    split
    · rfl
    · exact isHandling_handle error'
  | compensating _ =>
    rw [raise] at h
    split at h
    · obtain rfl := Option.some.inj h
      rfl
    · exact nomatch h
  | compensated _ =>
    obtain rfl := Option.some.inj h
    rfl

end UploadStage

/-! ### The object of a call -/

/-- Only the object with that key, and documents that refer to no other, are touched. -/
structure UploadStore.Touched (key : Option String) (store store' : UploadStore) : Prop where
  kept : ∀ document ∈ store.documents.rows, document ∈ store'.documents.rows
  new : ∀ document ∈ store'.documents.rows,
    document ∈ store.documents.rows ∨ ∀ path ∈ document.storagePath, key = some path
  objects : ∀ other, key ≠ some other → (other ∈ store'.objects ↔ other ∈ store.objects)
  deleted : ∀ other, key ≠ some other → (other ∈ store'.deleted ↔ other ∈ store.deleted)

theorem UploadStore.Touched.of_documents {key : Option String} {store' : UploadStore}
    (hdocs : store'.documents = store.documents) (hobjects : store'.objects = store.objects)
    (hdeleted : store'.deleted = store.deleted) : store.Touched key store' where
  kept document hdoc := hdocs ▸ hdoc
  new document hdoc := .inl (hdocs ▸ hdoc)
  objects other _ := by rw [hobjects]
  deleted other _ := by rw [hdeleted]

/-- No document refers to the object. -/
def UploadStore.Unreferred (store : UploadStore) (key : String) : Prop :=
  ∀ document ∈ store.documents.rows, document.storagePath ≠ some key

namespace UploadCall

/-- The local variables: the path of a call is its key, its object is sent under this key, and no other
object has it. -/
structure Tidy (C : UploadConfig) (store : UploadStore) (call : UploadCall) : Prop where
  path : ∀ path ∈ call.storagePath, call.objectKey = some path
  sent : call.thread ≠ .idle → C.isConfigured = true ∧ call.storagePath = call.objectKey
  running : call.thread = .running → call.stage = .storing
  object : ∀ key ∈ call.objectKey, key ∈ store.objects → call.thread = .stored

/-- The call has no identifier, and has sent nothing. -/
def Blank (call : UploadCall) : Prop := call.documentId = none ∧ call.thread = .idle

/-- No document refers to the object of the call, and nobody has deleted it. -/
def Open (store : UploadStore) (call : UploadCall) : Prop :=
  ∀ key ∈ call.objectKey, store.Unreferred key ∧ key ∉ store.deleted

/-- A document of the call refers to its object if there is one, and nobody has deleted it. -/
def Committed (store : UploadStore) (call : UploadCall) : Prop :=
  ∀ key ∈ call.objectKey, key ∉ store.deleted ∧ (call.thread = .idle → store.Unreferred key) ∧
    (call.thread ≠ .idle → ∃ document ∈ store.documents.rows, some document.id = call.documentId ∧
      document.storagePath = some key)

/-- A document of the call refers to its object, if it is there. -/
def Over (store : UploadStore) (call : UploadCall) : Prop :=
  ∀ key ∈ call.objectKey, key ∈ store.objects →
    ∃ document ∈ store.documents.rows, some document.id = call.documentId ∧
      document.storagePath = some key

/-- The document is live and has the content in the scope. -/
def Wants (sha256 : List UInt8 → String) (call : UploadCall) (document : RagDocument) : Prop :=
  document.isLiveIn call.request.userId call.projectId call.organizationId
    (sha256 call.request.content) = true

/-- The document is there, and is one that the call is to return. -/
def Has (sha256 : List UInt8 → String) (store : UploadStore) (call : UploadCall)
    (document : RagDocument) : Prop :=
  document ∈ store.documents.rows ∧ call.Wants sha256 document

/-- The document is the one that the call is about to commit. -/
def Writes (sha256 : List UInt8 → String) (call : UploadCall) (document : RagDocument) : Prop :=
  call.Wants sha256 document ∧ some document.id = call.documentId ∧
    document.storagePath = call.storagePath

/-- What a call that returns has. -/
def Answers (sha256 : List UInt8 → String) (store : UploadStore) (call : UploadCall) :
    UploadOutcome → Prop
  | .returned result => call.Has sha256 store result.document
  | .raised _ => True

/-- What is known of a call at a stage. -/
def Stands (sha256 : List UInt8 → String) (store : UploadStore) (call : UploadCall) : UploadStage → Prop
  | .scanning | .resolving | .searching false => call.Blank
  | .adopting false document | .found false document _ => call.Blank ∧ call.Has sha256 store document
  | .storing => call.Open store ∧ call.storagePath = call.objectKey
  | .rollingBack _ _ | .searching true => call.Open store
  | .inserting => call.Open store ∧ (call.thread = .idle → call.storagePath = none)
  | .creatingJob document | .enqueuing document _ | .committing document _ _ =>
    call.Open store ∧ (call.thread = .idle → call.storagePath = none) ∧ call.Writes sha256 document
  | .acknowledging document _ | .refreshing document _ =>
    call.Committed store ∧ call.Has sha256 store document
  | .adopting true document | .found true document _ => call.Open store ∧ call.Has sha256 store document
  | .compensating outcome => call.Open store ∧ call.Answers sha256 store outcome
  | .compensated outcome | .ended outcome => call.Over store ∧ call.Answers sha256 store outcome

variable {key : Option String} {store' : UploadStore} {document : RagDocument} {outcome : UploadOutcome}
  {stage : UploadStage}

/-! ### What other calls leave -/

/-- The other call has another object. -/
def Apart (call : UploadCall) (key : Option String) : Prop := ∀ own ∈ call.objectKey, key ≠ some own

theorem Tidy.elsewhere (h : call.Tidy C store) (ht : store.Touched key store') (hapart : call.Apart key) :
    call.Tidy C store' where
  path := h.path
  sent := h.sent
  running := h.running
  object own hown hmem := h.object own hown ((ht.objects own (hapart own hown)).1 hmem)

/-- Nobody comes to refer to the object of a call but the call. -/
theorem unreferred_elsewhere (ht : store.Touched key store') {own : String} (hne : key ≠ some own)
    (h : store.Unreferred own) : store'.Unreferred own := by
  intro document hdoc hpath
  rcases ht.new document hdoc with hold | hnew
  · exact h document hold hpath
  · exact hne (hnew own hpath)

theorem Open.elsewhere (h : call.Open store) (ht : store.Touched key store') (hapart : call.Apart key) :
    call.Open store' := by
  intro own hown
  have hne := hapart own hown
  exact ⟨unreferred_elsewhere ht hne (h own hown).1, fun hmem ↦ (h own hown).2 ((ht.deleted own hne).1 hmem)⟩

theorem Committed.elsewhere (h : call.Committed store) (ht : store.Touched key store')
    (hapart : call.Apart key) : call.Committed store' := by
  intro own hown
  have hne := hapart own hown
  obtain ⟨hdeleted, hidle, hsent⟩ := h own hown
  refine ⟨fun hmem ↦ hdeleted ((ht.deleted own hne).1 hmem),
    fun hthread ↦ unreferred_elsewhere ht hne (hidle hthread), fun hthread ↦ ?_⟩
  obtain ⟨document, hdoc, hid⟩ := hsent hthread
  exact ⟨document, ht.kept document hdoc, hid⟩

theorem Over.elsewhere (h : call.Over store) (ht : store.Touched key store') (hapart : call.Apart key) :
    call.Over store' := by
  intro own hown hmem
  obtain ⟨document, hdoc, hid⟩ := h own hown ((ht.objects own (hapart own hown)).1 hmem)
  exact ⟨document, ht.kept document hdoc, hid⟩

theorem Has.elsewhere (h : call.Has sha256 store document) (ht : store.Touched key store') :
    call.Has sha256 store' document :=
  ⟨ht.kept document h.1, h.2⟩

theorem Answers.elsewhere (h : call.Answers sha256 store outcome) (ht : store.Touched key store') :
    call.Answers sha256 store' outcome := by
  cases outcome with
  | returned result => exact Has.elsewhere h ht
  | raised error => trivial

/-- **What is known of a call does not depend on the others.** -/
theorem Stands.elsewhere (h : call.Stands sha256 store stage) (ht : store.Touched key store')
    (hapart : call.Apart key) : call.Stands sha256 store' stage := by
  match stage, h with
  | .scanning, h | .resolving, h | .searching false, h => exact h
  | .adopting false _, h | .found false _ _, h => exact ⟨h.1, h.2.elsewhere ht⟩
  | .storing, h => exact ⟨h.1.elsewhere ht hapart, h.2⟩
  | .rollingBack _ _, h | .searching true, h => exact Open.elsewhere h ht hapart
  | .inserting, h => exact ⟨h.1.elsewhere ht hapart, h.2⟩
  | .creatingJob _, h | .enqueuing _ _, h | .committing _ _ _, h =>
    exact ⟨h.1.elsewhere ht hapart, h.2⟩
  | .acknowledging _ _, h | .refreshing _ _, h => exact ⟨h.1.elsewhere ht hapart, h.2.elsewhere ht⟩
  | .adopting true _, h | .found true _ _, h => exact ⟨h.1.elsewhere ht hapart, h.2.elsewhere ht⟩
  | .compensating _, h => exact ⟨h.1.elsewhere ht hapart, h.2.elsewhere ht⟩
  | .compensated _, h | .ended _, h => exact ⟨h.1.elsewhere ht hapart, h.2.elsewhere ht⟩

/-! ### What exceptions do -/

/-- A call without an identifier has no object. -/
theorem Blank.over (h : call.Blank) : call.Over store := by
  intro key hkey
  rw [objectKey, h.1] at hkey
  exact nomatch hkey

/-- A call that has not sent its object has none. -/
theorem Tidy.over (h : call.Tidy C store) (hidle : call.thread = .idle) : call.Over store := by
  intro key hkey hmem
  exact nomatch hidle.symm.trans (h.object key hkey hmem)

theorem Committed.over (h : call.Committed store) (htidy : call.Tidy C store) : call.Over store := by
  intro key hkey hmem
  refine (h key hkey).2.2 fun hidle ↦ ?_
  exact nomatch hidle.symm.trans (htidy.object key hkey hmem)

/-- A document without an object leaves the key free. -/
theorem Committed.free (h : call.Committed store) (hidle : call.thread = .idle) : call.Open store :=
  fun key hkey ↦ ⟨(h key hkey).2.1 hidle, (h key hkey).1⟩

theorem stands_handle (h : call.Open store) (error : UploadError) :
    call.Stands sha256 store (UploadStage.handle error) := by
  cases error with
  | integrity => exact h
  | http _ | other | cancelled => exact ⟨h, trivial⟩

/-- An exception before the commit, in a call that has an object only if it has a handler for it. -/
theorem stands_caught {error : UploadError} (htidy : call.Tidy C store) (h : call.Open store)
    (hsurvives : call.thread ≠ .idle → error ≠ .cancelled) (pending : Option RagDocument) :
    call.Stands sha256 store (UploadStage.caught pending error) := by
  cases error with
  | cancelled => exact ⟨htidy.over (not_not.1 fun hne ↦ hsurvives hne rfl), trivial⟩
  | http _ | integrity | other => exact h

/-- **An exception takes a call to where it should be.** -/
theorem Stands.raise {error : UploadError} {stage' : UploadStage} (htidy : call.Tidy C store)
    (h : call.Stands sha256 store stage)
    (hsurvives : call.thread ≠ .idle → stage.survives error = true)
    (hraise : stage.raise error = some stage') : call.Stands sha256 store stage' := by
  cases stage with
  | ended _ => exact nomatch hraise
  | compensating _ =>
    rw [UploadStage.raise] at hraise
    split at hraise
    · next hcancelled =>
      obtain rfl := Option.some.inj hraise
      have hidle := not_not.1 fun hne ↦ of_decide_eq_true (hsurvives hne) hcancelled
      exact ⟨htidy.over hidle, trivial⟩
    · exact nomatch hraise
  | scanning | resolving =>
    obtain rfl := Option.some.inj hraise
    exact ⟨Blank.over h, trivial⟩
  | refreshing _ _ =>
    obtain rfl := Option.some.inj hraise
    exact ⟨h.1.over htidy, trivial⟩
  | searching again =>
    cases again with
    | false =>
      obtain rfl := Option.some.inj hraise
      exact ⟨Blank.over h, trivial⟩
    | true =>
      obtain rfl := Option.some.inj hraise
      exact ⟨h, trivial⟩
  | adopting again _ | found again _ _ =>
    cases again with
    | false =>
      obtain rfl := Option.some.inj hraise
      exact ⟨h.1.over, trivial⟩
    | true =>
      obtain rfl := Option.some.inj hraise
      exact ⟨h.1, trivial⟩
  | storing =>
    obtain rfl := Option.some.inj hraise
    exact stands_caught htidy h.1 (fun hne ↦ of_decide_eq_true (hsurvives hne)) none
  | inserting =>
    obtain rfl := Option.some.inj hraise
    exact stands_caught htidy h.1 (fun hne ↦ of_decide_eq_true (hsurvives hne)) none
  | creatingJob document | enqueuing document _ | committing document _ _ =>
    obtain rfl := Option.some.inj hraise
    exact stands_caught htidy h.1 (fun hne ↦ of_decide_eq_true (hsurvives hne)) (some document)
  | acknowledging _ _ =>
    obtain rfl := Option.some.inj hraise
    -- Only a cancellation reaches a call whose document refers to an object.
    cases error with
    | cancelled => exact ⟨h.1.over htidy, trivial⟩
    | http _ | integrity | other =>
      exact h.1.free (not_not.1 fun hne ↦ nomatch hsurvives hne)
  | rollingBack _ error' =>
    obtain rfl := Option.some.inj hraise
    split
    · next hcancelled =>
      have hidle := not_not.1 fun hne ↦ of_decide_eq_true (hsurvives hne) hcancelled
      exact ⟨htidy.over hidle, trivial⟩
    · exact stands_handle h error'
  | compensated _ =>
    obtain rfl := Option.some.inj hraise
    split
    · exact ⟨h.1, trivial⟩
    · exact h

theorem Tidy.moved (h : call.Tidy C store) (hne : call.stage ≠ .storing) (stage : UploadStage) :
    (call.moved stage).Tidy C store where
  path := h.path
  sent := h.sent
  running hrunning := absurd (h.running hrunning) hne
  object := h.object

theorem Tidy.of_objects (h : call.Tidy C store) (hobjects : ∀ key ∈ store'.objects, key ∈ store.objects) :
    call.Tidy C store' where
  path := h.path
  sent := h.sent
  running := h.running
  object key hkey hmem := h.object key hkey (hobjects key hmem)

theorem Tidy.raise {error : UploadError} (h : call.Tidy C store)
    (hsurvives : call.thread ≠ .idle → call.stage.survives error = true)
    (hraise : call.raise error = some call') : call'.Tidy C store := by
  obtain ⟨stage', hstage', rfl⟩ := Option.map_eq_some_iff.1 hraise
  refine ⟨h.path, fun hsent ↦ h.sent fun hidle ↦ hsent ?_, fun hrunning ↦ ?_, fun key hkey hmem ↦ ?_⟩
  · show (if _ then _ else _) = _
    rw [hidle]
    rfl
  · -- A thread that still runs belongs to a call that was cancelled while it awaited it.
    change (if _ then _ else _) = UploadThread.running at hrunning
    split at hrunning
    · exact nomatch hrunning
    · next hnot =>
      have hcancelled : error = .cancelled := not_not.1 fun hne ↦ hnot ⟨hrunning, hne⟩
      have hsafe := hsurvives (by rw [hrunning]; nofun)
      rw [h.running hrunning, hcancelled] at hsafe
      exact nomatch hsafe
  · have hstored := h.object key hkey hmem
    show (if _ then _ else _) = _
    rw [hstored]
    rfl

/-- Once an exception is handled, it does not matter how far the thread has come. -/
theorem Stands.of_isHandling {stage' : UploadStage} {thread : UploadThread}
    (h : call.Stands sha256 store stage) (hhandling : stage.isHandling = true) :
    ({ call with stage := stage', thread := thread } : UploadCall).Stands sha256 store stage := by
  cases stage with
  | rollingBack _ _ => exact h
  | searching again =>
    cases again with
    | false => exact nomatch hhandling
    | true => exact h
  | compensating outcome | compensated outcome | ended outcome =>
    cases outcome with
    | returned _ | raised _ => exact h
  | scanning | resolving | adopting _ _ | found _ _ _ | storing | inserting | creatingJob _ | enqueuing _ _
  | committing _ _ _ | acknowledging _ _ | refreshing _ _ => exact nomatch hhandling

theorem Stands.of_raise {error : UploadError} (htidy : call.Tidy C store)
    (h : call.Stands sha256 store call.stage)
    (hsurvives : call.thread ≠ .idle → call.stage.survives error = true)
    (hraise : call.raise error = some call') : call'.Stands sha256 store call'.stage := by
  obtain ⟨stage', hstage', rfl⟩ := Option.map_eq_some_iff.1 hraise
  exact (h.raise htidy hsurvives hstage').of_isHandling (UploadStage.isHandling_of_raise hstage')

theorem objectKey_ne {key : String} (h : call.objectKey = some key) : key ≠ "" := by
  obtain ⟨id, -, rfl⟩ := Option.map_eq_some_iff.1 h
  exact buildDocumentObjectKey_ne call.request.userId id

/-- What `_find_duplicate` finds. -/
theorem has_of_find (h : store.findDocumentByFingerprint call.request.userId call.projectId
    call.organizationId (sha256 call.request.content) = some document) :
    call.Has sha256 store document :=
  List.mem_filter.1 (List.maxOn?_mem h)

end UploadCall

/-- A new key is of no object, of no document and of no call. -/
theorem Uploads.free_of_isNew {userId : String} {id : Uuid} (h : s.isNew userId id = true) :
    let key := buildDocumentObjectKey userId id
    (s.store.Unreferred key ∧ key ∉ s.store.deleted) ∧ key ∉ s.store.objects ∧
      ∀ call ∈ s.calls, call.objectKey ≠ some key := by
  simp only [isNew, Bool.and_eq_true, List.all_eq_true, Bool.not_eq_true', List.contains_eq_mem,
    decide_eq_true_eq, decide_eq_false_iff_not] at h
  obtain ⟨⟨⟨hdocs, hcalls⟩, hobjects⟩, hdeleted⟩ := h
  exact ⟨⟨fun document hdoc ↦ (hdocs document hdoc).2, hdeleted⟩, hobjects,
    fun call hcall ↦ (hcalls call hcall).2⟩

/-! ### What a step does -/

namespace UploadMoved

/-- **A call touches no object but its own.** -/
theorem touched (h : UploadMoved S C sha256 s call a store call') (htidy : call.Tidy C s.store)
    (hstands : call.Stands sha256 s.store call.stage) : s.store.Touched call.objectKey store := by
  cases h with
  | landed hkey _ =>
    refine ⟨fun _ h ↦ h, fun _ h ↦ .inl h, fun other hne ↦ ?_, fun _ _ ↦ Iff.rfl⟩
    show other ∈ _ :: _ ↔ _
    rw [List.mem_cons]
    exact or_iff_right fun heq ↦ hne (heq ▸ hkey)
  | committed hstage hdoc =>
    rw [hstage] at hstands
    have hrows := Table.rows_of_insert hdoc
    refine ⟨fun document h ↦ ?_, fun document h ↦ ?_, fun _ _ ↦ Iff.rfl, fun _ _ ↦ Iff.rfl⟩
    · exact hrows ▸ List.mem_append_left _ h
    · rcases List.mem_append.1 (hrows ▸ h) with h | h
      · exact .inl h
      · obtain rfl := List.mem_singleton.1 h
        exact .inr fun path hpath ↦ htidy.path path (hstands.2.2.2.2 ▸ hpath)
  | @compensated _ path _ hpath _ =>
    have hkey := htidy.path path (given_eq_some_iff.1 hpath).1
    refine ⟨fun _ h ↦ h, fun _ h ↦ .inl h, fun other hne ↦ ?_, fun other hne ↦ ?_⟩
    · have hother : other ≠ path := fun heq ↦ hne (heq ▸ hkey)
      show other ∈ List.filter _ _ ↔ _
      rw [List.mem_filter, decide_eq_true hother]
      exact and_iff_left rfl
    · show other ∈ _ :: _ ↔ _
      rw [List.mem_cons]
      exact or_iff_right fun heq ↦ hne (heq ▸ hkey)
  | _ => exact .of_documents rfl rfl rfl

/-- The local variables stay tidy. -/
theorem tidy (h : UploadMoved S C sha256 s call a store call') (htidy : call.Tidy C s.store)
    (hstands : call.Stands sha256 s.store call.stage)
    (hsurvives : ∀ error, a = .raise error → call.thread ≠ .idle → call.stage.survives error = true) :
    call'.Tidy C store := by
  cases h with
  | raised hraise => exact htidy.raise (hsurvives _ rfl) hraise
  | unadopted hstage hraise =>
    refine htidy.raise (fun _ ↦ ?_) hraise
    rw [hstage]
    rfl
  | @placed id hstage hnew =>
    rw [hstage] at hstands
    refine ⟨fun path hpath ↦ hpath, fun hsent ↦ absurd hstands.2 hsent, fun hrunning ↦ rfl,
      fun key hkey hmem ↦ ?_⟩
    obtain rfl := Option.some.inj hkey
    exact absurd hmem (Uploads.free_of_isNew hnew).2.1
  | sent hstage hidle hconf =>
    rw [hstage] at hstands
    refine ⟨htidy.path, fun _ ↦ ⟨hconf, hstands.2⟩, fun _ ↦ hstage, fun key hkey hmem ↦ ?_⟩
    exact nomatch hidle.symm.trans (htidy.object key hkey hmem)
  | landed hkey hrunning =>
    exact ⟨htidy.path, fun _ ↦ htidy.sent (by rw [hrunning]; nofun), nofun, fun _ _ _ ↦ rfl⟩
  | stored hstage hthread =>
    have hconf := (htidy.sent (by rw [hthread]; nofun)).1
    refine ⟨fun path hpath ↦ hpath, fun _ ↦ ⟨hconf, rfl⟩, fun hrunning ↦ ?_, htidy.object⟩
    exact nomatch hthread.symm.trans hrunning
  | unstored hstage hidle =>
    refine ⟨nofun, fun hsent ↦ absurd hidle hsent, fun hrunning ↦ ?_, htidy.object⟩
    exact nomatch hidle.symm.trans hrunning
  | resolved hstage =>
    refine ⟨htidy.path, htidy.sent, fun hrunning ↦ ?_, htidy.object⟩
    exact nomatch hstage.symm.trans (htidy.running hrunning)
  | compensated hstage _ _ =>
    refine (htidy.of_objects fun key hkey ↦ ?_).moved (by rw [hstage]; nofun) _
    exact (List.mem_filter.1 hkey).1
  | committed hstage _ | adopted hstage =>
    refine UploadCall.Tidy.moved (htidy.of_objects fun key hkey ↦ ?_) (by rw [hstage]; nofun) _
    exact hkey
  | scanned hstage | rejected hstage | found hstage _ | jobless hstage _ | missing hstage | gaveBack hstage
  | inserted hstage _ | collided hstage | jobCreated hstage | enqueued hstage | refused hstage
  | acknowledged hstage | refreshed hstage | rolledBack hstage | spared hstage _ | finished hstage =>
    exact htidy.moved (by rw [hstage]; nofun) _

/-- **A call is where it should be.** -/
theorem stands (h : UploadMoved S C sha256 s call a store call') (htidy : call.Tidy C s.store)
    (hstands : call.Stands sha256 s.store call.stage)
    (hsurvives : ∀ error, a = .raise error → call.thread ≠ .idle → call.stage.survives error = true) :
    call'.Stands sha256 store call'.stage := by
  cases h with
  | raised hraise => exact hstands.of_raise htidy (hsurvives _ rfl) hraise
  | unadopted hstage hraise =>
    refine hstands.of_raise htidy (fun _ ↦ ?_) hraise
    rw [hstage]
    rfl
  | landed hkey hrunning =>
    have hstage := htidy.running hrunning
    rw [hstage] at hstands ⊢
    exact hstands
  | @found id again document job hstage hdoc =>
    rw [hstage] at hstands
    have hhas := UploadCall.has_of_find hdoc
    cases again with
    | false | true => exact ⟨hstands, hhas⟩
  | @jobless id again document hstage hdoc =>
    rw [hstage] at hstands
    have hhas := UploadCall.has_of_find hdoc
    cases again with
    | false | true => exact ⟨hstands, hhas⟩
  | @adopted jobId now again document job J hstage =>
    rw [hstage] at hstands
    cases again with
    | false | true => exact hstands
  | @gaveBack again document job hstage =>
    rw [hstage] at hstands
    cases again with
    | false => exact ⟨hstands.1.over, hstands.2⟩
    | true => exact hstands
  | missing hstage =>
    rw [hstage] at hstands
    exact ⟨hstands, trivial⟩
  | @placed id hstage hnew =>
    refine ⟨fun key hkey ↦ ?_, rfl⟩
    obtain rfl := Option.some.inj hkey
    exact (Uploads.free_of_isNew hnew).1
  | sent hstage _ _ =>
    rw [hstage] at hstands
    show UploadCall.Stands _ _ _ call.stage
    rw [hstage]
    exact hstands
  | stored hstage hthread =>
    rw [hstage] at hstands
    exact ⟨hstands.1, fun hidle ↦ nomatch hthread.symm.trans hidle⟩
  | unstored hstage _ =>
    rw [hstage] at hstands
    exact ⟨hstands.1, fun _ ↦ rfl⟩
  | inserted hstage hid =>
    rw [hstage] at hstands
    refine ⟨hstands.1, hstands.2, ?_, hid.symm, rfl⟩
    simp [UploadCall.Wants, RagDocument.isLiveIn, Uploads.createDocument, UploadCall.moved]
  | collided hstage | refused hstage =>
    rw [hstage] at hstands
    exact hstands.1
  | jobCreated hstage | enqueued hstage =>
    rw [hstage] at hstands
    exact hstands
  | @committed document job event D J O hstage hdoc =>
    rw [hstage] at hstands
    obtain ⟨hopen, hpathless, hwants, hid, hpath⟩ := hstands
    have hrows := Table.rows_of_insert hdoc
    have hmem : document ∈ D.rows := hrows ▸ List.mem_append_right _ (List.mem_singleton_self _)
    refine ⟨fun key hkey ↦ ⟨(hopen key hkey).2, fun hidle row hrow ↦ ?_, fun hsent ↦ ?_⟩, hmem, hwants⟩
    · rcases List.mem_append.1 (hrows ▸ hrow) with hold | hnew
      · exact (hopen key hkey).1 row hold
      · obtain rfl := List.mem_singleton.1 hnew
        rw [hpath, hpathless hidle]
        exact nofun
    · exact ⟨document, hmem, hid, hpath.trans ((htidy.sent hsent).2.trans hkey)⟩
  | acknowledged hstage =>
    rw [hstage] at hstands
    exact hstands
  | refreshed hstage =>
    rw [hstage] at hstands
    exact ⟨hstands.1.over htidy, hstands.2⟩
  | rolledBack hstage =>
    rw [hstage] at hstands
    exact UploadCall.stands_handle hstands _
  | @compensated outcome path hstage hpath hconf =>
    rw [hstage] at hstands
    refine ⟨fun key hkey hmem ↦ ?_, hstands.2⟩
    obtain ⟨hmem, hne⟩ := List.mem_filter.1 hmem
    have hstored := htidy.object key hkey hmem
    have hkey' := (htidy.sent (by rw [hstored]; nofun)).2.trans hkey
    exact absurd (Option.some.inj (hkey'.symm.trans (given_eq_some_iff.1 hpath).1)) (of_decide_eq_true hne)
  | spared hstage hnone =>
    rw [hstage] at hstands
    refine ⟨fun key hkey hmem ↦ ?_, hstands.2⟩
    have hstored := htidy.object key hkey hmem
    obtain ⟨hconf, hpath⟩ := htidy.sent (by rw [hstored]; nofun)
    rcases hnone with hnone | hconf'
    · exact nomatch hnone.symm.trans
        (given_eq_some_iff.2 ⟨hpath.trans hkey, UploadCall.objectKey_ne hkey⟩)
    · exact nomatch hconf.symm.trans hconf'
  | finished hstage =>
    rw [hstage] at hstands
    exact hstands
  | scanned hstage | resolved hstage =>
    rw [hstage] at hstands
    exact hstands
  | rejected hstage =>
    rw [hstage] at hstands
    exact ⟨UploadCall.Blank.over hstands, trivial⟩

/-- A call keeps its key, or gets one that no other has. -/
theorem objectKey_step (h : UploadMoved S C sha256 s call a store call') :
    call'.objectKey = call.objectKey ∨
      ∀ key ∈ call'.objectKey, ∀ other ∈ s.calls, other.objectKey ≠ some key := by
  cases h with
  | @placed id _ hnew =>
    refine .inr fun key hkey ↦ ?_
    obtain rfl := Option.some.inj hkey
    exact (Uploads.free_of_isNew hnew).2.2
  | raised hraise | unadopted _ hraise =>
    obtain ⟨stage', -, rfl⟩ := Option.map_eq_some_iff.1 hraise
    exact .inl rfl
  | _ => exact .inl rfl

/-- **No document loses its object.** -/
theorem unlost (h : UploadMoved S C sha256 s call a store call') (htidy : call.Tidy C s.store)
    (hstands : call.Stands sha256 s.store call.stage)
    (hunlost : ∀ document ∈ s.store.documents.rows, ∀ key ∈ document.storagePath, key ∉ s.store.deleted) :
    ∀ document ∈ store.documents.rows, ∀ key ∈ document.storagePath, key ∉ store.deleted := by
  cases h with
  | committed hstage hdoc =>
    rw [hstage] at hstands
    obtain ⟨hopen, -, -, -, hpath⟩ := hstands
    intro row hrow key hkey
    rcases List.mem_append.1 (Table.rows_of_insert hdoc ▸ hrow) with hold | hnew
    · exact hunlost row hold key hkey
    · obtain rfl := List.mem_singleton.1 hnew
      exact (hopen key (htidy.path key (hpath ▸ hkey))).2
  | compensated hstage hpath _ =>
    rw [hstage] at hstands
    intro row hrow key hkey hmem
    rcases List.mem_cons.1 hmem with rfl | hold
    · have hown := htidy.path _ (given_eq_some_iff.1 hpath).1
      exact (hstands.1 _ hown).1 row hrow hkey
    · exact hunlost row hrow key hkey hold
  | _ => exact hunlost

end UploadMoved

/-! ### Runs -/

namespace Uploads

/-- What is known of the calls: their keys differ, each is where it should be, and no document has lost
its object. -/
structure Sound (C : UploadConfig) (sha256 : List UInt8 → String) (s : Uploads) : Prop where
  apart : ∀ (i j : ℕ) call other, i ≠ j → s.calls[i]? = some call → s.calls[j]? = some other →
    call.Apart other.objectKey
  unlost : ∀ document ∈ s.store.documents.rows, ∀ key ∈ document.storagePath, key ∉ s.store.deleted
  tidy : ∀ (k : ℕ) call, s.calls[k]? = some call → call.Tidy C s.store
  stands : ∀ (k : ℕ) call, s.calls[k]? = some call → call.Stands sha256 s.store call.stage

theorem sound_initial (h : (uploadMachine S C sha256).init s) : s.Sound C sha256 where
  apart i _ _ _ _ hcall _ := by
    rw [h.1] at hcall
    exact nomatch hcall
  unlost _ _ key _ hmem := by
    rw [h.2] at hmem
    exact nomatch hmem
  tidy k _ hcall := by
    rw [h.1] at hcall
    exact nomatch hcall
  stands k _ hcall := by
    rw [h.1] at hcall
    exact nomatch hcall

theorem tidy_begun (request : UploadRequest) : (begun C request).Tidy C store where
  path := nofun
  sent hsent := absurd rfl hsent
  running := nofun
  object := nofun

theorem stands_begun (request : UploadRequest) :
    (begun C request).Stands sha256 store (begun C request).stage := by
  have hblank : (begun C request).Blank := ⟨rfl, rfl⟩
  generalize hstage : (begun C request).stage = stage
  rw [begun] at hstage
  dsimp only at hstage
  split at hstage
  · obtain rfl := hstage
    exact hblank
  · obtain rfl := hstage
    exact ⟨hblank.over, trivial⟩

/-- A new call changes nothing for the others. -/
theorem Sound.start (hs : s.Sound C sha256) (request : UploadRequest) :
    ({ s with calls := s.calls ++ [begun C request] } : Uploads).Sound C sha256 where
  apart i j call other hne hcall hother := by
    rcases slot_of_append hcall with ⟨hi, rfl⟩ | ⟨-, hold⟩
    · exact nofun
    · rcases slot_of_append hother with ⟨-, rfl⟩ | ⟨-, hold'⟩
      · exact fun _ _ ↦ nofun
      · exact hs.apart i j call other hne hold hold'
  unlost := hs.unlost
  tidy k call hcall := by
    rcases slot_of_append hcall with ⟨-, rfl⟩ | ⟨-, hold⟩
    · exact tidy_begun request
    · exact hs.tidy k call hold
  stands k call hcall := by
    rcases slot_of_append hcall with ⟨-, rfl⟩ | ⟨-, hold⟩
    · exact stands_begun request
    · exact hs.stands k call hold

/-- **The step lemma.** -/
theorem Sound.move (hs : s.Sound C sha256) {k : ℕ} (hcall : s.calls[k]? = some call)
    (h : UploadMoved S C sha256 s call a store call')
    (hsurvives : ∀ error, a = .raise error → call.thread ≠ .idle → call.stage.survives error = true) :
    (⟨store, s.calls.set k call'⟩ : Uploads).Sound C sha256 := by
  have htidy := hs.tidy k call hcall
  have hstands := hs.stands k call hcall
  have htouched := h.touched htidy hstands
  -- The keys of the others are not the call's, before the step or after it.
  have hkeys : ∀ (j : ℕ) other, j ≠ k → s.calls[j]? = some other →
      other.Apart call.objectKey ∧ other.Apart call'.objectKey := by
    intro j other hne hother
    have hapart := hs.apart j k other call hne hother hcall
    refine ⟨hapart, ?_⟩
    rcases h.objectKey_step with hsame | hnew
    · rwa [hsame]
    · exact fun own hown heq ↦ hnew own heq other (List.mem_of_getElem? hother) hown
  refine ⟨fun i j one other hne hone hother ↦ ?_, h.unlost htidy hstands hs.unlost, fun j one hone ↦ ?_,
    fun j one hone ↦ ?_⟩
  · rcases slot_of_set hone with ⟨rfl, rfl⟩ | ⟨hi, hold⟩
    · rcases slot_of_set hother with ⟨rfl, -⟩ | ⟨hj, hold'⟩
      · exact absurd rfl hne
      · exact fun own hown heq ↦ (hkeys j other hj hold').2 own heq hown
    · rcases slot_of_set hother with ⟨rfl, rfl⟩ | ⟨hj, hold'⟩
      · exact (hkeys i one hi hold).2
      · exact hs.apart i j one other hne hold hold'
  · rcases slot_of_set hone with ⟨rfl, rfl⟩ | ⟨hj, hold⟩
    · exact h.tidy htidy hstands hsurvives
    · exact (hs.tidy j one hold).elsewhere htouched (hkeys j one hj hold).1
  · rcases slot_of_set hone with ⟨rfl, rfl⟩ | ⟨hj, hold⟩
    · exact h.stands htidy hstands hsurvives
    · exact (hs.stands j one hold).elsewhere htouched (hkeys j one hj hold).1

theorem Sound.step {b : UploadAction} {t : Uploads} (hs : s.Sound C sha256) (hC : KeepsAtomic s b)
    (h : uploadStep S C sha256 s b = some t) : t.Sound C sha256 := by
  rcases upload_step h with ⟨request, rfl, rfl⟩ | ⟨k, a, call, store, call', rfl, hcall, hmove, rfl⟩
  · exact hs.start request
  · refine hs.move hcall hmove fun error ha hsent ↦ ?_
    subst ha
    exact hC call hcall hsent

/-- The index keeps live documents apart. -/
theorem oneLive (s : Uploads) : s.OneLive := by
  intro userId projectId organizationId fingerprint
  let p : Uuid × Option LiveScope → Bool := fun i ↦
    i.2 = some (userId, organizationId.getD "", projectId.getD "", fingerprint)
  have hp : documentSchema.Single p := fun a b hab ha hb ↦ by
    have ha := of_decide_eq_true ha
    have hb := of_decide_eq_true hb
    exact hab.2 ⟨by rw [ha]; nofun, ha.trans hb.symm⟩
  refine (List.Sublist.length_le (List.monotone_filter_right _ fun document h ↦ ?_)).trans
    (Table.length_filter_le_one (T := s.store.documents) hp)
  simp only [RagDocument.isLiveIn, Bool.decide_and, Bool.and_eq_true, decide_eq_true_eq] at h
  obtain ⟨rfl, hfingerprint, hlive, rfl, rfl⟩ := h
  simp [p, documentSchema, RagDocument.liveScope, hlive, hfingerprint]

/-- A sound state is atomic. -/
theorem Sound.atomic (hs : s.Sound C sha256) : s.Atomic sha256 := by
  refine ⟨s.oneLive, fun call hcall hended ↦ ?_, fun document hdoc _ ↦ hs.unlost document hdoc,
    fun call hcall result hresult ↦ ?_⟩
  · obtain ⟨k, hk⟩ := List.getElem?_of_mem hcall
    have hstands := hs.stands k call hk
    cases hstage : call.stage with
    | ended outcome =>
      rw [hstage] at hstands
      exact hstands.1
    | _ =>
      rw [hstage] at hended
      exact nomatch hended
  · obtain ⟨k, hk⟩ := List.getElem?_of_mem hcall
    have hstands := hs.stands k call hk
    rw [hresult] at hstands
    exact hstands.2

end Uploads

variable (S C sha256) in
/-- **Uploads are all or nothing.** -/
theorem uploads_are_atomic (h : (uploadMachine S C sha256).Reachable KeepsAtomic s) : s.Atomic sha256 :=
  (h.invariant (I := fun u : Uploads ↦ u.Sound C sha256) (fun _ ↦ Uploads.sound_initial)
    fun _ _ _ hs hC hstep ↦ Uploads.Sound.step hs hC hstep).atomic

end Steps

/-! ### Runs on a fixed request -/

/-- A configuration with a storage. -/
def storedUploads : UploadConfig where
  enabled := true
  maxFileBytes := 10
  allowedFileTypes := ["pdf"]
  ragMalwareScanEnabled := true
  isProduction := true
  storageBucket := "documents"
  celeryTaskAlwaysEager := false

/-- A PDF file with nothing but its signature. -/
def handbookUpload : UploadRequest := ⟨"ana", "handbook.pdf", [0x25, 0x50, 0x44, 0x46, 0x2d]⟩

/-- Its digest. -/
def handbookDigest (_ : List UInt8) : String :=
  "38523c087796e5d5dd1cf9bad1fb026781a838dd9dd2cf8af58b9f6502a46778"

/-- Nothing yet. -/
def Uploads.initial : Uploads := ⟨⟨.empty, .empty, .empty, [], []⟩, []⟩

/-- The machine that the runs are of. -/
abbrev handbookMachine : Machine Uploads UploadAction :=
  uploadMachine .default storedUploads handbookDigest

theorem handbookMachine_init : handbookMachine.init Uploads.initial := ⟨rfl, rfl⟩

/-- A call, until its object is stored. -/
def storeMoves (k : ℕ) (documentId : Uuid) : List UploadAction :=
  [.start handbookUpload, .move k (.scan .clean), .move k (.resolve none none), .move k (.search documentId),
    .move k .send, .move k .land, .move k .stored]

/-- The same call, until its commit. -/
def commitMoves (k : ℕ) : List UploadAction :=
  [.move k (.insert 0), .move k (.createJob 11 0), .move k (.enqueue 21 0), .move k .commit]

/-- Two calls with one content: the second is refused, and returns what the first has committed. -/
def racedMoves : List UploadAction :=
  storeMoves 0 1 ++ storeMoves 1 2 ++ commitMoves 0 ++ [.move 0 .acknowledge, .move 0 .refresh,
    .move 1 (.insert 0), .move 1 .rollback, .move 1 (.search 3), .move 1 .giveBack, .move 1 .compensate,
    .move 1 .finish]

theorem racedMoves_isSome :
    (handbookMachine.run KeepsAtomic Uploads.initial racedMoves).isSome = true := by
  decide +kernel

theorem uploads_are_atomic_raced :
    (Option.get _ racedMoves_isSome).Atomic handbookDigest ∧
      (Option.get _ racedMoves_isSome).store.objects = ["rag/ana/1"] ∧
      (Option.get _ racedMoves_isSome).calls.map (·.stage.isEnded) = [true, true] :=
  ⟨uploads_are_atomic .default storedUploads handbookDigest
    (reachable_run handbookMachine_init racedMoves_isSome), by decide +kernel, by decide +kernel⟩

/-- The task of a call is cancelled as it inserts the document. -/
def cancelledMoves : List UploadAction := storeMoves 0 1 ++ [.move 0 (.raise .cancelled)]

theorem cancelledMoves_isSome :
    (handbookMachine.run anyStep Uploads.initial cancelledMoves).isSome = true := by
  decide +kernel

/-- The answer of the commit is lost. -/
def unansweredMoves : List UploadAction :=
  storeMoves 0 1 ++ commitMoves 0 ++
    [.move 0 (.raise .other), .move 0 .rollback, .move 0 .compensate, .move 0 .finish]

theorem unansweredMoves_isSome :
    (handbookMachine.run anyStep Uploads.initial unansweredMoves).isSome = true := by
  decide +kernel

/-- **Uploads are not all or nothing**: a cancelled call leaves its object, and a call whose commit is not
answered deletes that of its document. -/
theorem uploads_are_not_atomic :
    (∃ s, handbookMachine.Reachable anyStep s ∧ ¬s.NoneLeft) ∧
      ∃ s, handbookMachine.Reachable anyStep s ∧ ¬s.NoneLost := by
  refine ⟨⟨_, reachable_run handbookMachine_init cancelledMoves_isSome, fun h ↦ ?_⟩,
    ⟨_, reachable_run handbookMachine_init unansweredMoves_isSome, fun h ↦ ?_⟩⟩
  · have hleft : ∃ call ∈ (Option.get _ cancelledMoves_isSome).calls, call.stage.isEnded = true ∧
        call.objectKey = some "rag/ana/1" ∧
        "rag/ana/1" ∈ (Option.get _ cancelledMoves_isSome).store.objects ∧
        (Option.get _ cancelledMoves_isSome).store.documents.rows = [] := by
      decide +kernel
    obtain ⟨call, hcall, hended, hkey, hmem, hrows⟩ := hleft
    obtain ⟨document, hdoc, -⟩ := h call hcall hended _ hkey hmem
    rw [hrows] at hdoc
    exact nomatch hdoc
  · have hlost : ∃ document ∈ (Option.get _ unansweredMoves_isSome).store.documents.rows,
        document.deletedAt = none ∧ document.storagePath = some "rag/ana/1" ∧
        "rag/ana/1" ∈ (Option.get _ unansweredMoves_isSome).store.deleted := by
      decide +kernel
    obtain ⟨document, hdoc, hlive, hpath, hmem⟩ := hlost
    exact h document hdoc hlive _ hpath hmem

end GenericApp
