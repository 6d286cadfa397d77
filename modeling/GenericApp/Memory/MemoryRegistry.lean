import GenericApp.Foundation.Table
import GenericApp.Memory.MemoryIsolation

/-!
# What is left of a call in the registry

Each call runs in a database session of its own, and what it has not committed when it is over is rolled back.
`remember` and `forget` write to the registry, and commit where they have written to the audit log as well.
With auditing switched off they write, answer, and lose what they have written. `durable_iff` says that this
is the only way: with auditing on, what is accepted is in the registry and what is forgotten is deleted there,
and stays so until a call is about the same memory again.

What the memory engine answers is part of a call, and so is whether the audit log can be written.
-/

namespace GenericApp

open Py

/-! ### The relation -/

/-- `external_memory_id` is unique. -/
def registrySchema : Schema RegistryRow String where
  ident := RegistryRow.externalMemoryId
  Compat a b := a ≠ b

instance : DecidableRel registrySchema.Compat := fun a b ↦ inferInstanceAs (Decidable (a ≠ b))

/-- The rows of `memory_registry`. -/
abbrev Registry := Table registrySchema

namespace Registry

/-- The row of a memory. -/
def byMemory (memoryId : String) : String → Bool := fun id ↦ id = memoryId

variable (T : Registry)

/-- `get_by_external_id` -/
def getByExternalId (memoryId : String) : Option RegistryRow := T.find (byMemory memoryId)

/-- `register` -/
def register (row : RegistryRow) : Registry :=
  match T.getByExternalId row.externalMemoryId with
  | some _ => T.modify (byMemory row.externalMemoryId) fun _ ↦ row
  | none => (T.insert row).getD T

/-- `mark_deleted` -/
def markDeleted (memoryId : String) : Registry :=
  T.modify (byMemory memoryId) fun row ↦ { row with status := .deleted }

variable {T}

theorem externalMemoryId_of_get {memoryId : String} {row : RegistryRow}
    (h : T.getByExternalId memoryId = some row) : row.externalMemoryId = memoryId := by
  have hsel : byMemory memoryId row.externalMemoryId = true := Table.sel_of_find h
  exact of_decide_eq_true hsel

/-- A write leaves the other rows alone. -/
theorem get_modify_of_ne {memoryId other : String} {f : RegistryRow → RegistryRow} (h : other ≠ memoryId) :
    getByExternalId (T.modify (byMemory memoryId) f) other = T.getByExternalId other := by
  rw [getByExternalId, Table.find_modify]
  rcases hfind : T.find (byMemory other) with - | row
  · exact hfind.symm
  · have hid : row.externalMemoryId = other := externalMemoryId_of_get hfind
    have hsel : byMemory memoryId (registrySchema.ident row) = false := Bool.eq_false_iff.2 fun hsel ↦
      h (hid.symm.trans (of_decide_eq_true hsel))
    rw [Option.map_some, Table.modifyRow_of_neg hsel]
    exact hfind.symm

/-- **What is registered is there.** -/
theorem get_register_self (row : RegistryRow) :
    (T.register row).getByExternalId row.externalMemoryId = some row := by
  rw [register]
  rcases hfind : T.getByExternalId row.externalMemoryId with - | existing
  · have hfree : ∀ a ∈ T.rows, registrySchema.Compat (registrySchema.ident a) (registrySchema.ident row) := by
      intro a ha heq
      exact absurd (decide_eq_true heq) (Bool.eq_false_iff.1 (Table.find_eq_none_iff.1 hfind a ha))
    have hinsert : T.insert row = some _ := dif_pos hfree
    show getByExternalId ((T.insert row).getD T) row.externalMemoryId = some row
    rw [hinsert, Option.getD_some, getByExternalId, Table.find_of_insert hinsert]
    have hnone : T.find (byMemory row.externalMemoryId) = none := hfind
    rw [hnone, Option.none_or]
    exact if_pos (decide_eq_true rfl)
  · have hid := externalMemoryId_of_get hfind
    exact Table.find_modify_self hfind hid.symm

theorem get_register_of_ne {row : RegistryRow} {other : String} (h : other ≠ row.externalMemoryId) :
    (T.register row).getByExternalId other = T.getByExternalId other := by
  rw [register]
  rcases hfind : T.getByExternalId row.externalMemoryId with - | existing
  · show getByExternalId ((T.insert row).getD T) other = _
    rcases hinsert : T.insert row with - | T'
    · rfl
    · rw [Option.getD_some, getByExternalId, Table.find_of_insert hinsert]
      have hsel : ¬byMemory other (registrySchema.ident row) = true := fun hsel ↦
        h (of_decide_eq_true hsel).symm
      rw [if_neg hsel, Option.or_none]
      rfl
  · exact get_modify_of_ne h

/-- **What is marked is deleted.** -/
theorem get_markDeleted_self {memoryId : String} {row : RegistryRow}
    (h : T.getByExternalId memoryId = some row) :
    (T.markDeleted memoryId).getByExternalId memoryId = some { row with status := .deleted } :=
  Table.find_modify_self h rfl

end Registry

/-! ### Sessions -/

/-- A database session: what is committed, and what the session has made of it. -/
structure DbSession where
  committed : Registry
  current : Registry

/-- `get_db` opens one. -/
def openSession (T : Registry) : DbSession := ⟨T, T⟩

/-- `db.commit()` -/
def DbSession.commit (session : DbSession) : DbSession := ⟨session.current, session.current⟩

/-- The end of the request: what is not committed is rolled back. -/
def DbSession.close (session : DbSession) : Registry := session.committed

/-! ### Calls -/

/-- What comes of `mem0.add`: an exception, or the id that `_extract_memory_id` finds, which may be empty. -/
inductive Mem0Added
  | raised
  | returned (externalId : String)

/-- A call of the service with what it gets from outside. -/
inductive MemoryCall
  | remember (world : MemoryWorld) (now : DateTime) (call : RememberCall) (added : Mem0Added)
      (freshId : String) (auditWritten : Bool)
  | forget (world : MemoryWorld) (userId memoryId : String) (isAdmin deleted auditWritten : Bool)

/-- How a call ends. -/
inductive MemoryReply
  | remembered (result : MemoryWriteResult)
  | forgotten
  | raised (error : RememberError)
  /-- 404 `Memory not found` -/
  | notFound
  /-- 403 `Only admins can forget global agent memory` -/
  | adminsOnly
  /-- 403 `You cannot forget another user's memory` -/
  | otherUser
  /-- 403 `Project access denied` -/
  | projectDenied
  /-- 503 `Memory service unavailable` -/
  | unavailable
  /-- The audit log cannot be written, and the exception is not caught. -/
  | auditFailed
deriving DecidableEq

variable (config : MemoryConfig)

/-- The row that `remember` registers. -/
def registeredRow (call : RememberCall) (memory : NewMemory) (externalId : String) : RegistryRow where
  externalMemoryId := externalId
  userId := some memory.userId
  agentId := some call.agentId
  runId := call.runId
  projectId := call.projectId
  memoryLevel := memory.memoryLevel.value
  memoryType := some memory.memoryType.value
  status := .active

/-- The end of a call that has written to the registry: the audit log and the commit, where auditing is on. -/
def auditAndCommit (session : DbSession) (auditWritten : Bool) (reply : MemoryReply) : MemoryReply × DbSession :=
  if config.auditEnabled then
    if auditWritten then (reply, session.commit) else (.auditFailed, session)
  else (reply, session)

/-- `remember` -/
def remember (world : MemoryWorld) (now : DateTime) (call : RememberCall) (added : Mem0Added)
    (freshId : String) (auditWritten : Bool) (session : DbSession) : MemoryReply × DbSession :=
  match prepare world config now call with
  | .error error => (.raised error, session)
  | .ok (.inl result) => (.remembered result, session)
  | .ok (.inr memory) =>
    match added with
    | .raised =>
      (.remembered (rejected memory.memoryLevel memory.memoryType "mem0_unavailable"), session)
    | .returned externalId =>
      let registered := if externalId ≠ "" then
        { session with current := session.current.register (registeredRow call memory externalId) }
      else session
      auditAndCommit config registered auditWritten (.remembered
        { memoryId := if externalId ≠ "" then externalId else freshId
          memoryLevel := memory.memoryLevel
          memoryType := memory.memoryType
          accepted := externalId ≠ ""
          rejectionReason := if externalId ≠ "" then none else some "mem0_empty_response" })

/-- `forget` -/
def forget (world : MemoryWorld) (userId memoryId : String) (isAdmin deleted auditWritten : Bool)
    (session : DbSession) : MemoryReply × DbSession :=
  match session.current.getByExternalId memoryId with
  | none => (.notFound, session)
  | some row =>
    if row.status ≠ .active then (.notFound, session)
    else if row.memoryLevel = "agent" ∧ row.userId = none ∧ isAdmin = false then (.adminsOnly, session)
    else if (given row.userId).any (fun owner ↦ owner ≠ userId) ∧ isAdmin = false then (.otherUser, session)
    else if (given row.projectId).any (fun project ↦ !world.projectAccess project userId) then
      (.projectDenied, session)
    else if deleted = false then (.unavailable, session)
    else
      auditAndCommit config { session with current := session.current.markDeleted memoryId } auditWritten
        .forgotten

/-- A call, in a session of its own. -/
def MemoryCall.run (T : Registry) : MemoryCall → MemoryReply × Registry
  | remember world now call added freshId auditWritten =>
    ((GenericApp.remember config world now call added freshId auditWritten (openSession T)).1,
      (GenericApp.remember config world now call added freshId auditWritten (openSession T)).2.close)
  | forget world userId memoryId isAdmin deleted auditWritten =>
    ((GenericApp.forget config world userId memoryId isAdmin deleted auditWritten (openSession T)).1,
      (GenericApp.forget config world userId memoryId isAdmin deleted auditWritten (openSession T)).2.close)

/-- The memory that the store has returned for a call. -/
def MemoryCall.registers : MemoryCall → Option String
  | remember _ _ _ (.returned externalId) _ _ => some externalId
  | _ => none

/-- The call is about the memory. -/
def MemoryCall.Concerns (call : MemoryCall) (memoryId : String) : Prop :=
  call.registers = some memoryId ∨
    ∃ world userId isAdmin deleted auditWritten,
      call = .forget world userId memoryId isAdmin deleted auditWritten

/-- The registry after a sequence of calls. -/
def afterCalls (T : Registry) (calls : List MemoryCall) : Registry :=
  calls.foldl (fun T call ↦ (call.run config T).2) T

/-! ### What a call does -/

variable {config} {T : Registry} {memoryId : String}

/-- The reply of a call that comes to its end, and what it leaves: its work where it commits. -/
theorem auditAndCommit_cases (session : DbSession) (auditWritten : Bool) (reply : MemoryReply) :
    ((auditAndCommit config session auditWritten reply).1 = .auditFailed ∧
        (auditAndCommit config session auditWritten reply).2.close = session.committed) ∨
      ((auditAndCommit config session auditWritten reply).1 = reply ∧
        (auditAndCommit config session auditWritten reply).2.close =
          if config.auditEnabled then session.current else session.committed) := by
  rw [auditAndCommit]
  by_cases haudit : config.auditEnabled = true
  · cases auditWritten
    · exact .inl (by simp [haudit, DbSession.close])
    · exact .inr (by simp [haudit, DbSession.close, DbSession.commit])
  · exact .inr (by simp [haudit, DbSession.close])

/-- What a call leaves is what was there, or its work. -/
theorem close_auditAndCommit (session : DbSession) (auditWritten : Bool) (reply : MemoryReply) :
    (auditAndCommit config session auditWritten reply).2.close = session.committed ∨
      (auditAndCommit config session auditWritten reply).2.close = session.current := by
  rcases @auditAndCommit_cases config session auditWritten reply with ⟨-, h⟩ | ⟨-, h⟩
  · exact .inl h
  · by_cases haudit : config.auditEnabled = true
    · exact .inr (by rw [h, if_pos haudit])
    · exact .inl (by rw [h, if_neg haudit])

/-- **A call that is about another memory leaves this one alone.** -/
theorem get_run_of_not_concerns {call : MemoryCall} (h : ¬call.Concerns memoryId) :
    (call.run config T).2.getByExternalId memoryId = T.getByExternalId memoryId := by
  cases call with
  | remember world now call added freshId auditWritten =>
    show ((remember config world now call added freshId auditWritten (openSession T)).2.close).getByExternalId
      memoryId = _
    rw [remember]
    split
    · rfl
    · rfl
    · next memory _ =>
      rcases added with - | externalId
      · rfl
      · have hne : memoryId ≠ externalId := fun heq ↦ h (.inl (congrArg some heq.symm))
        by_cases hempty : externalId ≠ ""
        · simp only [if_pos hempty]
          rcases @close_auditAndCommit config _ auditWritten _ with hclose | hclose <;> rw [hclose]
          · rfl
          · exact Registry.get_register_of_ne hne
        · simp only [if_neg hempty]
          rcases @close_auditAndCommit config _ auditWritten _ with hclose | hclose <;>
            rw [hclose] <;> rfl
  | forget world userId other isAdmin deleted auditWritten =>
    have hne : memoryId ≠ other := fun heq ↦ h (.inr ⟨_, _, _, _, _, by rw [heq]⟩)
    show ((forget config world userId other isAdmin deleted auditWritten (openSession T)).2.close).getByExternalId
      memoryId = _
    rw [forget]
    split
    · rfl
    · iterate 5
        split
        · rfl
      rcases @close_auditAndCommit config _ auditWritten _ with hclose | hclose <;> rw [hclose]
      · rfl
      · exact Registry.get_modify_of_ne hne

/-- A deleted memory is not found, and stays as it is. -/
theorem run_forget_of_deleted {row : RegistryRow} (h : T.getByExternalId memoryId = some row)
    (hdeleted : row.status = .deleted) (world : MemoryWorld) (userId : String)
    (isAdmin deleted auditWritten : Bool) :
    (MemoryCall.forget world userId memoryId isAdmin deleted auditWritten).run config T = (.notFound, T) := by
  have hget : (openSession T).current.getByExternalId memoryId = some row := h
  have hstatus : row.status ≠ .active := by
    rw [hdeleted]
    decide
  simp only [MemoryCall.run, forget, hget, if_pos hstatus]
  rfl

/-- What nobody touches stays. -/
theorem get_afterCalls {calls : List MemoryCall} (h : ∀ call ∈ calls, ¬call.Concerns memoryId) :
    (afterCalls config T calls).getByExternalId memoryId = T.getByExternalId memoryId := by
  induction calls generalizing T with
  | nil => rfl
  | cons call calls ih =>
    have hrest := ih (T := (call.run config T).2) fun later hlater ↦ h later (List.mem_cons_of_mem _ hlater)
    exact hrest.trans (get_run_of_not_concerns (h call List.mem_cons_self))

/-- A deleted memory stays deleted until the store returns it again. -/
theorem deleted_afterCalls {calls : List MemoryCall} (h : ∀ call ∈ calls, call.registers ≠ some memoryId)
    {row : RegistryRow} (hrow : T.getByExternalId memoryId = some row) (hdeleted : row.status = .deleted) :
    (afterCalls config T calls).getByExternalId memoryId = some row := by
  induction calls generalizing T with
  | nil => exact hrow
  | cons call calls ih =>
    refine ih (fun later hlater ↦ h later (List.mem_cons_of_mem _ hlater)) ?_
    show ((call.run config T).2).getByExternalId memoryId = some row
    by_cases hconcerns : call.Concerns memoryId
    · rcases hconcerns with hregisters | ⟨world, userId, isAdmin, deleted, auditWritten, rfl⟩
      · exact absurd hregisters (h call List.mem_cons_self)
      · rw [run_forget_of_deleted hrow hdeleted]
        exact hrow
    · exact (get_run_of_not_concerns hconcerns).trans hrow

/-- What `remember` accepts is registered, where auditing is on. -/
theorem registered_of_accepted (haudit : config.auditEnabled = true) {world : MemoryWorld} {now : DateTime}
    {call : RememberCall} {added : Mem0Added} {freshId : String} {auditWritten : Bool}
    {result : MemoryWriteResult}
    (h : ((MemoryCall.remember world now call added freshId auditWritten).run config T).1 =
      .remembered result) (haccepted : result.accepted = true) :
    ∃ memory : NewMemory, memory.userId = call.userId ∧
      ((MemoryCall.remember world now call added freshId auditWritten).run config T).2.getByExternalId
        result.memoryId = some (registeredRow call memory result.memoryId) := by
  simp only [MemoryCall.run, remember] at h ⊢
  rcases hprepare : prepare world config now call with error | result' | memory
  · simp only [hprepare] at h
    exact nomatch h
  · simp only [hprepare] at h
    obtain rfl := MemoryReply.remembered.inj h
    exact nomatch haccepted.symm.trans (not_accepted_of_prepare hprepare)
  · rcases added with - | externalId
    · simp only [hprepare] at h
      obtain rfl := MemoryReply.remembered.inj h
      exact nomatch haccepted
    · simp only [hprepare] at h ⊢
      rcases @auditAndCommit_cases config _ auditWritten _ with ⟨hreply, -⟩ | ⟨hreply, hclose⟩
      · exact nomatch hreply.symm.trans h
      · obtain rfl := MemoryReply.remembered.inj (hreply.symm.trans h)
        have hid : externalId ≠ "" := of_decide_eq_true haccepted
        refine ⟨memory, (prepare_spec hprepare).1, ?_⟩
        rw [hclose, if_pos haudit]
        simp only [if_pos hid]
        exact Registry.get_register_self (registeredRow call memory externalId)

/-- What `forget` has forgotten is marked, where auditing is on. -/
theorem deleted_of_forgotten (haudit : config.auditEnabled = true) {world : MemoryWorld} {userId : String}
    {isAdmin deleted auditWritten : Bool}
    (h : ((MemoryCall.forget world userId memoryId isAdmin deleted auditWritten).run config T).1 =
      .forgotten) :
    ∃ row, ((MemoryCall.forget world userId memoryId isAdmin deleted auditWritten).run config
      T).2.getByExternalId memoryId = some row ∧ row.status = .deleted := by
  simp only [MemoryCall.run, forget] at h ⊢
  rcases hget : (openSession T).current.getByExternalId memoryId with - | row
  · simp only [hget] at h
    exact nomatch h
  · simp only [hget] at h ⊢
    iterate 5
      split at h
      · exact nomatch h
    next hstatus hadmins hother hproject hdelete =>
    simp only [if_neg hstatus, if_neg hadmins, if_neg hother, if_neg hproject, if_neg hdelete]
    rcases @auditAndCommit_cases config
      { (openSession T) with current := (openSession T).current.markDeleted memoryId } auditWritten
        .forgotten with ⟨hreply, -⟩ | ⟨-, hclose⟩
    · exact nomatch hreply.symm.trans h
    · rw [hclose, if_pos haudit]
      exact ⟨_, Registry.get_markDeleted_self hget, rfl⟩

/-- An active memory of the user is forgotten exactly if the user may enter its project, when nothing outside
stands in the way. -/
theorem forgotten_iff_of_active {row : RegistryRow} (h : T.getByExternalId memoryId = some row)
    (hactive : row.status = .active) {userId : String} (howner : row.userId = some userId)
    (world : MemoryWorld) (isAdmin : Bool) :
    ((MemoryCall.forget world userId memoryId isAdmin true true).run config T).1 = .forgotten ↔
      ∀ project, given row.projectId = some project → world.projectAccess project userId = true := by
  have hget : (openSession T).current.getByExternalId memoryId = some row := h
  have hstatus : ¬row.status ≠ .active := not_not_intro hactive
  have hadmins : ¬(row.memoryLevel = "agent" ∧ row.userId = none ∧ isAdmin = false) := by
    rw [howner]
    exact fun hglobal ↦ nomatch hglobal.2.1
  have hother : ¬((given row.userId).any (fun owner ↦ owner ≠ userId) = true ∧ isAdmin = false) := by
    rintro ⟨hany, -⟩
    obtain ⟨owner, hgiven, hne⟩ := (Option.any_eq_true _ _).1 hany
    rw [given_eq_some_iff, howner] at hgiven
    exact of_decide_eq_true hne (Option.some.inj hgiven.1).symm
  simp only [MemoryCall.run, forget, hget, if_neg hstatus, if_neg hadmins, if_neg hother]
  by_cases hproject : (given row.projectId).any (fun project ↦ !world.projectAccess project userId) = true
  · obtain ⟨project, hgiven, hdenied⟩ := (Option.any_eq_true _ _).1 hproject
    rw [if_pos hproject]
    refine ⟨fun hreply ↦ ?_, fun haccess ↦ ?_⟩
    · exact nomatch hreply
    · rw [haccess project hgiven] at hdenied
      exact nomatch hdenied
  · rw [if_neg hproject, if_neg (by decide)]
    constructor
    · intro _ project hgiven
      by_contra hdenied
      exact hproject ((Option.any_eq_true _ _).2 ⟨project, hgiven, by simpa using hdenied⟩)
    · intro _
      by_cases haudit : config.auditEnabled = true <;> simp [auditAndCommit, haudit]

/-- With auditing off, no call leaves anything. -/
theorem run_of_audit_off (haudit : config.auditEnabled = false) (call : MemoryCall) :
    (call.run config T).2 = T := by
  have hclose (session : DbSession) (auditWritten : Bool) (reply : MemoryReply) :
      (auditAndCommit config session auditWritten reply).2.close = session.committed := by
    rw [auditAndCommit, haudit]
    rfl
  cases call with
  | remember world now call added freshId auditWritten =>
    show (remember config world now call added freshId auditWritten (openSession T)).2.close = T
    rw [remember]
    split
    · rfl
    · rfl
    · rcases added with - | externalId
      · rfl
      · by_cases hempty : externalId ≠ ""
        · simp only [if_pos hempty]
          exact hclose _ _ _
        · simp only [if_neg hempty]
          exact hclose _ _ _
  | forget world userId memoryId isAdmin deleted auditWritten =>
    show (forget config world userId memoryId isAdmin deleted auditWritten (openSession T)).2.close = T
    rw [forget]
    split
    · rfl
    · iterate 5
        split
        · rfl
      exact hclose _ _ _

theorem afterCalls_of_audit_off (haudit : config.auditEnabled = false) (calls : List MemoryCall) :
    afterCalls config T calls = T := by
  induction calls with
  | nil => rfl
  | cons call calls ih =>
    show afterCalls config (call.run config T).2 calls = T
    rw [run_of_audit_off haudit, ih]

theorem afterCalls_append (calls later : List MemoryCall) :
    afterCalls config T (calls ++ later) = afterCalls config (afterCalls config T calls) later :=
  List.foldl_append

/-! ### Durability -/

variable (config T)

/-- What a call has said is what the registry has when its session is over. -/
structure Kept (call : MemoryCall) : Prop where
  /-- What is accepted is there, active, and its user's. -/
  remembered {world : MemoryWorld} {now : DateTime} {request : RememberCall} {added : Mem0Added}
    {freshId : String} {auditWritten : Bool} {result : MemoryWriteResult}
    (hcall : call = .remember world now request added freshId auditWritten)
    (hreply : (call.run config T).1 = .remembered result) (haccepted : result.accepted = true) :
    ∃ row, (call.run config T).2.getByExternalId result.memoryId = some row ∧ row.status = .active ∧
      row.userId = some request.userId
  /-- What is forgotten is deleted. -/
  forgotten {world : MemoryWorld} {userId memoryId : String} {isAdmin deleted auditWritten : Bool}
    (hcall : call = .forget world userId memoryId isAdmin deleted auditWritten)
    (hreply : (call.run config T).1 = .forgotten) :
    ∃ row, (call.run config T).2.getByExternalId memoryId = some row ∧ row.status = .deleted

/-- A memory in a run: it is accepted, and after calls about other memories its user asks to have it forgotten.
The store deletes it then, and the audit log can be written. -/
structure Life (calls : List MemoryCall) where
  before : List MemoryCall
  world : MemoryWorld
  now : DateTime
  request : RememberCall
  added : Mem0Added
  freshId : String
  auditWritten : Bool
  result : MemoryWriteResult
  between : List MemoryCall
  later : MemoryWorld
  isAdmin : Bool
  after : List MemoryCall
  calls_eq : calls = before ++ .remember world now request added freshId auditWritten ::
    (between ++ .forget later request.userId result.memoryId isAdmin true true :: after)
  reply_eq : ((MemoryCall.remember world now request added freshId auditWritten).run config
    (afterCalls config T before)).1 = .remembered result
  accepted : result.accepted = true
  untouched : ∀ call ∈ between, ¬call.Concerns result.memoryId

namespace Life

variable {config T} {calls : List MemoryCall} (life : Life config T calls)

/-- The call that remembers. -/
def remembering : MemoryCall :=
  .remember life.world life.now life.request life.added life.freshId life.auditWritten

/-- The call that forgets. -/
def forgetting : MemoryCall :=
  .forget life.later life.request.userId life.result.memoryId life.isAdmin true true

/-- The registry when the memory has been accepted. -/
def atAcceptance : Registry := (life.remembering.run config (afterCalls config T life.before)).2

/-- The registry when the user asks to have it forgotten. -/
def atForgetting : Registry := afterCalls config life.atAcceptance life.between

/-- The user may enter the project that the request has named. -/
def Entered : Prop :=
  ∀ project, given life.request.projectId = some project →
    life.later.projectAccess project life.request.userId = true

end Life

/-- **Durability** of a run, whose calls are `calls`. -/
structure Durable (calls : List MemoryCall) : Prop where
  /-- Every call keeps what it says. -/
  kept {before after : List MemoryCall} {call : MemoryCall} (hcalls : calls = before ++ call :: after) :
    Kept config (afterCalls config T before) call
  /-- What was accepted can be forgotten. -/
  forgettable (life : Life config T calls) : (life.forgetting.run config life.atForgetting).1 = .forgotten
  /-- What was forgotten is not found any more, by `forget` or by `get_memory`. -/
  once {before between after : List MemoryCall} {world : MemoryWorld} {userId memoryId : String}
    {isAdmin deleted auditWritten : Bool}
    (hcalls : calls =
      before ++ .forget world userId memoryId isAdmin deleted auditWritten :: (between ++ after))
    (hreply : ((MemoryCall.forget world userId memoryId isAdmin deleted auditWritten).run config
      (afterCalls config T before)).1 = .forgotten)
    (hbetween : ∀ call ∈ between, call.registers ≠ some memoryId) (world' : MemoryWorld) (userId' : String) :
    (∀ isAdmin' deleted' auditWritten',
      ((MemoryCall.forget world' userId' memoryId isAdmin' deleted' auditWritten').run config
        (afterCalls config T (before ++ .forget world userId memoryId isAdmin deleted auditWritten ::
          between))).1 = .notFound) ∧
      ∀ filterAccessible fetched, getMemory world' filterAccessible userId'
        ((afterCalls config T (before ++ .forget world userId memoryId isAdmin deleted auditWritten ::
          between)).getByExternalId memoryId) fetched = .error .notFound

variable {config T} {calls : List MemoryCall}

/-- With auditing on, every call keeps what it says. -/
theorem kept_of_audit (haudit : config.auditEnabled = true) (call : MemoryCall) : Kept config T call where
  remembered hcall hreply haccepted := by
    subst hcall
    obtain ⟨memory, huser, hrow⟩ := registered_of_accepted haudit hreply haccepted
    exact ⟨_, hrow, rfl, congrArg some huser⟩
  forgotten hcall hreply := by
    subst hcall
    exact deleted_of_forgotten haudit hreply

namespace Life

variable (life : Life config T calls)

/-- With auditing on, the memory is still there when the user asks to have it forgotten. -/
theorem row_atForgetting (haudit : config.auditEnabled = true) :
    ∃ memory : NewMemory, memory.userId = life.request.userId ∧
      life.atForgetting.getByExternalId life.result.memoryId =
        some (registeredRow life.request memory life.result.memoryId) := by
  obtain ⟨memory, huser, hrow⟩ := registered_of_accepted haudit life.reply_eq life.accepted
  exact ⟨memory, huser, (get_afterCalls life.untouched).trans hrow⟩

/-- With auditing on, it is forgotten exactly if the user may enter the project. -/
theorem forgotten_iff (haudit : config.auditEnabled = true) :
    (life.forgetting.run config life.atForgetting).1 = .forgotten ↔ life.Entered := by
  obtain ⟨memory, huser, hrow⟩ := life.row_atForgetting haudit
  exact forgotten_iff_of_active hrow rfl (congrArg some huser) life.later life.isAdmin

theorem calls_eq_forgetting :
    calls = (life.before ++ life.remembering :: life.between) ++ life.forgetting :: life.after := by
  rw [List.append_assoc, List.cons_append]
  exact life.calls_eq

theorem remembering_mem : life.remembering ∈ calls :=
  (congrArg (life.remembering ∈ ·) life.calls_eq).mpr (List.mem_append_right _ List.mem_cons_self)

theorem atForgetting_eq :
    life.atForgetting = afterCalls config T (life.before ++ life.remembering :: life.between) := by
  rw [afterCalls_append]
  rfl

/-- With auditing off, a run with a memory in it is not durable: the row is active before the user forgets it,
and after. -/
theorem not_durable (life : Life config T calls) (haudit : config.auditEnabled = false) :
    ¬Durable config T calls := by
  intro hdurable
  have hforgotten := hdurable.forgettable life
  have hkept := hdurable.kept life.calls_eq
  obtain ⟨row, hrow, hactive, -⟩ := hkept.remembered rfl life.reply_eq life.accepted
  obtain ⟨row', hrow', hdeleted⟩ :=
    (hdurable.kept life.calls_eq_forgetting).forgotten rfl (life.atForgetting_eq ▸ hforgotten)
  rw [run_of_audit_off haudit, afterCalls_of_audit_off haudit] at hrow hrow'
  obtain rfl := Option.some.inj (hrow.symm.trans hrow')
  exact nomatch hactive.symm.trans hdeleted

end Life

/-- **When the registry is durable.** With auditing on, in a run in which each user who forgets may enter the
project that was named, and not in any other run in which a memory is accepted and then forgotten. -/
theorem durable_registry (config : MemoryConfig) (T : Registry) (calls : List MemoryCall) :
    (config.auditEnabled = true ∧ (∀ life : Life config T calls, life.Entered) → Durable config T calls) ∧
      (Nonempty (Life config T calls) → Durable config T calls →
        config.auditEnabled = true ∧ ∀ life : Life config T calls, life.Entered) := by
  constructor
  · rintro ⟨haudit, hentered⟩
    refine ⟨fun _ ↦ kept_of_audit haudit _, fun life ↦ (life.forgotten_iff haudit).2 (hentered life), ?_⟩
    intro before between after world userId memoryId isAdmin deleted auditWritten _ hreply hbetween world'
      userId'
    obtain ⟨row, hrow, hdeleted⟩ := deleted_of_forgotten haudit hreply
    have hlater : (afterCalls config T (before ++ .forget world userId memoryId isAdmin deleted auditWritten ::
        between)).getByExternalId memoryId = some row := by
      rw [afterCalls_append]
      exact deleted_afterCalls hbetween hrow hdeleted
    refine ⟨fun isAdmin' deleted' auditWritten' ↦ ?_, fun filterAccessible fetched ↦ ?_⟩
    · rw [run_forget_of_deleted hlater hdeleted]
    · have hstatus : row.status ≠ .active := by
        rw [hdeleted]
        decide
      have hrefused : checkRegistry world' userId' (some row) = .error .notFound := if_pos hstatus
      rw [hlater]
      show (checkRegistry world' userId' (some row)).bind _ = _
      rw [hrefused]
      rfl
  · rintro ⟨life⟩ hdurable
    rcases haudit : config.auditEnabled with - | -
    · exact absurd hdurable (life.not_durable haudit)
    · exact ⟨rfl, fun life' ↦ (life'.forgotten_iff haudit).1 (hdurable.forgettable life')⟩

/-- `u1` states a fact. -/
def factCall : RememberCall where
  userId := "u1"
  userId_ne := spoofingCall.userId_ne
  agentId := "default"
  content := "the office is in Lyon"
  memoryLevel := "user"

/-- The user asks for it to be remembered; the store returns `m1`. -/
def rememberFact : MemoryCall :=
  .remember ⟨MemoryMetadata.plainConversions, fun _ ↦ false, fun _ _ ↦ true⟩ 1767225600000000 factCall
    (.returned "m1") "fresh" true

/-- What the user is answered. -/
def factRemembered : MemoryWriteResult := ⟨"m1", .user, .fact, true, none⟩

/-- The user asks for it to be forgotten. -/
def forgetFact : MemoryCall :=
  .forget ⟨MemoryMetadata.plainConversions, fun _ ↦ false, fun _ _ ↦ true⟩ "u1" "m1" false true true

/-- The run is durable. -/
theorem fact_endures : Durable defaultMemoryConfig .empty [rememberFact, forgetFact] := by
  refine (durable_registry defaultMemoryConfig .empty [rememberFact, forgetFact]).1 ⟨rfl, fun life project h ↦ ?_⟩
  have hmem : life.remembering ∈ [rememberFact, forgetFact] := life.remembering_mem
  have hrequest : life.request = factCall := by
    rcases List.mem_pair.1 hmem with hcall | hcall
    · exact (MemoryCall.remember.inj hcall).2.2.1
    · exact nomatch hcall
  rw [hrequest] at h
  exact nomatch h

/-- The defaults of the settings, but for the audit log. -/
def unauditedConfig : MemoryConfig := { defaultMemoryConfig with auditEnabled := false }

/-- **An accepted memory is lost**: with auditing off, it is in no registry. -/
theorem accepted_is_lost : ¬Durable unauditedConfig .empty [rememberFact] := by
  intro hdurable
  have hreply : (rememberFact.run unauditedConfig .empty).1 = .remembered factRemembered := by
    decide +kernel
  obtain ⟨row, hrow, -⟩ := (hdurable.kept (List.nil_append [rememberFact]).symm).remembered rfl hreply rfl
  rw [run_of_audit_off rfl] at hrow
  exact nomatch hrow

end GenericApp
