import GenericApp.Foundation.Machine
import GenericApp.Workers.JobService

/-!
# The job lifecycle, statement by statement

`run_tracked_sync` over the relation `application_jobs`, with every transaction split where another
one can come between. A claim selects its row `FOR UPDATE`, decides, and writes under the lock it
holds until it commits. A finish or a release reads the row by primary key **without** a lock, and
writes the columns it changed in a later statement, which waits for whoever holds the row lock and is
then applied to the row that is there. A claim that found no row inserts one and may lose the insert
to another on `uq_application_jobs_operation_id`, after which it starts over, once.

A worker is one execution of `run_tracked_sync`; there are infinitely many, so a redelivery is a new
worker. Clock readings are whatever the environment says: nothing here rests on them being ordered.
`granted` and `started` are not part of the program. They record, in order, the claims answered with
`should_run=True` and the runners started.

What holds of a table row while somebody holds its lock is `LockInv`, and `step_grows` is the one fact
about writes that the counting needs: no step takes an attempt back.
-/

namespace GenericApp

open Py

/-- One execution of `run_tracked_sync`. -/
abbrev WorkerId := ℕ

/-- Where an execution of `run_tracked_sync` stands. -/
inductive Call
  /-- Not called yet. -/
  | idle
  /-- In `_claim_job`, about to look for the row; the number is `insert_attempt`. -/
  | selecting (args : ClaimArgs) (now : DateTime) (insertAttempt : ℕ)
  /-- In `_claim_job`, found no row. -/
  | inserting (args : ClaimArgs) (now : DateTime) (insertAttempt : ℕ)
  /-- In `_claim_job`, has loaded the row and holds its lock. -/
  | holding (args : ClaimArgs) (now : DateTime) (loaded : ApplicationJob)
  /-- `_claim_job` has returned `should_run=True`. -/
  | claimed (args : ClaimArgs) (claim : ClaimResult)
  /-- In the runner. -/
  | running (claim : ClaimResult)
  /-- The runner is over. -/
  | ended (claim : ClaimResult) (outcome : RunnerOutcome)
  /-- In `_finish_job` or `_release_job_for_retry`, between the read and the write. -/
  | writing (outcome : RunnerOutcome) (now : DateTime) (loaded : ApplicationJob)
  /-- Returned, raised or dead. -/
  | over
  deriving DecidableEq

/-- The arguments of a claim that has not been answered yet. -/
def Call.claimArgs : Call → Option ClaimArgs
  | selecting args _ _ => some args
  | inserting args _ _ => some args
  | holding args _ _ => some args
  | _ => none

/-- An execution whose runner has not been started. -/
def Call.beforeStart : Call → Bool
  | idle | selecting .. | inserting .. | holding .. | claimed .. => true
  | _ => false

/-- A claim answered with `should_run=True`. -/
structure Grant where
  worker : WorkerId
  operationId : Option String
  attempt : ℕ
  deriving DecidableEq, Repr

/-- The relation, the row locks, and where every execution stands. -/
structure JobState where
  table : JobTable
  lock : Uuid → Option WorkerId
  calls : WorkerId → Call
  granted : List Grant
  started : List Grant

/-- The statements that the environment schedules, with the clock readings and the identifiers that
they draw. -/
inductive JobAction
  | ensureQueued (id : Uuid) (args : ClaimArgs) (now flushedAt : DateTime)
  | call (w : WorkerId) (args : ClaimArgs) (now : DateTime)
  | select (w : WorkerId)
  | insert (w : WorkerId) (id : Uuid) (flushedAt : DateTime)
  | commit (w : WorkerId) (flushedAt : DateTime)
  | start (w : WorkerId)
  | endRun (w : WorkerId) (outcome : RunnerOutcome)
  | read (w : WorkerId) (now : DateTime)
  | write (w : WorkerId) (flushedAt : DateTime)
  | crash (w : WorkerId)

namespace JobState

/-- An empty relation, and nobody at work. -/
def initial : JobState where
  table := .empty
  lock _ := none
  calls _ := .idle
  granted := []
  started := []

/-! ### The statements -/

def setCall (s : JobState) (w : WorkerId) (c : Call) : JobState :=
  { s with calls := Function.update s.calls w c }

/-- The locks that are left when the transaction of `w` ends. -/
def locksWithout (s : JobState) (w : WorkerId) : Uuid → Option WorkerId := fun id ↦
  if s.lock id = some w then none else s.lock id

/-- `ensure_queued_job`. Whether it finds a row or loses the insert, the relation stays as it is. -/
def ensureQueued (s : JobState) (id : Uuid) (args : ClaimArgs) (now flushedAt : DateTime) :
    JobState :=
  { s with table := (s.table.insert (queuedNew id args now flushedAt)).getD s.table }

/-- `select(ApplicationJob).where(operation_id == …).with_for_update()`, skipped without an operation
id. It waits for a lock that another transaction holds. -/
def select (s : JobState) (w : WorkerId) (args : ClaimArgs) (now : DateTime) (insertAttempt : ℕ) :
    Option JobState :=
  match (given args.operationId).bind fun op ↦ s.table.find (byOperation op) with
  | none => some (s.setCall w (.inserting args now insertAttempt))
  | some job =>
    if s.lock job.id = none then
      some { s.setCall w (.holding args now job) with
        lock := Function.update s.lock job.id (some w) }
    else none

/-- `db.add(job)` and `commit`, or the `IntegrityError` handler. -/
def insert (s : JobState) (w : WorkerId) (args : ClaimArgs) (now : DateTime) (insertAttempt : ℕ)
    (id : Uuid) (flushedAt : DateTime) : JobState :=
  match s.table.insert (claimNew id args now flushedAt) with
  | some T =>
    { s.setCall w (.claimed args (claimNewResult id)) with
      table := T
      granted := s.granted ++ [⟨w, args.operationId, 1⟩] }
  | none =>
    -- Somebody else has inserted the row in between. The handler looks again, once.
    if given args.operationId = none ∨ insertAttempt ≠ 0 then s.setCall w .over
    else s.setCall w (.selecting args now (insertAttempt + 1))

/-- The rest of `_claim_job` on a row it has locked: the `UPDATE`, the `COMMIT` and the answer. -/
def commit (S : Settings) (s : JobState) (w : WorkerId) (args : ClaimArgs) (now : DateTime)
    (loaded : ApplicationJob) (flushedAt : DateTime) : JobState :=
  let r := claimExisting S args now loaded
  let t := { s with
    table := s.table.modify (byId loaded.id) (loaded.writeBack r.1 flushedAt)
    lock := s.locksWithout w }
  if r.2.shouldRun then
    { t.setCall w (.claimed args r.2) with
      granted := s.granted ++ [⟨w, args.operationId, r.2.attempt⟩] }
  else t.setCall w .over

/-- `runner()`. -/
def start (s : JobState) (w : WorkerId) (args : ClaimArgs) (claim : ClaimResult) : JobState :=
  { s.setCall w (.running claim) with
    started := s.started ++ [⟨w, args.operationId, claim.attempt⟩] }

/-- `db.get(ApplicationJob, job_id)`, and everything that follows up to the commit. -/
def read (S : Settings) (s : JobState) (w : WorkerId) (claim : ClaimResult)
    (outcome : RunnerOutcome) (now : DateTime) : JobState :=
  match s.table.find (byId claim.jobId) with
  | none => s.setCall w .over
  | some job =>
    if settleJob S outcome now job = job then s.setCall w .over
    else s.setCall w (.writing outcome now job)

/-- The `UPDATE` and the `COMMIT` of a finish or a release. It waits for a lock that a claim holds. -/
def write (S : Settings) (s : JobState) (w : WorkerId) (outcome : RunnerOutcome) (now : DateTime)
    (loaded : ApplicationJob) (flushedAt : DateTime) : Option JobState :=
  if s.lock loaded.id = none then
    some { s.setCall w .over with
      table := s.table.modify (byId loaded.id)
        (loaded.writeBack (settleJob S outcome now loaded) flushedAt) }
  else none

/-- The process dies: its transaction is rolled back. -/
def crash (s : JobState) (w : WorkerId) : JobState :=
  { s.setCall w .over with lock := s.locksWithout w }

end JobState

/-- One statement. -/
def jobStep (S : Settings) (s : JobState) : JobAction → Option JobState
  | .ensureQueued id args now flushedAt => some (s.ensureQueued id args now flushedAt)
  | .call w args now =>
    match s.calls w with
    | .idle => some (s.setCall w (.selecting args now 0))
    | _ => none
  | .select w =>
    match s.calls w with
    | .selecting args now k => s.select w args now k
    | _ => none
  | .insert w id flushedAt =>
    match s.calls w with
    | .inserting args now k => some (s.insert w args now k id flushedAt)
    | _ => none
  | .commit w flushedAt =>
    match s.calls w with
    | .holding args now loaded => some (s.commit S w args now loaded flushedAt)
    | _ => none
  | .start w =>
    match s.calls w with
    | .claimed args claim => some (s.start w args claim)
    | _ => none
  | .endRun w outcome =>
    match s.calls w with
    | .running claim => some (s.setCall w (.ended claim outcome))
    | _ => none
  | .read w now =>
    match s.calls w with
    | .ended claim outcome => some (s.read S w claim outcome now)
    | _ => none
  | .write w flushedAt =>
    match s.calls w with
    | .writing outcome now loaded => s.write S w outcome now loaded flushedAt
    | _ => none
  | .crash w => some (s.crash w)

/-- The job lifecycle, from an empty relation. -/
def jobMachine (S : Settings) : Machine JobState JobAction where
  init s := s = .initial
  step := jobStep S

/-! ### What a statement can do -/

/-- **The statements, one by one**, each with what it requires and the state it leaves. Everything
below is proved by cases on this relation. -/
inductive JobStep (S : Settings) (s : JobState) : JobAction → JobState → Prop
  | ensureQueued (id : Uuid) (args : ClaimArgs) (now flushedAt : DateTime) :
    JobStep S s (.ensureQueued id args now flushedAt) (s.ensureQueued id args now flushedAt)
  | call {w : WorkerId} {args : ClaimArgs} {now : DateTime} (hcall : s.calls w = .idle) :
    JobStep S s (.call w args now) (s.setCall w (.selecting args now 0))
  | selectNone {w : WorkerId} {args : ClaimArgs} {now : DateTime} {k : ℕ}
    (hcall : s.calls w = .selecting args now k) :
    JobStep S s (.select w) (s.setCall w (.inserting args now k))
  | selectSome {w : WorkerId} {args : ClaimArgs} {now : DateTime} {k : ℕ} {op : String}
    {job : ApplicationJob} (hcall : s.calls w = .selecting args now k)
    (hop : args.operationId = some op) (hfind : s.table.find (byOperation op) = some job)
    (hlock : s.lock job.id = none) :
    JobStep S s (.select w) { s.setCall w (.holding args now job) with
      lock := Function.update s.lock job.id (some w) }
  | insertRow {w : WorkerId} {args : ClaimArgs} {now : DateTime} {k : ℕ} {id : Uuid}
    {flushedAt : DateTime} {T : JobTable} (hcall : s.calls w = .inserting args now k)
    (hins : s.table.insert (claimNew id args now flushedAt) = some T) :
    JobStep S s (.insert w id flushedAt) { s.setCall w (.claimed args (claimNewResult id)) with
      table := T
      granted := s.granted ++ [⟨w, args.operationId, 1⟩] }
  | insertRetry {w : WorkerId} {args : ClaimArgs} {now : DateTime} {k : ℕ} {id : Uuid}
    {flushedAt : DateTime} (hcall : s.calls w = .inserting args now k) :
    JobStep S s (.insert w id flushedAt) (s.setCall w (.selecting args now (k + 1)))
  | insertRaise {w : WorkerId} {args : ClaimArgs} {now : DateTime} {k : ℕ} {id : Uuid}
    {flushedAt : DateTime} (hcall : s.calls w = .inserting args now k) :
    JobStep S s (.insert w id flushedAt) (s.setCall w .over)
  | commitRun {w : WorkerId} {args : ClaimArgs} {now : DateTime} {loaded : ApplicationJob}
    {flushedAt : DateTime} (hcall : s.calls w = .holding args now loaded)
    (hrun : (claimExisting S args now loaded).2.shouldRun = true) :
    JobStep S s (.commit w flushedAt)
      { s.setCall w (.claimed args (claimExisting S args now loaded).2) with
        table := s.table.modify (byId loaded.id)
          (loaded.writeBack (claimExisting S args now loaded).1 flushedAt)
        lock := s.locksWithout w
        granted := s.granted ++ [⟨w, args.operationId, (claimExisting S args now loaded).2.attempt⟩] }
  | commitSkip {w : WorkerId} {args : ClaimArgs} {now : DateTime} {loaded : ApplicationJob}
    {flushedAt : DateTime} (hcall : s.calls w = .holding args now loaded)
    (hskip : (claimExisting S args now loaded).2.shouldRun = false) :
    JobStep S s (.commit w flushedAt)
      { s.setCall w .over with
        table := s.table.modify (byId loaded.id)
          (loaded.writeBack (claimExisting S args now loaded).1 flushedAt)
        lock := s.locksWithout w }
  | start {w : WorkerId} {args : ClaimArgs} {claim : ClaimResult}
    (hcall : s.calls w = .claimed args claim) : JobStep S s (.start w) (s.start w args claim)
  | endRun {w : WorkerId} {claim : ClaimResult} {outcome : RunnerOutcome}
    (hcall : s.calls w = .running claim) :
    JobStep S s (.endRun w outcome) (s.setCall w (.ended claim outcome))
  | readOver {w : WorkerId} {claim : ClaimResult} {outcome : RunnerOutcome} {now : DateTime}
    (hcall : s.calls w = .ended claim outcome) : JobStep S s (.read w now) (s.setCall w .over)
  | readRow {w : WorkerId} {claim : ClaimResult} {outcome : RunnerOutcome} {now : DateTime}
    {job : ApplicationJob} (hcall : s.calls w = .ended claim outcome)
    (hfind : s.table.find (byId claim.jobId) = some job) :
    JobStep S s (.read w now) (s.setCall w (.writing outcome now job))
  | write {w : WorkerId} {outcome : RunnerOutcome} {now : DateTime} {loaded : ApplicationJob}
    {flushedAt : DateTime} (hcall : s.calls w = .writing outcome now loaded)
    (hlock : s.lock loaded.id = none) :
    JobStep S s (.write w flushedAt) { s.setCall w .over with
      table := s.table.modify (byId loaded.id)
        (loaded.writeBack (settleJob S outcome now loaded) flushedAt) }
  | crash (w : WorkerId) : JobStep S s (.crash w) (s.crash w)

section Steps

variable {S : Settings} {s t : JobState} {a : JobAction}

/-- Every enabled statement is one of those. -/
theorem jobStep_sound (h : jobStep S s a = some t) : JobStep S s a t := by
  cases a with
  | ensureQueued id args now flushedAt =>
    obtain rfl := Option.some.inj h
    exact .ensureQueued id args now flushedAt
  | call w args now =>
    simp only [jobStep] at h
    split at h
    · next hcall =>
      obtain rfl := Option.some.inj h
      exact .call hcall
    · cases h
  | select w =>
    simp only [jobStep] at h
    split at h
    · next args now k hcall =>
      rw [JobState.select] at h
      split at h
      · obtain rfl := Option.some.inj h
        exact .selectNone hcall
      · next job hjob =>
        obtain ⟨op, hop, hfind⟩ := Option.bind_eq_some_iff.1 hjob
        split at h
        · next hlock =>
          obtain rfl := Option.some.inj h
          exact .selectSome hcall (given_eq_some_iff.1 hop).1 hfind hlock
        · cases h
    · cases h
  | insert w id flushedAt =>
    simp only [jobStep] at h
    split at h
    · next args now k hcall =>
      obtain rfl := Option.some.inj h
      rw [JobState.insert]
      split
      · next T hins => exact .insertRow hcall hins
      · split
        · exact .insertRaise hcall
        · exact .insertRetry hcall
    · cases h
  | commit w flushedAt =>
    simp only [jobStep] at h
    split at h
    · next args now loaded hcall =>
      obtain rfl := Option.some.inj h
      rw [JobState.commit]
      split
      · next hrun => exact .commitRun hcall hrun
      · next hskip => exact .commitSkip hcall (by simpa using hskip)
    · cases h
  | start w =>
    simp only [jobStep] at h
    split at h
    · next args claim hcall =>
      obtain rfl := Option.some.inj h
      exact .start hcall
    · cases h
  | endRun w outcome =>
    simp only [jobStep] at h
    split at h
    · next claim hcall =>
      obtain rfl := Option.some.inj h
      exact .endRun hcall
    · cases h
  | read w now =>
    simp only [jobStep] at h
    split at h
    · next claim outcome hcall =>
      obtain rfl := Option.some.inj h
      rw [JobState.read]
      split
      · exact .readOver hcall
      · next job hfind =>
        split
        · exact .readOver hcall
        · exact .readRow hcall hfind
    · cases h
  | write w flushedAt =>
    simp only [jobStep] at h
    split at h
    · next outcome now loaded hcall =>
      rw [JobState.write] at h
      split at h
      · next hlock =>
        obtain rfl := Option.some.inj h
        exact .write hcall hlock
      · cases h
    · cases h
  | crash w =>
    obtain rfl := Option.some.inj h
    exact .crash w

/-- Statements hand the arguments of a claim on, and only a call brings new ones. -/
theorem claimArgs_of_step (h : jobStep S s a = some t) {w : WorkerId} {args : ClaimArgs}
    (hargs : (t.calls w).claimArgs = some args) :
    (s.calls w).claimArgs = some args ∨ ∃ now, a = .call w args now := by
  have hset : ∀ v c, t.calls = Function.update s.calls v c →
      (c.claimArgs = some args → (s.calls v).claimArgs = some args ∨ ∃ now, a = .call v args now) →
      (s.calls w).claimArgs = some args ∨ ∃ now, a = .call w args now := by
    intro v c hcalls hc
    rcases Machine.update_cases hcalls w with ⟨rfl, hw⟩ | ⟨-, hw⟩
    · exact hc (hw ▸ hargs)
    · exact .inl (hw ▸ hargs)
  cases jobStep_sound h with
  | ensureQueued => exact .inl hargs
  | @call v args' now hcall =>
    exact hset v _ rfl fun hc ↦ .inr ⟨now, by rw [Option.some.inj hc]⟩
  | selectNone hcall | selectSome hcall | insertRetry hcall =>
    exact hset _ _ rfl fun hc ↦ .inl (by rw [hcall]; exact hc)
  | insertRow | insertRaise | commitRun | commitSkip | start | endRun | readOver | readRow | write
  | crash => exact hset _ _ rfl fun hc ↦ by cases hc

end Steps

/-! ### Under a row lock -/

/-- A claim that has loaded its row holds the lock on it, and the row is still what it loaded. -/
def LockInv (s : JobState) : Prop :=
  ∀ w args now loaded, s.calls w = .holding args now loaded →
    s.lock loaded.id = some w ∧ s.table.find (byId loaded.id) = some loaded ∧
      ∃ op, args.operationId = some op ∧ loaded.operationId = some op

section Locks

variable {S : Settings} {s t : JobState} {a : JobAction}

/-- The lock invariant survives a statement of `w` that leaves alone the locks of the others and the
rows under them. -/
theorem LockInv.frame {w : WorkerId} {c : Call} (hinv : LockInv s)
    (hcalls : t.calls = Function.update s.calls w c)
    (hc : ∀ args now loaded, c ≠ .holding args now loaded)
    (hlock : ∀ v id, v ≠ w → s.lock id = some v → t.lock id = some v)
    (htable : ∀ v id job, v ≠ w → s.lock id = some v → s.table.find (byId id) = some job →
      t.table.find (byId id) = some job) : LockInv t := by
  intro v args now loaded hv
  rcases Machine.update_cases hcalls v with ⟨-, hcall⟩ | ⟨hne, hcall⟩
  · exact absurd (hcall.symm.trans hv) (hc _ _ _)
  · obtain ⟨hl, hf, hop⟩ := hinv v args now loaded (hcall.symm.trans hv)
    exact ⟨hlock v _ hne hl, htable v _ _ hne hl hf, hop⟩

/-- A write to one row leaves the others alone. -/
theorem find_modify_byId_ne (T : JobTable) {id id' : Uuid} (f : ApplicationJob → ApplicationJob)
    (hne : id' ≠ id) : (T.modify (byId id) f).find (byId id') = T.find (byId id') := by
  rw [Table.find_modify]
  rcases hf : T.find (byId id') with - | job
  · rfl
  · have hid : job.id = id' := (byId_ident id' job).1 (Table.sel_of_find hf)
    rw [Option.map_some, Table.modifyRow_of_neg]
    rw [← Bool.not_eq_true, byId_ident]
    exact fun h ↦ hne (hid.symm.trans h)

theorem locksWithout_of_ne {v w : WorkerId} {id : Uuid} (hne : v ≠ w) (h : s.lock id = some v) :
    s.locksWithout w id = some v := by
  rw [JobState.locksWithout, if_neg (by simpa [h] using hne), h]

/-- **What is read under a lock stays read.** -/
theorem LockInv.step (hinv : LockInv s) (h : jobStep S s a = some t) : LockInv t := by
  cases jobStep_sound h with
  | ensureQueued id args now flushedAt =>
    intro w args' now' loaded hw
    obtain ⟨hl, hf, hop⟩ := hinv w args' now' loaded hw
    refine ⟨hl, ?_, hop⟩
    rw [JobState.ensureQueued]
    rcases hins : s.table.insert (queuedNew id args now flushedAt) with - | T
    · exact hf
    · exact Table.find_of_insert_of_some hins hf
  | @selectSome w args now k op job hcall hop hfind hlock =>
    intro v args' now' loaded hv
    rcases eq_or_ne v w with rfl | hne
    · -- The lock was free, and the row is the one that was just read.
      have hc : Call.holding args now job = .holding args' now' loaded := by
        simpa [JobState.setCall] using hv
      cases hc
      refine ⟨Function.update_self .., ?_, op, hop, (byOperation_ident op job).1 (Table.sel_of_find hfind)⟩
      exact Table.find_eq_some_of_mem (single_byId _) (Table.mem_of_find hfind)
        ((byId_ident _ _).2 rfl)
    · have hc : s.calls v = .holding args' now' loaded := by
        simpa [JobState.setCall, Function.update_of_ne hne] using hv
      obtain ⟨hl, hf, hop'⟩ := hinv v args' now' loaded hc
      refine ⟨?_, hf, hop'⟩
      have hid : loaded.id ≠ job.id := fun hid ↦ by
        rw [hid, hlock] at hl
        cases hl
      simpa [JobState.setCall, Function.update_of_ne hid] using hl
  | insertRow hcall hins =>
    exact hinv.frame rfl (by simp) (fun _ _ _ hl ↦ hl)
      fun _ _ _ _ _ hf ↦ Table.find_of_insert_of_some hins hf
  | @commitRun w args now loaded flushedAt hcall _
  | @commitSkip w args now loaded flushedAt hcall _ =>
    -- The row that is written is locked by `w`, and the others hold the locks on theirs.
    refine hinv.frame rfl (by simp) (fun _ _ ↦ locksWithout_of_ne) fun v id job hne hl hf ↦ ?_
    have hid : id ≠ loaded.id := fun hid ↦ by
      rw [hid, (hinv w _ _ _ hcall).1] at hl
      exact hne (Option.some.inj hl).symm
    exact (find_modify_byId_ne _ _ hid).trans hf
  | @write w outcome now loaded flushedAt hcall hlock =>
    -- A write waits for the lock on its row, so it is to a row that nobody holds.
    refine hinv.frame rfl (by simp) (fun _ _ _ hl ↦ hl) fun v id job _ hl hf ↦ ?_
    have hid : id ≠ loaded.id := fun hid ↦ by
      rw [hid, hlock] at hl
      cases hl
    exact (find_modify_byId_ne _ _ hid).trans hf
  | crash w =>
    exact hinv.frame rfl (by simp) (fun _ _ ↦ locksWithout_of_ne) fun _ _ _ _ _ hf ↦ hf
  | call | selectNone | insertRetry | insertRaise | start | endRun | readOver | readRow =>
    exact hinv.frame rfl (by simp) (fun _ _ _ hl ↦ hl) fun _ _ _ _ _ hf ↦ hf

theorem LockInv.reachable {C : JobState → JobAction → Prop}
    (h : (jobMachine S).Reachable C s) : LockInv s := by
  refine h.invariant ?_ fun s a t hs _ hst ↦ hs.step hst
  rintro s rfl w args now loaded hw
  cases hw

/-! ### No step takes an attempt back -/

/-- Every row of the first relation is in the second, with no fewer attempts. -/
def Grows (T T' : JobTable) : Prop :=
  ∀ p job, T.find p = some job → ∃ job', T'.find p = some job' ∧
    jobSchema.ident job' = jobSchema.ident job ∧ job.attempts ≤ job'.attempts

theorem Grows.refl (T : JobTable) : Grows T T := fun _ job hf ↦ ⟨job, hf, rfl, le_rfl⟩

theorem Grows.of_insert {T T' : JobTable} {r : ApplicationJob} (h : T.insert r = some T') :
    Grows T T' :=
  fun _ job hf ↦ ⟨job, Table.find_of_insert_of_some h hf, rfl, le_rfl⟩

theorem Grows.of_modify {T : JobTable} {id : Uuid} {f : ApplicationJob → ApplicationJob}
    (hf : ∀ job, T.find (byId id) = some job → job.attempts ≤ (f job).attempts) :
    Grows T (T.modify (byId id) f) := by
  intro p job hfind
  refine ⟨Table.modifyRow jobSchema (byId id) f job, ?_, Table.ident_modifyRow _ _ _, ?_⟩
  · rw [Table.find_modify, hfind, Option.map_some]
  · rw [Table.modifyRow]
    split
    · next h =>
      exact hf job (Table.find_eq_some_of_mem (single_byId id) (Table.mem_of_find hfind) h.1)
    · exact le_rfl

/-- The row a claim writes, over the row it holds. -/
theorem attempts_le_writeBack_claim (args : ClaimArgs) (now flushedAt : DateTime)
    (job : ApplicationJob) :
    job.attempts ≤ (job.writeBack (claimExisting S args now job).1 flushedAt job).attempts := by
  rw [ApplicationJob.writeBack_attempts_self]
  exact attempts_le_claimExisting

theorem step_grows (hinv : LockInv s) (h : jobStep S s a = some t) : Grows s.table t.table := by
  cases jobStep_sound h with
  | ensureQueued id args now flushedAt =>
    rw [JobState.ensureQueued]
    rcases hins : s.table.insert (queuedNew id args now flushedAt) with - | T
    · exact Grows.refl _
    · exact Grows.of_insert hins
  | insertRow hcall hins => exact Grows.of_insert hins
  | @commitRun w args now loaded flushedAt hcall _
  | @commitSkip w args now loaded flushedAt hcall _ =>
    refine Grows.of_modify fun job hjob ↦ ?_
    obtain rfl := Option.some.inj ((hinv w _ _ _ hcall).2.1.symm.trans hjob)
    exact attempts_le_writeBack_claim args now flushedAt _
  | write hcall hlock =>
    -- The row may have changed since it was read, but settling does not write `attempts`.
    refine Grows.of_modify fun job _ ↦ le_of_eq ?_
    exact (ApplicationJob.writeBack_attempts (settleJob_frame _).2 _ _).symm
  | call | selectNone | selectSome | insertRetry | insertRaise | start | endRun | readOver
  | readRow | crash => exact Grows.refl _

end Locks

end GenericApp
