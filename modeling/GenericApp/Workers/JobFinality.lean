import GenericApp.Workers.JobAttempts

/-!
# Which writes may overwrite a terminal status

`_finish_job` leaves a row that is `succeeded` or `dead_letter` alone, but it tests the row that it
**read**, and it writes later. Nothing orders the two against another worker's commit, so a row that
turned terminal in between is overwritten. A claim has no such gap: it tests the row under the lock it
writes it with.

`JobState.lateWrite` is that gap as a test of the state before the write: the row has turned terminal
since it was read, and the outcome that the runner had would record another status.
`write_keeps_status_iff` says that the test is exact, step for step, and `terminal_is_final` that a run
without late writes keeps every terminal status and grants no claim on it.
`terminal_is_overwritten` is a run with one.
-/

namespace GenericApp

open Machine Py

variable {S : Settings} {s t u : JobState} {a : JobAction}

/-! ### The property -/

/-- From `s` to `t`, a terminal status has stayed what it was and no claim of its operation was
granted. -/
def TerminalKept (s t : JobState) : Prop :=
  ∀ op job, s.table.find (byOperation op) = some job → job.status.isFinal = true →
    (∃ job', t.table.find (byOperation op) = some job' ∧ job'.status = job.status) ∧
      t.attemptsGranted op = s.attemptsGranted op

theorem TerminalKept.refl (s : JobState) : TerminalKept s s :=
  fun _ job hf _ ↦ ⟨⟨job, hf, rfl⟩, rfl⟩

theorem TerminalKept.trans (h₁ : TerminalKept s t) (h₂ : TerminalKept t u) : TerminalKept s u := by
  intro op job hf hfinal
  obtain ⟨⟨job', hf', hst'⟩, hg'⟩ := h₁ op job hf hfinal
  obtain ⟨⟨job'', hf'', hst''⟩, hg''⟩ := h₂ op job' hf' (by rw [hst', hfinal])
  exact ⟨⟨job'', hf'', hst''.trans hst'⟩, hg''.trans hg'⟩

/-! ### Late writes -/

/-- What the outcome of a runner records over a row that it read as `loaded`, where it is the status
that `current` has anyway. -/
def sameStatus (outcome : RunnerOutcome) (loaded current : ApplicationJob) : Bool :=
  match outcome with
  | .returned => current.status = .succeeded
  | .effectInFlight _ => loaded.status ≠ .running
  | .raised _ => if exhausted loaded then current.status = .deadLetter else loaded.status = .failed

/-- The row has turned terminal since `w` read it, and `w` is about to record another status. -/
def JobState.lateWrite (s : JobState) (w : WorkerId) : Bool :=
  match s.calls w with
  | .writing outcome _ loaded =>
    (s.table.find (byId loaded.id)).any fun current ↦
      current.status.isFinal && !loaded.status.isFinal && !sameStatus outcome loaded current
  | _ => false

/-- No finish and no release writes late. -/
def NoLateWrite (s : JobState) : JobAction → Prop
  | .write w _ => s.lateWrite w = false
  | _ => True

instance (s : JobState) (a : JobAction) : Decidable (NoLateWrite s a) :=
  match a with
  | .write w _ => inferInstanceAs (Decidable (s.lateWrite w = false))
  | .ensureQueued .. | .call .. | .select .. | .insert .. | .commit .. | .start .. | .endRun ..
  | .read .. | .crash .. => isTrue trivial

/-- **Exactly the late writes change a terminal status.** -/
theorem write_keeps_status_iff (outcome : RunnerOutcome) (now flushedAt : DateTime)
    (loaded current : ApplicationJob) (hfinal : current.status.isFinal = true) :
    (loaded.writeBack (settleJob S outcome now loaded) flushedAt current).status = current.status ↔
      loaded.status.isFinal = true ∨ sameStatus outcome loaded current = true := by
  rw [ApplicationJob.writeBack_status, ApplicationJob.column]
  rcases hl : loaded.status.isFinal with - | -
  · rw [or_iff_right (by simp)]
    have hne : loaded.status ≠ current.status := fun h ↦ by simp [h, hfinal] at hl
    cases outcome with
    | returned =>
      have hrec : (settleJob S .returned now loaded).status = .succeeded := by
        simp [settleJob, finishJob_of_not_isFinal hl]
      have hne' : JobStatus.succeeded ≠ loaded.status := fun h ↦ by
        simp [← h, JobStatus.isFinal] at hl
      rw [hrec, if_neg hne']
      simp [sameStatus, eq_comm]
    | effectInFlight exc =>
      by_cases hrun : loaded.status = .running
      · have hrec : (settleJob S (.effectInFlight exc) now loaded).status = .queued := by
          simp [settleJob, releaseJobForRetry_of_running hrun]
        rw [hrec, if_neg (by simp [hrun])]
        have hqueued : JobStatus.queued ≠ current.status := fun h ↦ by
          simp [← h, JobStatus.isFinal] at hfinal
        simp [sameStatus, hrun, hqueued]
      · have hrec : settleJob S (.effectInFlight exc) now loaded = loaded := by
          simp [settleJob, releaseJobForRetry_of_not_running hrun]
        rw [hrec, if_pos rfl]
        simp [sameStatus, hrun]
    | raised exc =>
      rcases hex : exhausted loaded with - | -
      · have hrec : (settleJob S (.raised exc) now loaded).status = .failed := by
          simp [settleJob, finishJob_of_not_isFinal hl, hex]
        have hfailed : JobStatus.failed ≠ current.status := fun h ↦ by
          simp [← h, JobStatus.isFinal] at hfinal
        rw [hrec]
        by_cases hf : loaded.status = .failed
        · rw [if_pos hf.symm]
          simp [sameStatus, hex, hf]
        · rw [if_neg (Ne.symm hf)]
          simp [sameStatus, hex, hf, hfailed]
      · have hrec : (settleJob S (.raised exc) now loaded).status = .deadLetter := by
          simp [settleJob, finishJob_of_not_isFinal hl, hex]
        have hne' : JobStatus.deadLetter ≠ loaded.status := fun h ↦ by
          simp [← h, JobStatus.isFinal] at hl
        rw [hrec, if_neg hne']
        simp [sameStatus, hex, eq_comm]
  · rw [settleJob_of_returnsEarly (returnsEarly_of_isFinal outcome hl), if_pos rfl]
    simp

/-! ### One statement -/

/-- The status of a row after a write to a row, where the write keeps it. -/
theorem status_of_modify {T : JobTable} {id : Uuid} {f : ApplicationJob → ApplicationJob}
    {p : Uuid × Option String → Bool} {job : ApplicationJob} (hfind : T.find p = some job)
    (hf : job.id = id → (f job).status = job.status) :
    ∃ job', (T.modify (byId id) f).find p = some job' ∧ job'.status = job.status := by
  refine ⟨Table.modifyRow jobSchema (byId id) f job, ?_, ?_⟩
  · rw [Table.find_modify, hfind, Option.map_some]
  · rw [Table.modifyRow]
    split
    · next h => exact hf ((byId_ident id job).1 h.1)
    · rfl

theorem attemptsGranted_append_of_ne {g : Grant} {op : String} (h : t.granted = s.granted ++ [g])
    (hne : g.operationId ≠ some op) : t.attemptsGranted op = s.attemptsGranted op := by
  simp [JobState.attemptsGranted, h, List.filter_append, hne]

/-- The row a claim holds is the row its operation is looked up to. -/
theorem LockInv.eq_loaded (hlock : LockInv s) {w : WorkerId} {args : ClaimArgs} {now : DateTime}
    {loaded job : ApplicationJob} {op : String} (hcall : s.calls w = .holding args now loaded)
    (hfind : s.table.find (byOperation op) = some job)
    (hsame : args.operationId = some op ∨ job.id = loaded.id) : job = loaded := by
  obtain ⟨-, hf, op', hop, hloaded⟩ := hlock w args now loaded hcall
  rcases hsame with h | h
  · obtain rfl : op' = op := Option.some.inj (hop.symm.trans h)
    exact Table.eq_of_mem_of_sel (single_byOperation op') (Table.mem_of_find hfind)
      (Table.mem_of_find hf) (Table.sel_of_find hfind) ((byOperation_ident _ _).2 hloaded)
  · exact Table.eq_of_mem_of_sel (single_byId loaded.id) (Table.mem_of_find hfind)
      (Table.mem_of_find hf) ((byId_ident _ _).2 h) (Table.sel_of_find hf)

/-- **A statement that is no late write keeps every terminal status and grants nothing on it.** -/
theorem TerminalKept.step (hlock : LockInv s) (hC : NoLateWrite s a) (h : jobStep S s a = some t) :
    TerminalKept s t := by
  intro op job hfind hfinal
  cases jobStep_sound h with
  | ensureQueued id args now flushedAt =>
    refine ⟨⟨job, ?_, rfl⟩, rfl⟩
    rw [JobState.ensureQueued]
    rcases hins : s.table.insert (queuedNew id args now flushedAt) with - | T
    · exact hfind
    · exact Table.find_of_insert_of_some hins hfind
  | @insertRow w args now k id flushedAt T hcall hins =>
    refine ⟨⟨job, Table.find_of_insert_of_some hins hfind, rfl⟩, ?_⟩
    refine attemptsGranted_append_of_ne rfl fun hop ↦ ?_
    rw [(find_byOperation_of_insert hins hop).1] at hfind
    cases hfind
  | @commitRun w args now loaded flushedAt hcall hrun =>
    -- A claim that runs holds a row that is not terminal, so it is not this one.
    have hne : ¬ (args.operationId = some op ∨ job.id = loaded.id) := fun hsame ↦ by
      obtain rfl := hlock.eq_loaded hcall hfind hsame
      have := (claimExisting_of_shouldRun hrun).1
      rw [hfinal] at this
      cases this
    rw [not_or] at hne
    exact ⟨status_of_modify hfind fun hid ↦ absurd hid hne.2,
      attemptsGranted_append_of_ne rfl hne.1⟩
  | @commitSkip w args now loaded flushedAt hcall hskip =>
    refine ⟨status_of_modify hfind fun hid ↦ ?_, rfl⟩
    obtain rfl := hlock.eq_loaded hcall hfind (.inr hid)
    rw [(claimExisting_of_isFinal hfinal).1, ApplicationJob.writeBack, if_pos rfl]
  | @write w outcome now loaded flushedAt hcall _ =>
    refine ⟨status_of_modify hfind fun hid ↦ ?_, rfl⟩
    have hcur : s.table.find (byId loaded.id) = some job :=
      Table.find_eq_some_of_mem (single_byId _) (Table.mem_of_find hfind) ((byId_ident _ _).2 hid)
    rw [write_keeps_status_iff outcome now flushedAt loaded job hfinal]
    have hlate : s.lateWrite w = false := hC
    rw [JobState.lateWrite, hcall] at hlate
    simp only [hcur, Option.any_some, hfinal, Bool.true_and, Bool.and_eq_false_iff,
      Bool.not_eq_false'] at hlate
    exact hlate
  | call | selectNone | selectSome | insertRetry | insertRaise | start | endRun | readOver
  | readRow | crash => exact ⟨⟨job, hfind, rfl⟩, rfl⟩

/-! ### Runs -/

/-- **Terminal statuses are final in every run without late writes**, from every state that any run
reaches. -/
theorem terminal_is_final (S : Settings) (s t : JobState) (hs : (jobMachine S).Reachable anyStep s)
    (hst : (jobMachine S).Later NoLateWrite s t) : TerminalKept s t :=
  hst.invariant (fun s _ ↦ TerminalKept.refl s) (fun _ _ _ hlock _ h ↦ hlock.step h)
    (fun _ _ _ _ hlock hkept hC h ↦ hkept.trans (TerminalKept.step hlock hC h))
    (LockInv.reachable hs)

/-- A delivery that succeeds. -/
def deliveredRun : List JobAction :=
  let args : ClaimArgs := ⟨"email", ["to"], "job", some "job", 6, true, none⟩
  [.call 0 args 0, .select 0, .insert 0 7 0, .start 0, .endRun 0 .returned, .read 0 1, .write 0 2]

/-- A duplicate of it. -/
def duplicateRun : List JobAction :=
  let args : ClaimArgs := ⟨"email", ["to"], "job", some "job", 6, true, none⟩
  [.call 1 args 900000001, .select 1, .commit 1 900000002]

theorem deliveredRun_isSome :
    ((jobMachine .default).run anyStep .initial deliveredRun).isSome = true := by
  decide

/-- The state that `deliveredRun` ends in. -/
def delivered : JobState := Option.get _ deliveredRun_isSome

theorem duplicateRun_isSome :
    ((jobMachine .default).run NoLateWrite delivered duplicateRun).isSome = true := by
  decide

theorem delivered_terminal_is_final : TerminalKept delivered
    (((jobMachine .default).run NoLateWrite delivered duplicateRun).get duplicateRun_isSome) :=
  terminal_is_final .default _ _ (reachable_run rfl deliveredRun_isSome)
    (later_run duplicateRun_isSome)

/-- A delivery outlives its lease; the redelivery that took over is about to record its success, and
both have read the row. -/
def overtakenPrefix : List JobAction :=
  let args : ClaimArgs := ⟨"email", ["to"], "job", some "job", 6, true, none⟩
  [.call 0 args 0, .select 0, .insert 0 7 0, .start 0,
    .call 1 args 900000000, .select 1, .commit 1 900000000, .start 1,
    .endRun 0 (.raised ⟨"OSError", "timed out"⟩), .endRun 1 .returned,
    .read 0 900000001, .read 1 900000002, .write 1 900000003]

/-- The first delivery writes its failure, and a further delivery is granted a claim. -/
def overtakenSuffix : List JobAction :=
  let args : ClaimArgs := ⟨"email", ["to"], "job", some "job", 6, true, none⟩
  [.write 0 900000004, .call 2 args 900000005, .select 2, .commit 2 900000006]

theorem overtakenPrefix_isSome :
    ((jobMachine .default).run anyStep .initial overtakenPrefix).isSome = true := by
  decide

/-- The redelivery has committed `succeeded`. -/
def overtaken : JobState := Option.get _ overtakenPrefix_isSome

theorem overtakenSuffix_isSome :
    ((jobMachine .default).run anyStep overtaken overtakenSuffix).isSome = true := by
  decide

/-- **A success is overwritten and run again.** -/
theorem terminal_is_overwritten : ¬ ∀ s t, (jobMachine .default).Reachable anyStep s →
    (jobMachine .default).Later anyStep s t → TerminalKept s t := by
  intro h
  have hkept := h overtaken _ (reachable_run rfl overtakenPrefix_isSome)
    (later_run overtakenSuffix_isSome) "job"
  have hfind : (overtaken.table.find (byOperation "job")).map ApplicationJob.status =
      some .succeeded := by decide
  obtain ⟨job, hjob, hstatus⟩ := Option.map_eq_some_iff.1 hfind
  obtain ⟨-, hgranted⟩ := hkept job hjob (by rw [hstatus]; rfl)
  exact absurd hgranted (by decide)

end GenericApp
