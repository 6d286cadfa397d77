import GenericApp.Foundation.Lease
import GenericApp.Foundation.Machine
import GenericApp.Workers.JobService
import Mathlib.Data.Int.ConditionallyCompleteOrder
import Mathlib.Order.ConditionallyCompleteLattice.Basic

/-!
# Claims as leases

One operation, its row, and any number of workers that each execute `run_tracked_sync` on it: a claim
is one step, the runner is one step, and the finish or release that follows is one step. Clock
readings do not decrease.

A running row can be claimed again when it is stale, so a claim is a lease of
`WORKER_JOB_RUNNING_LEASE_SECONDS`, and `JobRun.lease` reads a state as one. What the code does not
have is a fence. `_finish_job` and `_release_job_for_retry` know the row only by its id, so a worker
whose claim has been superseded settles the row of whoever holds it now, unless it runs into the early
return of the function.

* `fence_refines`: as long as no superseded worker settles the row, every step is a move of the lease.
* `attempts_are_fenced`: then a superseded settle leaves the row alone, and no claim is granted while
  another one is within its lease.
* `attempts_are_not_fenced`: without that condition both fail.
-/

namespace GenericApp

open Machine Py

/-- Where a worker stands. -/
inductive Phase
  /-- Has not called `_claim_job`. -/
  | idle
  /-- In its runner, under the claim it was granted at `since`. -/
  | claimed (claim : ClaimResult) (since : DateTime)
  /-- Its runner is over; finishing or releasing is next. -/
  | ended (claim : ClaimResult) (since : DateTime) (outcome : RunnerOutcome)
  /-- Was not granted a claim, or has settled it. -/
  | settled
  deriving DecidableEq

/-- When the claim was granted that the worker has not settled. -/
def Phase.since : Phase → Option DateTime
  | claimed _ since => some since
  | ended _ since _ => some since
  | idle | settled => none

/-- The row of one operation and the workers on it. `latest` is not part of the program: it is the
worker whose claim was granted last. -/
structure JobRun where
  row : Option ApplicationJob
  phase : ℕ → Phase
  latest : Option ℕ
  clock : DateTime

/-- A step, with the worker that takes it and the clock reading it takes. -/
inductive JobRunAction
  | ensureQueued (id : Uuid) (args : ClaimArgs) (now : DateTime)
  | claim (w : ℕ) (id : Uuid) (args : ClaimArgs) (now : DateTime)
  | run (w : ℕ) (outcome : RunnerOutcome)
  | settle (w : ℕ) (now : DateTime)

namespace JobRun

/-- No row, and nobody at work. -/
def initial : JobRun where
  row := none
  phase _ := .idle
  latest := none
  clock := 0

def setPhase (s : JobRun) (w : ℕ) (p : Phase) (now : DateTime) : JobRun :=
  { s with phase := Function.update s.phase w p, clock := now }

/-- `_claim_job` on the row that exists: claimed if it runs, settled if it does not. -/
def claimRow (S : Settings) (s : JobRun) (w : ℕ) (args : ClaimArgs) (now : DateTime)
    (job : ApplicationJob) : JobRun :=
  let r := claimExisting S args now job
  if r.2.shouldRun then
    { s.setPhase w (.claimed r.2 now) now with
      row := some (job.writeBack r.1 now job)
      latest := some w }
  else { s.setPhase w .settled now with row := some (job.writeBack r.1 now job) }

/-- `_finish_job` or `_release_job_for_retry`, by the id of the row. -/
def settleRow (S : Settings) (claim : ClaimResult) (outcome : RunnerOutcome) (now : DateTime)
    (job : ApplicationJob) : ApplicationJob :=
  if job.id = claim.jobId then job.writeBack (settleJob S outcome now job) now job else job

end JobRun

/-- One step of the workers on the operation `op`. -/
def jobRunStep (S : Settings) (op : String) (s : JobRun) : JobRunAction → Option JobRun
  | .ensureQueued id args now =>
    if s.clock ≤ now ∧ given args.operationId = some op then
      some { s with row := some (s.row.getD (queuedNew id args now now)), clock := now }
    else none
  | .claim w id args now =>
    if s.clock ≤ now ∧ given args.operationId = some op ∧ s.phase w = .idle then
      match s.row with
      | none => some { s.setPhase w (.claimed (claimNewResult id) now) now with
          row := some (claimNew id args now now)
          latest := some w }
      | some job => some (s.claimRow S w args now job)
    else none
  | .run w outcome =>
    match s.phase w with
    | .claimed claim since => some (s.setPhase w (.ended claim since outcome) s.clock)
    | _ => none
  | .settle w now =>
    if s.clock ≤ now then
      match s.phase w with
      | .ended claim _ outcome => some { s.setPhase w .settled now with
          row := s.row.map (JobRun.settleRow S claim outcome now) }
      | _ => none
    else none

/-- The workers on one operation, from before its row exists. -/
def jobRunMachine (S : Settings) (op : String) : Machine JobRun JobRunAction where
  init s := s = .initial
  step := jobRunStep S op

/-! ### The row as a lease -/

/-- `WORKER_JOB_RUNNING_LEASE_SECONDS`. -/
def jobLease (S : Settings) : ℤ := timedelta S.workerJobRunningLeaseSeconds

/-- The lease does not stand in the way of a claim at this time. -/
def grantable (S : Settings) (row : Option ApplicationJob) (now : DateTime) : Prop :=
  ∀ job, row = some job →
    job.status.isFinal = false ∧ (job.status = .running → isStaleRunning S job now = true)

/-- What a state says about the lease on its row. -/
def JobRun.lease (S : Settings) (s : JobRun) : Lease ℕ DateTime where
  grantable := grantable S s.row
  owner := s.latest
  since w := (s.phase w).since
  clock := s.clock

/-- The claim of `w` has been superseded by a later one, and `w` has not settled it. -/
def JobRun.superseded (s : JobRun) (w : ℕ) : Bool :=
  (s.phase w).since.isSome && decide (s.latest ≠ some w)

/-- A superseded worker is about to settle a row past the early return of `_finish_job` or
`_release_job_for_retry`. -/
def JobRun.lateSettle (s : JobRun) (w : ℕ) : Bool :=
  match s.phase w with
  | .ended _ _ outcome => s.superseded w && s.row.any fun job ↦ !returnsEarly outcome job
  | _ => false

/-- No superseded worker settles the row. -/
def NoLateSettle (s : JobRun) : JobRunAction → Prop
  | .settle w _ => s.lateSettle w = false
  | _ => True

instance (s : JobRun) (a : JobRunAction) : Decidable (NoLateSettle s a) :=
  match a with
  | .settle w _ => inferInstanceAs (Decidable (s.lateSettle w = false))
  | .ensureQueued .. | .claim .. | .run .. => isTrue trivial

section Refinement

variable {S : Settings} {op : String} {s t : JobRun} {a : JobRunAction}

theorem since_setPhase (s : JobRun) (w : ℕ) (p : Phase) (now : DateTime) :
    (fun v ↦ ((s.setPhase w p now).phase v).since) =
      Function.update (fun v ↦ (s.phase v).since) w p.since :=
  funext fun v ↦ by
    rcases eq_or_ne v w with rfl | hne
    · simp [JobRun.setPhase]
    · simp [JobRun.setPhase, Function.update_of_ne hne]

/-- A running row is left to its claimer until its lease has run out. -/
theorem lease_of_grantable {job : ApplicationJob} {now now' : DateTime}
    (hstatus : job.status = .running) (hstarted : job.startedAt = some now)
    (h : grantable S (some job) now') : now + jobLease S ≤ now' := by
  have hstale := (h job rfl).2 hstatus
  rw [isStaleRunning, hstarted, Option.getD_some, decide_eq_true_iff] at hstale
  exact Int.add_le_of_le_sub_right hstale

theorem writeBack_claimRow (args : ClaimArgs) (now : DateTime) (job : ApplicationJob) :
    (job.writeBack (claimRow args now job) now job).status = .running ∧
      (job.writeBack (claimRow args now job) now job).startedAt = some now := by
  have hne : claimRow args now job ≠ job := fun h ↦ by
    have := congrArg ApplicationJob.attempts h
    simp [claimRow] at this
  have hid : (claimRow args now job).id = job.id := rfl
  have hop : (claimRow args now job).operationId = job.operationId := rfl
  rw [ApplicationJob.writeBack_self hid hop hne]
  exact ⟨rfl, rfl⟩

/-- What a claim that does not run leaves behind is no easier to claim. -/
theorem grantable_of_skip {args : ClaimArgs} {now now' : DateTime} {job : ApplicationJob}
    (hskip : (claimExisting S args now job).2.shouldRun = false)
    (h : grantable S (some (job.writeBack (claimExisting S args now job).1 now job)) now') :
    grantable S (some job) now' := by
  rcases claimExisting_of_not_shouldRun hskip with heq | ⟨-, -, hdead⟩
  · rwa [heq, ApplicationJob.writeBack, if_pos rfl] at h
  · have := (h _ rfl).1
    rw [ApplicationJob.writeBack_status_self, hdead] at this
    cases this

/-- A settle past nobody's early return leaves the row alone. -/
theorem map_settleRow_of_not_lateSettle {w : ℕ} {claim : ClaimResult} {since now : DateTime}
    {outcome : RunnerOutcome} (hphase : s.phase w = .ended claim since outcome)
    (hsup : s.superseded w = true) (hlate : s.lateSettle w = false) :
    s.row.map (JobRun.settleRow S claim outcome now) = s.row := by
  rcases hrow : s.row with - | job
  · rfl
  · have hearly : returnsEarly outcome job = true := by
      simpa [JobRun.lateSettle, hphase, hsup, hrow] using hlate
    rw [Option.map_some, JobRun.settleRow, settleJob_of_returnsEarly hearly,
      ApplicationJob.writeBack, if_pos rfl, ite_self]

/-- **As long as no superseded worker settles the row, the workers keep to the lease.** -/
theorem fence_refines (hC : NoLateSettle s a) (h : jobRunStep S op s a = some t) :
    Lease.Step (jobLease S) (s.lease S) (t.lease S) := by
  cases a with
  | ensureQueued id args now =>
    simp only [jobRunStep] at h
    split at h
    · next hen =>
      obtain rfl := Option.some.inj h
      refine .keep (fun now' hg job hrow ↦ ?_) rfl rfl hen.1
      refine hg job ?_
      show some (s.row.getD _) = some job
      rw [hrow, Option.getD_some]
    · cases h
  | claim w id args now =>
    simp only [jobRunStep] at h
    split at h
    · next hen =>
      have hsettled : (fun v ↦ ((s.setPhase w .settled now).phase v).since) =
          fun v ↦ (s.phase v).since := by
        rw [since_setPhase, Function.update_eq_self_iff, hen.2.2]
        rfl
      split at h
      · next hrow =>
        obtain rfl := Option.some.inj h
        refine .grant w now hen.1 (fun job hjob ↦ ?_) (fun now' hg ↦ ?_) rfl
          (since_setPhase s w _ now) rfl
        · rw [hrow] at hjob
          cases hjob
        · have hnew : grantable S (some (claimNew id args now now)) now' := hg
          exact lease_of_grantable rfl rfl hnew
      · next job hrow =>
        obtain rfl := Option.some.inj h
        rw [JobRun.claimRow]
        split
        · next hrun =>
          obtain ⟨hfinal, hstale, -, hclaim⟩ := claimExisting_of_shouldRun hrun
          refine .grant w now hen.1 (fun job' hjob ↦ ?_) (fun now' ↦ ?_) rfl
            (since_setPhase s w _ now) rfl
          · obtain rfl : job = job' := Option.some.inj (hrow.symm.trans hjob)
            exact ⟨hfinal, hstale⟩
          · refine lease_of_grantable ?_ ?_
            · rw [hclaim]
              exact (writeBack_claimRow args now job).1
            · rw [hclaim]
              exact (writeBack_claimRow args now job).2
        · next hskip =>
          refine .keep (fun now' hg ↦ ?_) rfl hsettled hen.1
          show grantable S s.row now'
          rw [hrow]
          exact grantable_of_skip (by simpa using hskip) hg
    · cases h
  | run w outcome =>
    simp only [jobRunStep] at h
    split at h
    · next claim since hphase =>
      obtain rfl := Option.some.inj h
      refine .keep (fun _ hg ↦ hg) rfl ?_ le_rfl
      refine (since_setPhase s w _ s.clock).trans (Function.update_eq_self_iff.2 ?_)
      show some since = (s.phase w).since
      rw [hphase]
      rfl
    · cases h
  | settle w now =>
    simp only [jobRunStep] at h
    split at h
    · next hen =>
      split at h
      · next claim since outcome hphase =>
        obtain rfl := Option.some.inj h
        refine .finish w (fun howner now' hg ↦ ?_) rfl (since_setPhase s w _ now) hen
        -- A worker that is not the owner leaves the row, and with it the guard, as it was.
        have hsup : s.superseded w = true := by
          simp only [JobRun.superseded, hphase, Phase.since, Option.isSome_some, Bool.true_and]
          exact decide_eq_true howner
        have hg' : grantable S (s.row.map (JobRun.settleRow S claim outcome now)) now' := hg
        rwa [map_settleRow_of_not_lateSettle hphase hsup hC] at hg'
      · cases h
    · cases h

end Refinement

/-! ### Fencing -/

/-- What a step of one worker must not do to the claims of the others. -/
def Fenced (S : Settings) (s : JobRun) (a : JobRunAction) (t : JobRun) : Prop :=
  match a with
  | .settle w _ => s.superseded w = true → t.row = s.row
  | .claim w _ _ now => (t.phase w).since = some now →
      ∀ v g, v ≠ w → (s.phase v).since = some g → g + jobLease S ≤ now
  | _ => True

/-- **Fencing, where superseded workers keep to the early returns.** A superseded worker leaves the row
unchanged, and no claim is granted while another one, neither finished nor released, is within its
lease. -/
theorem attempts_are_fenced (S : Settings) (op : String) (s t : JobRun) (a : JobRunAction)
    (hs : (jobRunMachine S op).Reachable NoLateSettle s) (hC : NoLateSettle s a)
    (h : (jobRunMachine S op).step s a = some t) : Fenced S s a t := by
  have hinv : Lease.Inv (jobLease S) (s.lease S) := by
    refine hs.invariant (I := fun s ↦ Lease.Inv (jobLease S) (s.lease S)) ?_
      fun _ _ _ hinv hC h ↦ hinv.step (fence_refines hC h)
    rintro s rfl
    refine ⟨?_, ?_⟩
    · intro w g hw
      cases hw
    · intro w g hw
      cases hw
  have hlease := fence_refines hC h
  cases a with
  | ensureQueued id args now => trivial
  | run w outcome => trivial
  | settle w now =>
    intro hsup
    change jobRunStep S op s (.settle w now) = some t at h
    simp only [jobRunStep] at h
    split at h
    · split at h
      · next claim since outcome hphase =>
        obtain rfl := Option.some.inj h
        exact map_settleRow_of_not_lateSettle hphase hsup hC
      · cases h
    · cases h
  | claim w id args now =>
    intro hgranted v g hne hv
    have hidle : s.phase w = .idle := by
      change jobRunStep S op s (.claim w id args now) = some t at h
      simp only [jobRunStep] at h
      split at h
      · next hen => exact hen.2.2
      · cases h
    have hbefore : (s.phase w).since = none := by rw [hidle]; rfl
    exact hinv.exclusive_of_step hlease hbefore hgranted hv

/-- The claim that every worker below makes. -/
def emailClaim : ClaimArgs := ⟨"email", ["to"], "job", some "job", 6, true, none⟩

/-- A delivery fails while nobody else is at work. -/
def failedRun : List JobRunAction :=
  [.claim 0 7 emailClaim 0, .run 0 (.raised ⟨"OSError", "timed out"⟩), .settle 0 1]

theorem failedRun_isSome :
    ((jobRunMachine .default "job").run NoLateSettle .initial failedRun).isSome = true := by
  decide

theorem failedRun_claim_isSome :
    ((jobRunMachine .default "job").step (Option.get _ failedRun_isSome)
      (.claim 1 8 emailClaim 2)).isSome = true := by
  decide

theorem failedRun_fenced : Fenced .default (Option.get _ failedRun_isSome) (.claim 1 8 emailClaim 2)
    (Option.get _ failedRun_claim_isSome) :=
  attempts_are_fenced .default "job" _ _ _ (reachable_run rfl failedRun_isSome) trivial
    (Option.some_get _).symm

/-- A delivery outlives its lease, is superseded, and fails. -/
def supersededRun : List JobRunAction :=
  [.claim 0 7 emailClaim 0, .claim 1 8 emailClaim 900000000,
    .run 0 (.raised ⟨"OSError", "timed out"⟩)]

theorem supersededRun_isSome :
    ((jobRunMachine .default "job").run anyStep .initial supersededRun).isSome = true := by
  decide

/-- The second delivery holds the row; the first is about to record its failure in it. -/
def supersededState : JobRun := Option.get _ supersededRun_isSome

theorem supersededState_settle_isSome :
    ((jobRunMachine .default "job").step supersededState (.settle 0 900000001)).isSome = true := by
  decide

/-- The first delivery has recorded its failure, and the row is free while the second still works. -/
def unfencedState : JobRun := Option.get _ supersededState_settle_isSome

theorem unfencedState_claim_isSome :
    ((jobRunMachine .default "job").step unfencedState
      (.claim 2 9 emailClaim 900000002)).isSome = true := by
  decide

/-- **Neither half of fencing holds of all runs.** A superseded worker changes the row, and the next
claim is granted two microseconds into the lease of another. -/
theorem attempts_are_not_fenced :
    (¬ ∀ s w now t, (jobRunMachine .default "job").Reachable anyStep s →
      (jobRunMachine .default "job").step s (.settle w now) = some t →
      Fenced .default s (.settle w now) t) ∧
    (¬ ∀ s w id args now t, (jobRunMachine .default "job").Reachable anyStep s →
      (jobRunMachine .default "job").step s (.claim w id args now) = some t →
      Fenced .default s (.claim w id args now) t) := by
  have hsup : (jobRunMachine .default "job").Reachable anyStep supersededState :=
    reachable_run rfl supersededRun_isSome
  have hfree : (jobRunMachine .default "job").step supersededState (.settle 0 900000001) =
      some unfencedState := (Option.some_get _).symm
  refine ⟨fun h ↦ ?_, fun h ↦ ?_⟩
  · have hrow := h _ 0 900000001 _ hsup hfree (by decide)
    exact absurd hrow (by decide)
  · have hlease := h _ 2 9 emailClaim 900000002 _ (hsup.tail trivial hfree)
      (Option.some_get unfencedState_claim_isSome).symm (by decide) 1 900000000 (by decide)
      (by decide)
    exact absurd hlease (by decide)

end GenericApp
