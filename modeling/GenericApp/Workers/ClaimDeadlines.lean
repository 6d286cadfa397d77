import GenericApp.Workers.JobService

/-!
# Deadlines of claims

A job may have a deadline, and the call that claims it may bring another, which then counts. `_claim_job`
looks at the deadline of the row it finds, and takes over that of the call afterwards: a deadline that
the call brings is stored without being looked at, in a row that is there as in a new one.

* `refusesOverdue_iff`: a claim refuses what is overdue exactly if the deadline of the call has not
  passed, or the row stops the claim for a reason of its own.
* `runs_overdue`: the first claim of a job whose deadline is already over runs it.
-/

namespace GenericApp

open Py

/-- `_claim_job`, given the row that it finds under the operation id: the row as it leaves it, and its
answer. The runner is started if the answer says so. -/
def claimJob (S : Settings) (args : ClaimArgs) (id : Uuid) (now flushedAt : DateTime) :
    Option ApplicationJob → ApplicationJob × ClaimResult
  | none => (claimNew id args now flushedAt, claimNewResult id)
  | some job => claimExisting S args now job

/-- The deadline that counts: that of the call, or that of the row. -/
def effectiveDeadline (args : ClaimArgs) (row : Option ApplicationJob) : Option DateTime :=
  args.deadlineAt.or (row.bind ApplicationJob.deadlineAt)

/-- It has passed. -/
def Overdue (args : ClaimArgs) (now : DateTime) (row : Option ApplicationJob) : Prop :=
  ∃ deadline, effectiveDeadline args row = some deadline ∧ deadline ≤ now

/-- The job is succeeded or dead letter, or runs under a lease that has not run out. -/
def Busy (S : Settings) (now : DateTime) (job : ApplicationJob) : Prop :=
  job.status.isFinal = true ∨ (job.status = .running ∧ isStaleRunning S job now = false)

/-- Nothing is run, and the row is buried, or left as it was because the job is busy. -/
def Refused (S : Settings) (now : DateTime) (row : Option ApplicationJob)
    (r : ApplicationJob × ClaimResult) : Prop :=
  r.2.shouldRun = false ∧ (r.1.status = .deadLetter ∨ (row = some r.1 ∧ Busy S now r.1))

/-- The row stops a claim: the job is busy, or its own deadline has passed, or no attempt is left. -/
def Stops (S : Settings) (args : ClaimArgs) (now : DateTime) (job : ApplicationJob) : Prop :=
  Busy S now job ∨ deadlineExpired job now = true ∨
    orNat (orNat args.maxAttempts job.maxAttempts) args.maxAttempts < job.attempts + 1

section Claims

variable {S : Settings} {args : ClaimArgs} {now : DateTime} {job : ApplicationJob}

/-- The deadline of the row is looked at before anything is run. -/
theorem deadlineExpired_of_shouldRun (h : (claimExisting S args now job).2.shouldRun = true) :
    deadlineExpired job now = false := by
  by_contra hexpired
  rw [Bool.not_eq_false] at hexpired
  rw [claimExisting, if_pos hexpired] at h
  split_ifs at h
  all_goals exact absurd h Bool.false_ne_true

/-- **A claim runs a job unless its row stops it.** -/
theorem refused_claimExisting_iff :
    Refused S now (some job) (claimExisting S args now job) ↔ Stops S args now job := by
  constructor
  · rintro ⟨hrun, -⟩
    rcases claimExisting_cases S args now job with
      ⟨hs, -⟩ | ⟨hs, -⟩ | ⟨hs, hfresh, -⟩ | ⟨-, -, hexpired, -⟩ | ⟨-, -, hmax, -⟩ | ⟨-, -, -, e⟩
    · exact .inl (.inl (by rw [hs]; rfl))
    · exact .inl (.inl (by rw [hs]; rfl))
    · exact .inl (.inr ⟨hs, hfresh⟩)
    · exact .inr (.inl hexpired)
    · exact .inr (.inr hmax)
    · rw [e] at hrun
      exact absurd hrun.symm Bool.false_ne_true
  · intro hstops
    rcases claimExisting_cases S args now job with
      ⟨hs, e⟩ | ⟨hs, e⟩ | ⟨hs, hfresh, e⟩ | ⟨-, -, -, e⟩ | ⟨-, -, -, e⟩ | ⟨hfinal, hstale, hroom, e⟩
    · rw [e]
      exact ⟨rfl, .inr ⟨rfl, .inl (by rw [hs]; rfl)⟩⟩
    · rw [e]
      exact ⟨rfl, .inl hs⟩
    · rw [e]
      exact ⟨rfl, .inr ⟨rfl, .inr ⟨hs, hfresh⟩⟩⟩
    · rw [e]
      exact ⟨rfl, .inl rfl⟩
    · rw [e]
      exact ⟨rfl, .inl rfl⟩
    -- A row under which the job runs has not stopped it.
    · have hrun : (claimExisting S args now job).2.shouldRun = true := by rw [e]; rfl
      obtain (hfin | ⟨hs, hfresh⟩) | hexpired | hmax := hstops
      · exact absurd (hfinal.symm.trans hfin) Bool.false_ne_true
      · exact absurd (hfresh.symm.trans (hstale hs)) Bool.false_ne_true
      · exact absurd ((deadlineExpired_of_shouldRun hrun).symm.trans hexpired) Bool.false_ne_true
      · omega

theorem overdue_iff_of_given {deadline : DateTime} (h : args.deadlineAt = some deadline)
    (row : Option ApplicationJob) : Overdue args now row ↔ deadline ≤ now := by
  have heffective : effectiveDeadline args row = some deadline := by rw [effectiveDeadline, h]; rfl
  constructor
  · rintro ⟨d, hd, hle⟩
    rwa [Option.some.inj (hd.symm.trans heffective)] at hle
  · exact fun hle ↦ ⟨deadline, heffective, hle⟩

/-- Without a deadline of the call, what is overdue is overdue by its row. -/
theorem exists_expired_of_overdue (h : args.deadlineAt = none) {row : Option ApplicationJob}
    (hoverdue : Overdue args now row) : ∃ job, row = some job ∧ deadlineExpired job now = true := by
  obtain ⟨deadline, hdeadline, hle⟩ := hoverdue
  rw [effectiveDeadline, h, Option.none_or] at hdeadline
  obtain ⟨job, hrow, hjob⟩ := Option.bind_eq_some_iff.1 hdeadline
  refine ⟨job, hrow, ?_⟩
  rw [deadlineExpired, hjob]
  exact decide_eq_true hle

end Claims

/-- **When a claim refuses what is overdue.** The deadline of the call has not passed (there may be
none), or the row is there and stops the claim. -/
theorem refusesOverdue_iff (S : Settings) (args : ClaimArgs) (id : Uuid) (now flushedAt : DateTime)
    (row : Option ApplicationJob) :
    (Overdue args now row → Refused S now row (claimJob S args id now flushedAt row)) ↔
      (∀ deadline, args.deadlineAt = some deadline → now < deadline) ∨
        ∃ job, row = some job ∧ Stops S args now job := by
  constructor
  · intro h
    rcases hgiven : args.deadlineAt with - | deadline
    · exact .inl fun _ hsome ↦ nomatch hsome
    rcases lt_or_ge now deadline with hlt | hle
    · exact .inl fun d hd ↦ Option.some.inj hd ▸ hlt
    have hrefused := h ((overdue_iff_of_given hgiven row).2 hle)
    rcases row with - | job
    · -- A new row is run.
      exact absurd hrefused.1.symm Bool.false_ne_true
    · exact .inr ⟨job, rfl, refused_claimExisting_iff.1 hrefused⟩
  · rintro (hlater | ⟨job, rfl, hstops⟩) hoverdue
    · rcases hgiven : args.deadlineAt with - | deadline
      · obtain ⟨job, rfl, hexpired⟩ := exists_expired_of_overdue hgiven hoverdue
        exact refused_claimExisting_iff.2 (.inr (.inl hexpired))
      · have hle := (overdue_iff_of_given hgiven row).1 hoverdue
        exact absurd (hlater deadline hgiven) (not_lt.2 hle)
    · exact refused_claimExisting_iff.2 hstops

/-- A call that brings a deadline. -/
def lateCall (deadline : DateTime) : ClaimArgs :=
  ⟨"demo", [], "operation", some "operation", 3, true, some deadline⟩

/-- **A claim can run what is overdue**: the first one, of a job whose deadline is the present. -/
theorem runs_overdue :
    ¬ ∀ (S : Settings) (args : ClaimArgs) (id : Uuid) (now flushedAt : DateTime)
      (row : Option ApplicationJob), Overdue args now row →
        Refused S now row (claimJob S args id now flushedAt row) := by
  intro h
  have hrefused := h .default (lateCall 0) 0 0 0 none ⟨0, rfl, le_rfl⟩
  exact absurd hrefused.1.symm Bool.false_ne_true

end GenericApp
