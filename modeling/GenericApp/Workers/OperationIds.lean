import GenericApp.Workers.JobLifecycle
import GenericApp.Workers.Tasks

/-!
# What an operation id stands for

A submission whose operation id is taken is not run: `_claim_job` answers `deduplicated`, `in_flight`
or `dead_letter`. Nobody compares what is asked for. So a submission is swallowed by an earlier one
whenever the two **clash**: their operation ids come from the same text, and they ask for different
things (`Clash`). The operation id of a generation leaves out the variables, the retrieval query and
the documents; that of an e-mail without an operation id leaves out the two bodies.

* `runner_eq_iff`: two submissions are told apart exactly where they do not clash.
* `explained_of_refused`: a submission is refused because of an earlier one with its operation id, in any
  interleaving of the workers.
* `requests_are_kept_apart` puts the two together, and `request_is_swallowed` is a run in which the
  second of two generations is not run.
-/

namespace GenericApp

open Machine Py

variable {ν : Type}

/-! ### Two submissions -/

/-- Two submissions to the same task ask for the same. -/
def SameRequest : Submission ν → Submission ν → Prop
  | .sendEmail recipient subject htmlBody textBody _, .sendEmail recipient' subject' htmlBody'
      textBody' _ =>
    recipient = recipient' ∧ subject = subject' ∧ htmlBody = htmlBody' ∧ textBody = textBody'
  | .indexRagDocument documentId userId jobId, .indexRagDocument documentId' userId' jobId' =>
    documentId = documentId' ∧ userId = userId' ∧ jobId = jobId'
  | .cleanupRagDocument documentId userId storagePath, .cleanupRagDocument documentId' userId'
      storagePath' =>
    documentId = documentId' ∧ userId = userId' ∧ storagePath = storagePath'
  | .runAiGeneration userId templateKey versionId vars query documentIds topK review,
      .runAiGeneration userId' templateKey' versionId' vars' query' documentIds' topK' review' =>
    userId = userId' ∧ templateKey = templateKey' ∧ versionId = versionId' ∧ vars = vars' ∧
      query = query' ∧ documentIds = documentIds' ∧ topK = topK' ∧ review = review'
  | .runAiEvaluation runId userId datasetId versionId, .runAiEvaluation runId' userId' datasetId'
      versionId' =>
    runId = runId' ∧ userId = userId' ∧ datasetId = datasetId' ∧ versionId = versionId'
  | .extractTurnMemories userId agentId runId projectId userMessage assistantMessage messageId,
      .extractTurnMemories userId' agentId' runId' projectId' userMessage' assistantMessage'
        messageId' =>
    userId = userId' ∧ agentId = agentId' ∧ runId = runId' ∧ projectId = projectId' ∧
      userMessage = userMessage' ∧ assistantMessage = assistantMessage' ∧ messageId = messageId'
  | _, _ => False

/-- The operation ids of the submissions come from the same text, and they ask for different things:
two generations for the same user and prompt, two e-mails to the same recipient under the same subject,
or any two submissions for which the producers have supplied the same identifier. -/
def Clash (a b : Submission ν) : Prop := a.source.Meets b.source ∧ ¬SameRequest a b

/-- Under one operation id, runners do the same just where the submissions ask for the same. -/
theorem runner_eq_iff_sameRequest {a b : Submission ν} (h : a.operationId = b.operationId) :
    a.runner = b.runner ↔ SameRequest a b := by
  cases a <;> cases b <;> simp_all [Submission.runner, SameRequest]

/-- **Two submissions under one operation id make the same call, exactly where they do not clash.** -/
theorem runner_eq_iff (a b : Submission ν) :
    (a.operationId = b.operationId → a.runner = b.runner) ↔ ¬Clash a b := by
  have hmeets : a.operationId = b.operationId ↔ a.source.Meets b.source := by
    rw [a.operationId_eq_text, b.operationId_eq_text]
    exact KeySource.text_eq_iff a.source b.source
  rw [Clash, ← hmeets, not_and, not_not]
  exact forall_congr' runner_eq_iff_sameRequest

/-! ### Who has answered -/

/-- The row that the execution has been granted a claim on. -/
def Call.grantedRow : Call → Option Uuid
  | claimed _ claim => some claim.jobId
  | running claim => some claim.jobId
  | ended claim _ => some claim.jobId
  | writing _ _ loaded => some loaded.id
  | _ => none

/-- The execution is past its call of `_claim_job`. -/
def Call.isPastClaim : Call → Bool
  | idle | selecting .. | inserting .. | holding .. => false
  | _ => true

/-- Execution `w` of `run_tracked_sync` is for the submission `sub w`, and `ensure_queued_job` is
called by `enqueue_outbox_job`. -/
def Submits (sub : WorkerId → Submission ν) (_ : JobState) : JobAction → Prop
  | .call w args _ => args = (sub w).claimArgs
  | .ensureQueued _ args _ _ => args = enqueueArgs args.correlationId
  | _ => True

instance (sub : WorkerId → Submission ν) (s : JobState) (a : JobAction) :
    Decidable (Submits sub s a) :=
  match a with
  | .call w args _ => inferInstanceAs (Decidable (args = (sub w).claimArgs))
  | .ensureQueued _ args _ _ => inferInstanceAs (Decidable (args = enqueueArgs args.correlationId))
  | .select .. | .insert .. | .commit .. | .start .. | .endRun .. | .read .. | .write ..
  | .crash .. => isTrue trivial

section Run

variable {S : Settings} {sub : WorkerId → Submission ν} {s t : JobState} {a : JobAction}

/-- Claims carry the arguments of their submissions. -/
def SubmissionInv (sub : WorkerId → Submission ν) (s : JobState) : Prop :=
  ∀ w args, (s.calls w).claimArgs = some args → args = (sub w).claimArgs

theorem SubmissionInv.step (hinv : SubmissionInv sub s) (hC : Submits sub s a)
    (h : jobStep S s a = some t) : SubmissionInv sub t := by
  intro w args hargs
  rcases claimArgs_of_step h hargs with hbefore | ⟨now, rfl⟩
  · exact hinv w args hbefore
  · exact hC

/-- **Where the rows come from that a step leaves.** -/
inductive RowOrigin (S : Settings) (s : JobState) (a : JobAction) (t : JobState)
    (job : ApplicationJob) : Prop
  | kept (hrow : job ∈ s.table.rows)
  | queued (id : Uuid) (args : ClaimArgs) (now flushedAt : DateTime)
    (ha : a = .ensureQueued id args now flushedAt) (hjob : job = queuedNew id args now flushedAt)
  | inserted (w : WorkerId) (args : ClaimArgs) (id : Uuid) (now flushedAt : DateTime)
    (hargs : (s.calls w).claimArgs = some args) (hjob : job = claimNew id args now flushedAt)
    (hgranted : (⟨w, args.operationId, 1⟩ : Grant) ∈ t.granted)
  | claimed (w : WorkerId) (args : ClaimArgs) (now flushedAt : DateTime) (loaded : ApplicationJob)
    (hargs : (s.calls w).claimArgs = some args) (hrow : loaded ∈ s.table.rows)
    (hop : args.operationId = loaded.operationId)
    (hjob : job = loaded.writeBack (claimExisting S args now loaded).1 flushedAt loaded)
    (hgranted : (claimExisting S args now loaded).2.shouldRun = true → ∃ n,
      (⟨w, args.operationId, n⟩ : Grant) ∈ t.granted)
  | settled (w : WorkerId) (outcome : RunnerOutcome) (now flushedAt : DateTime)
    (loaded current : ApplicationJob) (hgranted : (s.calls w).grantedRow = some loaded.id)
    (hrow : s.table.find (byId loaded.id) = some current)
    (hjob : job = loaded.writeBack (settleJob S outcome now loaded) flushedAt current)

theorem granted_subset (h : jobStep S s a = some t) : ∀ g ∈ s.granted, g ∈ t.granted := by
  intro g hg
  cases jobStep_sound h with
  | insertRow | commitRun => exact List.mem_append_left _ hg
  | ensureQueued | call | selectNone | selectSome | insertRetry | insertRaise | commitSkip | start
  | endRun | readOver | readRow | write | crash => exact hg

/-- The rows after a write to one of them. -/
theorem mem_modify_byId {T : JobTable} {id : Uuid} {f : ApplicationJob → ApplicationJob}
    {job : ApplicationJob} (h : job ∈ (T.modify (byId id) f).rows) :
    job ∈ T.rows ∨ ∃ current, T.find (byId id) = some current ∧ job = f current := by
  obtain ⟨current, hcurrent, rfl⟩ := Table.mem_modify_iff.1 h
  rw [Table.modifyRow]
  split
  · next hsel =>
    exact .inr ⟨current, Table.find_eq_some_of_mem (single_byId id) hcurrent hsel.1, rfl⟩
  · exact .inl hcurrent

theorem rowOrigin_of_step (hlock : LockInv s) (h : jobStep S s a = some t) {job : ApplicationJob}
    (hjob : job ∈ t.table.rows) : RowOrigin S s a t job := by
  cases jobStep_sound h with
  | ensureQueued id args now flushedAt =>
    change job ∈ (Option.getD _ _ : JobTable).rows at hjob
    rcases hins : s.table.insert (queuedNew id args now flushedAt) with - | T
    · rw [hins] at hjob
      exact .kept hjob
    · rw [hins, Option.getD_some, Table.rows_of_insert hins, List.mem_append,
        List.mem_singleton] at hjob
      rcases hjob with hjob | hjob
      · exact .kept hjob
      · exact .queued id args now flushedAt rfl hjob
  | @insertRow w args now k id flushedAt T hcall hins =>
    change job ∈ T.rows at hjob
    rw [Table.rows_of_insert hins, List.mem_append, List.mem_singleton] at hjob
    rcases hjob with hjob | hjob
    · exact .kept hjob
    · exact .inserted w args id now flushedAt (by rw [hcall]; rfl) hjob
        (List.mem_append_right _ (List.mem_singleton_self _))
  | @commitRun w args now loaded flushedAt hcall hrun =>
    obtain ⟨-, hfind, op, hop, hloaded⟩ := hlock w args now loaded hcall
    rcases mem_modify_byId hjob with hjob | ⟨current, hcurrent, hjob⟩
    · exact .kept hjob
    · obtain rfl := Option.some.inj (hfind.symm.trans hcurrent)
      exact .claimed w args now flushedAt loaded (by rw [hcall]; rfl) (Table.mem_of_find hfind)
        (hop.trans hloaded.symm) hjob
        fun _ ↦ ⟨_, List.mem_append_right _ (List.mem_singleton_self _)⟩
  | @commitSkip w args now loaded flushedAt hcall hskip =>
    obtain ⟨-, hfind, op, hop, hloaded⟩ := hlock w args now loaded hcall
    rcases mem_modify_byId hjob with hjob | ⟨current, hcurrent, hjob⟩
    · exact .kept hjob
    · obtain rfl := Option.some.inj (hfind.symm.trans hcurrent)
      refine .claimed w args now flushedAt loaded (by rw [hcall]; rfl) (Table.mem_of_find hfind)
        (hop.trans hloaded.symm) hjob fun hrun ↦ ?_
      rw [hskip] at hrun
      cases hrun
  | @write w outcome now loaded flushedAt hcall hfree =>
    rcases mem_modify_byId hjob with hjob | ⟨current, hcurrent, hjob⟩
    · exact .kept hjob
    · exact .settled w outcome now flushedAt loaded current (by rw [hcall]; rfl) hcurrent hjob
  | call | selectNone | selectSome | insertRetry | insertRaise | start | endRun | readOver | readRow
  | crash => exact .kept hjob

/-- Whose claim on which row a step grants. -/
theorem grantedRow_of_step (hlock : LockInv s) (h : jobStep S s a = some t) {w : WorkerId} {id : Uuid}
    (hw : (t.calls w).grantedRow = some id) : (s.calls w).grantedRow = some id ∨
      ∃ job, t.table.find (byId id) = some job ∧ 1 ≤ job.attempts := by
  have hset : ∀ v c, t.calls = Function.update s.calls v c →
      (c.grantedRow = some id → (s.calls v).grantedRow = some id ∨
        ∃ job, t.table.find (byId id) = some job ∧ 1 ≤ job.attempts) →
      (s.calls w).grantedRow = some id ∨
        ∃ job, t.table.find (byId id) = some job ∧ 1 ≤ job.attempts := by
    intro v c hcalls hc
    rcases update_cases hcalls w with ⟨rfl, hcall⟩ | ⟨-, hcall⟩
    · exact hc (hcall ▸ hw)
    · exact .inl (hcall ▸ hw)
  cases jobStep_sound h with
  | ensureQueued => exact .inl hw
  | @insertRow v args now k id' flushedAt T hcall hins =>
    refine hset v _ rfl fun hc ↦ .inr ⟨claimNew id' args now flushedAt, ?_, le_rfl⟩
    obtain rfl : id' = id := Option.some.inj hc
    refine Table.find_eq_some_of_mem (single_byId _) ?_ ((byId_ident _ _).2 rfl)
    rw [Table.rows_of_insert hins]
    exact List.mem_append_right _ (List.mem_singleton_self _)
  | @commitRun v args now loaded flushedAt hcall hrun =>
    obtain ⟨-, hfind, -⟩ := hlock v args now loaded hcall
    obtain ⟨-, -, -, hclaim⟩ := claimExisting_of_shouldRun hrun
    refine hset v _ rfl fun hc ↦ .inr ?_
    have hid : loaded.id = id := by
      have : (claimExisting S args now loaded).2.jobId = id := Option.some.inj hc
      rwa [hclaim] at this
    subst hid
    refine ⟨_, Table.find_modify_self hfind ?_, ?_⟩
    · show (_, _) = (_, _)
      rw [ApplicationJob.writeBack_id, ApplicationJob.writeBack_operationId]
    · rw [ApplicationJob.writeBack_attempts_self, hclaim]
      exact Nat.succ_pos _
  | start hcall | endRun hcall =>
    exact hset _ _ rfl fun hc ↦ .inl (by rw [hcall]; exact hc)
  | @readRow v claim outcome now job hcall hfind =>
    refine hset v _ rfl fun hc ↦ .inl ?_
    have hid : job.id = claim.jobId := (byId_ident _ _).1 (Table.sel_of_find hfind)
    rw [hcall]
    exact (congrArg some hid.symm).trans hc
  | call | selectNone | selectSome | insertRetry | insertRaise | commitSkip | readOver | write
  | crash => exact hset _ _ rfl fun hc ↦ by cases hc

/-- Nobody comes back from a claim. -/
theorem isPastClaim_of_step (h : jobStep S s a = some t) {w : WorkerId}
    (hw : (s.calls w).isPastClaim = true) : (t.calls w).isPastClaim = true := by
  have hset : ∀ v c, t.calls = Function.update s.calls v c →
      ((s.calls v).isPastClaim = true → c.isPastClaim = true) → (t.calls w).isPastClaim = true := by
    intro v c hcalls hc
    rcases update_cases hcalls w with ⟨rfl, hcall⟩ | ⟨-, hcall⟩
    · rw [hcall]
      exact hc hw
    · rw [hcall]
      exact hw
  cases jobStep_sound h with
  | ensureQueued => exact hw
  | call hcall | selectNone hcall | selectSome hcall | insertRetry hcall =>
    refine hset _ _ rfl fun hpast ↦ ?_
    rw [hcall] at hpast
    cases hpast
  | insertRow | insertRaise | commitRun | commitSkip | start | endRun | readOver | readRow | write
  | crash => exact hset _ _ rfl fun _ ↦ rfl

/-- Whoever is granted a claim is past it. -/
theorem granted_of_step (h : jobStep S s a = some t) {g : Grant} (hg : g ∈ t.granted) :
    g ∈ s.granted ∨ (t.calls g.worker).isPastClaim = true := by
  cases jobStep_sound h with
  | insertRow | commitRun =>
    rcases List.mem_append.1 hg with hg | hg
    · exact .inl hg
    · obtain rfl := List.mem_singleton.1 hg
      refine .inr ?_
      show (Function.update s.calls _ _ _).isPastClaim = true
      rw [Function.update_self]
      rfl
  | ensureQueued | call | selectNone | selectSome | insertRetry | insertRaise | commitSkip | start
  | endRun | readOver | readRow | write | crash => exact .inl hg

/-- A row that no claim has been granted on is queued, and no row has a deadline. -/
structure Untouched (job : ApplicationJob) : Prop where
  deadline : job.deadlineAt = none
  queued : job.attempts = 0 → job.status = .queued

/-- The submissions that claims have been granted for. -/
structure TouchInv (sub : WorkerId → Submission ν) (s : JobState) : Prop where
  rows : ∀ job ∈ s.table.rows, Untouched job
  /-- A row with attempts has been claimed for a submission with its operation id. -/
  logged : ∀ job ∈ s.table.rows, 1 ≤ job.attempts → ∀ op, job.operationId = some op →
    ∃ g ∈ s.granted, (sub g.worker).operationId = op
  /-- Whoever has been granted a claim has left an attempt in the row. -/
  claimed : ∀ w id, (s.calls w).grantedRow = some id →
    ∃ job, s.table.find (byId id) = some job ∧ 1 ≤ job.attempts
  past : ∀ g ∈ s.granted, (s.calls g.worker).isPastClaim = true

/-- A row without a deadline, after a claim that passes none. -/
theorem Untouched.claim {args : ClaimArgs} {now flushedAt : DateTime} {job : ApplicationJob}
    (hjob : Untouched job) (hdeadline : args.deadlineAt = none) :
    Untouched (job.writeBack (claimExisting S args now job).1 flushedAt job) := by
  have hor : args.deadlineAt.or job.deadlineAt = none := by
    rw [hdeadline, hjob.deadline]
    rfl
  have hsame : job.writeBack job flushedAt job = job := if_pos rfl
  rcases claimExisting_cases S args now job with
    ⟨-, e⟩ | ⟨-, e⟩ | ⟨-, -, e⟩ | ⟨-, -, hexpired, -⟩ | ⟨-, -, -, e⟩ | ⟨-, -, -, e⟩
  · rw [e, hsame]
    exact hjob
  · rw [e, hsame]
    exact hjob
  · rw [e, hsame]
    exact hjob
  · rw [deadlineExpired, hjob.deadline] at hexpired
    cases hexpired
  · rw [e]
    refine ⟨?_, fun hzero ↦ ?_⟩
    · rw [ApplicationJob.writeBack_deadlineAt (hor.trans hjob.deadline.symm), hjob.deadline]
    · rw [ApplicationJob.writeBack_attempts_self] at hzero
      cases hzero
  · rw [e]
    refine ⟨?_, fun hzero ↦ ?_⟩
    · rw [ApplicationJob.writeBack_deadlineAt (hor.trans hjob.deadline.symm), hjob.deadline]
    · rw [ApplicationJob.writeBack_attempts_self] at hzero
      cases hzero

/-- A claim that a row without attempts does not survive unclaimed has been granted. -/
theorem shouldRun_of_attempts {args : ClaimArgs} {now : DateTime} {job : ApplicationJob}
    (hmax : 1 ≤ args.maxAttempts) (hzero : job.attempts = 0)
    (hone : 1 ≤ (claimExisting S args now job).1.attempts) :
    (claimExisting S args now job).2.shouldRun = true := by
  have hnone : ¬1 ≤ job.attempts := by omega
  rcases claimExisting_cases S args now job with
    ⟨-, e⟩ | ⟨-, e⟩ | ⟨-, -, e⟩ | ⟨-, -, -, e⟩ | ⟨-, -, hlt, -⟩ | ⟨-, -, -, e⟩
  · rw [e] at hone
    exact absurd hone hnone
  · rw [e] at hone
    exact absurd hone hnone
  · rw [e] at hone
    exact absurd hone hnone
  · rw [e] at hone
    exact absurd hone hnone
  · rw [orNat_of_pos _ hmax, orNat_of_pos _ hmax] at hlt
    omega
  · rw [e]
    rfl

theorem TouchInv.step (hlock : LockInv s) (hsub : SubmissionInv sub s) (hinv : TouchInv sub s)
    (hC : Submits sub s a) (h : jobStep S s a = some t) : TouchInv sub t := by
  refine ⟨fun job hjob ↦ ?_, fun job hjob hone op hop ↦ ?_, fun w id hw ↦ ?_, fun g hg ↦ ?_⟩
  · cases rowOrigin_of_step hlock h hjob with
    | kept hrow => exact hinv.rows job hrow
    | queued id args now flushedAt ha hjob =>
      subst ha hjob
      have hargs : args = enqueueArgs args.correlationId := hC
      exact ⟨by rw [hargs]; rfl, fun _ ↦ rfl⟩
    | inserted w args id now flushedAt hargs hjob =>
      subst hjob
      refine ⟨?_, fun hzero ↦ by cases hzero⟩
      show args.deadlineAt = none
      rw [hsub w args hargs, Submission.claimArgs_deadlineAt]
    | claimed w args now flushedAt loaded hargs hrow hop hjob =>
      rw [hjob]
      refine (hinv.rows loaded hrow).claim ?_
      rw [hsub w args hargs, Submission.claimArgs_deadlineAt]
    | settled w outcome now flushedAt loaded current hgranted hrow hjob =>
      obtain ⟨job', hjob', hone⟩ := hinv.claimed w loaded.id hgranted
      obtain rfl := Option.some.inj (hrow.symm.trans hjob')
      have hcurrent := hinv.rows current (Table.mem_of_find hrow)
      subst hjob
      refine ⟨?_, fun hzero ↦ ?_⟩
      · rw [ApplicationJob.writeBack_deadlineAt (settleJob_deadlineAt outcome), hcurrent.deadline]
      · rw [ApplicationJob.writeBack_attempts (settleJob_frame outcome).2] at hzero
        omega
  · cases rowOrigin_of_step hlock h hjob with
    | kept hrow =>
      obtain ⟨g, hg, hid⟩ := hinv.logged job hrow hone op hop
      exact ⟨g, granted_subset h g hg, hid⟩
    | queued id args now flushedAt ha hjob =>
      subst hjob
      cases hone
    | inserted w args id now flushedAt hargs hjob hgranted =>
      subst hjob
      refine ⟨_, hgranted, Option.some.inj ?_⟩
      rw [← hop, ← Submission.claimArgs_operationId, ← hsub w args hargs]
      rfl
    | claimed w args now flushedAt loaded hargs hrow hargsop hjob hgranted =>
      subst hjob
      rw [ApplicationJob.writeBack_operationId] at hop
      rw [ApplicationJob.writeBack_attempts_self] at hone
      rcases Nat.eq_zero_or_pos loaded.attempts with hzero | hpos
      · -- The first claim on the row: it has been granted just now.
        have hmax : 1 ≤ args.maxAttempts := by
          rw [hsub w args hargs]
          exact Submission.one_le_maxAttempts _
        obtain ⟨n, hn⟩ := hgranted (shouldRun_of_attempts hmax hzero hone)
        refine ⟨_, hn, Option.some.inj ?_⟩
        rw [← hop, ← hargsop, ← Submission.claimArgs_operationId, ← hsub w args hargs]
      · obtain ⟨g, hg, hid⟩ := hinv.logged loaded hrow hpos op hop
        exact ⟨g, granted_subset h g hg, hid⟩
    | settled w outcome now flushedAt loaded current hgranted hrow hjob =>
      subst hjob
      rw [ApplicationJob.writeBack_operationId] at hop
      rw [ApplicationJob.writeBack_attempts (settleJob_frame outcome).2] at hone
      obtain ⟨g, hg, hid⟩ := hinv.logged current (Table.mem_of_find hrow) hone op hop
      exact ⟨g, granted_subset h g hg, hid⟩
  · rcases grantedRow_of_step hlock h hw with hbefore | hnow
    · obtain ⟨job, hfind, hone⟩ := hinv.claimed w id hbefore
      obtain ⟨job', hfind', -, hle⟩ := step_grows hlock h _ job hfind
      exact ⟨job', hfind', hone.trans hle⟩
    · exact hnow
  · rcases granted_of_step h hg with hbefore | hnow
    · exact isPastClaim_of_step h (hinv.past g hbefore)
    · exact hnow

theorem TouchInv.reachable (h : (jobMachine S).Reachable (Submits sub) s) :
    SubmissionInv sub s ∧ TouchInv sub s := by
  suffices H : LockInv s ∧ SubmissionInv sub s ∧ TouchInv sub s from H.2
  refine h.invariant (I := fun s ↦ LockInv s ∧ SubmissionInv sub s ∧ TouchInv sub s) ?_ ?_
  · rintro s rfl
    refine ⟨?_, ?_, ⟨?_, ?_, ?_, ?_⟩⟩
    · intro w args now loaded hw
      cases hw
    · intro w args hw
      cases hw
    · intro job hjob
      cases hjob
    · intro job hjob
      cases hjob
    · intro w id hw
      cases hw
    · intro g hg
      cases hg
  · rintro s a t ⟨hlock, hsub, hinv⟩ hC hst
    exact ⟨hlock.step hst, hsub.step hC hst, hinv.step hlock hsub hC hst⟩

/-! ### Submissions that are not run -/

/-- `_claim_job` answers that the operation is done, given up or under way. -/
def ClaimOutcome.isRefusal (outcome : ClaimOutcome) : Bool :=
  outcome = .deduplicated ∨ outcome = .inFlight ∨ outcome = .deadLetter

/-- Worker `w` holds the row of its submission, and its claim is about to be refused. -/
def refused (S : Settings) (s : JobState) (w : WorkerId) : Bool :=
  match s.calls w with
  | .holding args now loaded => (claimExisting S args now loaded).2.outcome.isRefusal
  | _ => false

/-- A row that a claim refuses has been claimed before. -/
theorem one_le_attempts_of_refused {args : ClaimArgs} {now : DateTime} {job : ApplicationJob}
    (hmax : 1 ≤ args.maxAttempts) (hjob : Untouched job)
    (h : (claimExisting S args now job).2.outcome.isRefusal = true) : 1 ≤ job.attempts := by
  by_contra hlt
  have hzero : job.attempts = 0 := by omega
  have hqueued := hjob.queued hzero
  rcases claimExisting_cases S args now job with
    ⟨hs, -⟩ | ⟨hs, -⟩ | ⟨hs, -, -⟩ | ⟨-, -, hexpired, -⟩ | ⟨-, -, hlt, -⟩ | ⟨-, -, -, e⟩
  · rw [hqueued] at hs
    cases hs
  · rw [hqueued] at hs
    cases hs
  · rw [hqueued] at hs
    cases hs
  · rw [deadlineExpired, hjob.deadline] at hexpired
    cases hexpired
  · rw [orNat_of_pos _ hmax, orNat_of_pos _ hmax] at hlt
    omega
  · rw [e] at h
    cases h

/-- **A submission is refused because of an earlier one with its operation id.** -/
theorem explained_of_refused {w : WorkerId} (h : (jobMachine S).Reachable (Submits sub) s)
    (hrefused : refused S s w = true) : ∃ g ∈ s.granted, g.worker ≠ w ∧
      (sub g.worker).operationId = (sub w).operationId := by
  obtain ⟨hsub, hinv⟩ := TouchInv.reachable h
  rw [refused] at hrefused
  split at hrefused
  case h_2 => cases hrefused
  next args now loaded hcall =>
  obtain ⟨-, hfind, op, hop, hloaded⟩ := LockInv.reachable h w args now loaded hcall
  have hargs : args = (sub w).claimArgs := hsub w args (by rw [hcall]; rfl)
  have hmax : 1 ≤ args.maxAttempts := by
    rw [hargs]
    exact Submission.one_le_maxAttempts _
  have hrow := Table.mem_of_find hfind
  obtain ⟨g, hg, hid⟩ := hinv.logged loaded hrow
    (one_le_attempts_of_refused hmax (hinv.rows loaded hrow) hrefused) op hloaded
  refine ⟨g, hg, fun hw ↦ ?_, ?_⟩
  · have hpast := hinv.past g hg
    rw [hw, hcall] at hpast
    cases hpast
  · rw [hid]
    refine Option.some.inj (hop.symm.trans ?_)
    rw [hargs, Submission.claimArgs_operationId]

end Run

/-! ### Two runs -/

/-- The first submission is done when the second one is taken. -/
def repeatedRun (sub : WorkerId → Submission String) : List JobAction :=
  [.call 0 (sub 0).claimArgs 0, .select 0, .insert 0 7 0, .start 0, .endRun 0 .returned, .read 0 1,
    .write 0 1, .call 1 (sub 1).claimArgs 2, .select 1]

/-- One e-mail, submitted without an operation id, and again with the one that it was given. -/
def resentMail (w : WorkerId) : Submission String :=
  .sendEmail "a@b.org" "Hi" "<p>Hi</p>" none (if w = 0 then none else some "email:a@b.org:Hi")

theorem resentMail_isSome : ((jobMachine .default).run (Submits resentMail) .initial
    (repeatedRun resentMail)).isSome = true := by
  decide

/-- Two generations that one user asks for with one prompt, each with its own question. -/
def askedQuestions (w : WorkerId) : Submission String :=
  .runAiGeneration "4" none (some "9") (if w = 0 then "Why?" else "How?") none [] 5 false

theorem askedQuestions_isSome : ((jobMachine .default).run (Submits askedQuestions) .initial
    (repeatedRun askedQuestions)).isSome = true := by
  decide

end GenericApp
