import GenericApp.Workers.Delivery

/-!
# Whether an accepted job is lost

A job whose row is not final is in somebody's hands if there is a delivery of it that is still to be
acted on, `Delivery.isOpen`. The deliveries are of two kinds. A **pending** one has yet to claim the
row, now or after a retry. An **executing** one has claimed it and has not settled it. A row that is
`queued` or `failed` needs a pending delivery, a row that is `running` needs either: `Cover`.

What keeps the cover is the match of two counts. A message knows how often it has been retried, the row
how often it has been claimed, and every retry is behind a claim (`Counted`). So a delivery without
retries left finds a row without attempts left, and its failure buries the row.

Two things break the cover. A claim that finds a freshly running row answers `in_flight`, and the task
returns, although the worker that was running it may be dead: its message is the one that is
acknowledged. And a runner that is deferred leaves the row `queued`, although the task may have no
retry left.

* `no_job_is_lost`: where neither happens, every job that is not over is in somebody's hands.
* `jobs_are_lost`: both happen.
-/

namespace GenericApp

open Machine Py

/-! ### Open deliveries -/

/-- The delivery has yet to claim the row, now or after a retry. -/
def isPending (o : Operation) : Delivery TaskMessage Stage → Bool
  | .waiting _ => true
  | .held _ .received => true
  | .held .enqueue .ensured => true
  | .held (.run retries) .raised => retries < o.task.maxRetries
  | _ => false

/-- A live worker is executing `run_tracked_sync`, past the claim. -/
def isExecuting : Delivery TaskMessage Stage → Bool
  | .held (.run _) .running => true
  | .held (.run _) (.ended _) => true
  | .held (.run _) (.writing ..) => true
  | _ => false

/-- The delivery is still to be acted on: it is in the queue, with a worker that has not finished the
task, or about to be retried. -/
def isOpen (o : Operation) (d : Delivery TaskMessage Stage) : Bool := isPending o d || isExecuting d

/-- The job is not over. -/
def JobStatus.isLive (status : JobStatus) : Bool := !status.isFinal && decide (status ≠ .cancelled)

/-- A claim would find a freshly running row, and nobody is running it. -/
def Deliveries.orphaned (S : Settings) (s : Deliveries) (now : DateTime) : Bool :=
  (s.row.any fun job ↦ job.status = .running ∧ isStaleRunning S job now = false) &&
    !s.queue.any isExecuting

/-- A delivery without retries left is about to release a running row for its next retry. -/
def Deliveries.deferredForever (o : Operation) (s : Deliveries) (m : ℕ) : Bool :=
  match s.queue[m]? with
  | some (.held (.run retries) (.ended (.effectInFlight _))) =>
    decide (o.task.maxRetries ≤ retries) && s.row.any fun job ↦ job.status = .running
  | _ => false

/-- No delivery meets a running row that a dead worker has left, and none is deferred on its last
retry. -/
def KeepsJobs (S : Settings) (o : Operation) (s : Deliveries) : DeliveryAction → Prop
  | .claim _ _ now _ => s.orphaned S now = false
  | .read m _ => s.deferredForever o m = false
  | _ => True

instance (S : Settings) (o : Operation) (s : Deliveries) (a : DeliveryAction) :
    Decidable (KeepsJobs S o s a) :=
  match a with
  | .claim _ _ now _ => inferInstanceAs (Decidable (s.orphaned S now = false))
  | .read m _ => inferInstanceAs (Decidable (s.deferredForever o m = false))
  | .submit | .dispatch | .redeliver .. | .receive .. | .die .. | .ensure .. | .publish ..
  | .endRun .. | .write .. | .conclude .. | .acknowledge .. | .checkCancel .. | .cancel .. =>
    isTrue trivial

/-! ### The counts -/

/-- The number of claims that the row has counted. -/
def Deliveries.attempts (s : Deliveries) : ℕ := s.row.elim 0 (·.attempts)

/-- The row counts attempts against the retries of the task. -/
def Limited (o : Operation) (job : ApplicationJob) : Prop :=
  job.maxAttempts = o.task.maxAttempts ∧ job.retryable = true

/-- Every retry of the delivery is behind a claim of the row, and so is its execution. Only ingestion
goes through the outbox. -/
def Counted (o : Operation) (attempts : ℕ) : Delivery TaskMessage Stage → Prop
  | .waiting .enqueue | .held .enqueue _ => o.task = .indexRagDocument
  | .waiting (.run retries) => retries ≤ attempts
  | .held (.run retries) (.writing outcome _ loaded) =>
    retries + 1 ≤ attempts ∧ retries + 1 ≤ loaded.attempts ∧ Limited o loaded ∧
      returnsEarly outcome loaded = false ∧
      ∀ exc, outcome = .effectInFlight exc → retries < o.task.maxRetries
  | .held (.run retries) .running | .held (.run retries) (.ended _) | .held (.run retries) .raised =>
    retries + 1 ≤ attempts
  | .held (.run retries) _ => retries ≤ attempts
  | .acknowledged => True

/-- Whose hands a row is in. -/
structure Cover (o : Operation) (row : Option ApplicationJob) (q : Queue TaskMessage Stage) :
    Prop where
  pending : ∀ job, row = some job → job.status = .queued ∨ job.status = .failed →
    ∃ d ∈ q, isPending o d = true
  running : ∀ job, row = some job → job.status = .running → ∃ d ∈ q, isOpen o d = true

/-- **What the steps keep.** -/
structure CoverInv (o : Operation) (s : Deliveries) : Prop where
  limited : ∀ job, s.row = some job → Limited o job
  counted : ∀ d ∈ s.queue, Counted o s.attempts d
  covered : Cover o s.row s.queue

section Cover

variable {S : Settings} {o : Operation} {s t : Deliveries} {a : DeliveryAction} {m : ℕ}
  {row : Option ApplicationJob} {q : Queue TaskMessage Stage} {d e : Delivery TaskMessage Stage}

theorem Counted.mono {k k' : ℕ} (h : Counted o k d) (hk : k ≤ k') : Counted o k' d := by
  rcases d with ⟨body⟩ | ⟨body, stage⟩ | -
  · rcases body with - | retries
    · exact h
    · exact le_trans h hk
  · rcases body with - | retries
    · exact h
    · cases stage with
      | writing outcome now loaded => exact ⟨le_trans h.1 hk, h.2⟩
      | received | ensured | running | ended | raised | returned => exact le_trans h hk
  · trivial

/-- Every stage of a delivery is behind its retries. -/
theorem Counted.retries_le {k retries : ℕ} {stage : Stage}
    (h : Counted o k (.held (.run retries) stage)) : retries ≤ k := by
  cases stage with
  | received | ensured | returned => exact h
  | writing outcome now loaded => exact (Nat.le_succ _).trans h.1
  | running | ended | raised => exact (Nat.le_succ _).trans h

/-- A pending delivery covers every row. -/
theorem Cover.of_pending (hd : d ∈ q) (hpending : isPending o d = true) : Cover o row q :=
  ⟨fun _ _ _ ↦ ⟨d, hd, hpending⟩, fun _ _ _ ↦ ⟨d, hd, by rw [isOpen, hpending, Bool.true_or]⟩⟩

/-- An executing delivery covers a row that is running. -/
theorem Cover.of_executing (hrow : ∀ job, row = some job → job.status = .running) (hd : d ∈ q)
    (hexecuting : isExecuting d = true) : Cover o row q := by
  refine ⟨fun job hjob hstatus ↦ ?_, fun _ _ _ ↦ ⟨d, hd, by rw [isOpen, hexecuting, Bool.or_true]⟩⟩
  rw [hrow job hjob] at hstatus
  simp at hstatus

/-- A row that is over needs no cover. -/
theorem Cover.of_not_isLive (h : ∀ job, row = some job → job.status.isLive = false) :
    Cover o row q := by
  refine ⟨fun job hjob hstatus ↦ ?_, fun job hjob hstatus ↦ ?_⟩
  · have := h job hjob
    rcases hstatus with hs | hs <;> rw [hs] at this <;> cases this
  · have := h job hjob
    rw [hstatus] at this
    cases this

/-- A delivery moves on and stays what it was. -/
theorem Cover.put (h : Cover o row q) (hm : q[m]? = some e)
    (hpending : isPending o e = true → isPending o d = true)
    (hopen : isOpen o e = true → isOpen o d = true) : Cover o row (q.put m d) :=
  ⟨fun job hjob hstatus ↦ Queue.exists_mem_put hm (h.pending job hjob hstatus) hpending,
    fun job hjob hstatus ↦ Queue.exists_mem_put hm (h.running job hjob hstatus) hopen⟩

/-- A delivery stops executing a row that is not running. -/
theorem Cover.put_of_not_running (h : Cover o row q)
    (hrow : ∀ job, row = some job → job.status ≠ .running) (hm : q[m]? = some e)
    (hpending : isPending o e = true → isPending o d = true) : Cover o row (q.put m d) :=
  ⟨fun job hjob hstatus ↦ Queue.exists_mem_put hm (h.pending job hjob hstatus) hpending,
    fun job hjob hstatus ↦ absurd hstatus (hrow job hjob)⟩

/-- A move of one delivery, the row staying as it is. -/
theorem CoverInv.put (h : CoverInv o s) (hm : s.queue[m]? = some e)
    (hcounted : Counted o s.attempts e → Counted o s.attempts d)
    (hpending : isPending o e = true → isPending o d = true)
    (hopen : isOpen o e = true → isOpen o d = true) :
    CoverInv o { s with queue := s.queue.put m d } where
  limited := h.limited
  counted := Queue.forall_mem_put h.counted (hcounted (h.counted _ (Queue.mem_of_getElem? hm)))
  covered := h.covered.put hm hpending hopen

/-- A message is published whose retries are all behind claims. -/
theorem CoverInv.post {body : TaskMessage} (h : CoverInv o s)
    (hcounted : Counted o s.attempts (.waiting body)) :
    CoverInv o { s with queue := s.queue.post body } where
  limited := h.limited
  counted := Queue.forall_mem_post h.counted hcounted
  covered := .of_pending (Queue.mem_post_self _ _) rfl

/-! ### What the row's functions do to the counts -/

theorem orNat_maxAttempts (o : Operation) (n : ℕ) :
    orNat o.task.maxAttempts n = o.task.maxAttempts :=
  orNat_of_pos n (Nat.succ_pos _)

theorem limited_claimExisting {job : ApplicationJob} (now : DateTime) (hjob : Limited o job) :
    Limited o (claimExisting S o.claimArgs now job).1 := by
  rcases claimExisting_cases S o.claimArgs now job with
    ⟨-, e⟩ | ⟨-, e⟩ | ⟨-, -, e⟩ | ⟨-, -, -, e⟩ | ⟨-, -, -, e⟩ | ⟨-, -, -, e⟩ <;> rw [e]
  · exact hjob
  · exact hjob
  · exact hjob
  · exact hjob
  · exact ⟨orNat_maxAttempts o job.maxAttempts, rfl⟩
  · exact ⟨orNat_maxAttempts o job.maxAttempts, rfl⟩

theorem Limited.writeBack_self {l m : ApplicationJob} (h : Limited o m) (flushedAt : DateTime) :
    Limited o (l.writeBack m flushedAt l) :=
  ⟨(ApplicationJob.writeBack_maxAttempts_self _ _ _).trans h.1,
    (ApplicationJob.writeBack_retryable_self _ _ _).trans h.2⟩

/-- A write that leaves the counts alone, over any row. -/
theorem Limited.writeBack {l m c : ApplicationJob} (h : Limited o c)
    (hmax : m.maxAttempts = l.maxAttempts) (hretryable : m.retryable = l.retryable)
    (flushedAt : DateTime) : Limited o (l.writeBack m flushedAt c) :=
  ⟨(ApplicationJob.writeBack_maxAttempts hmax _ _).trans h.1,
    (ApplicationJob.writeBack_retryable hretryable _ _).trans h.2⟩

/-- A delivery without retries left finds a row without attempts left. -/
theorem exhausted_of_counted {job : ApplicationJob} {retries : ℕ} (hjob : Limited o job)
    (hcounted : retries + 1 ≤ job.attempts) (hnone : o.task.maxRetries ≤ retries) :
    exhausted job = true := by
  have hle : o.task.maxAttempts ≤ job.attempts := (Nat.succ_le_succ hnone).trans hcounted
  rw [exhausted, hjob.1, hjob.2, orNat_maxAttempts]
  simpa using hle

/-- What is left of the cover when a worker has settled the row: the delivery will be retried, or the
row is over. -/
theorem settle_cases {job : ApplicationJob} {retries : ℕ} {outcome : RunnerOutcome}
    (now : DateTime) (hjob : Limited o job) (hcounted : retries + 1 ≤ job.attempts)
    (hsettles : returnsEarly outcome job = false)
    (hdeferred : ∀ exc, outcome = .effectInFlight exc → retries < o.task.maxRetries) :
    isPending o (.held (.run retries) outcome.afterwards) = true ∨
      ((settleJob S outcome now job).status.isLive = false ∧
        (settleJob S outcome now job).status ≠ job.status) := by
  cases outcome with
  | effectInFlight exc =>
    have hleft := hdeferred exc rfl
    exact .inl (by simpa [RunnerOutcome.afterwards, isPending] using hleft)
  | returned =>
    have hfinal : job.status.isFinal = false := hsettles
    have hstatus : (settleJob S .returned now job).status = .succeeded := by
      rw [settleJob, finishJob_of_not_isFinal hfinal]
      rfl
    refine .inr ⟨by rw [hstatus]; rfl, fun heq ↦ ?_⟩
    rw [← heq, hstatus] at hfinal
    cases hfinal
  | raised exc =>
    rcases Nat.lt_or_ge retries o.task.maxRetries with hleft | hnone
    · exact .inl (by simpa [RunnerOutcome.afterwards, isPending] using hleft)
    · have hfinal : job.status.isFinal = false := hsettles
      have hstatus : (settleJob S (.raised exc) now job).status = .deadLetter := by
        rw [settleJob, finishJob_of_not_isFinal hfinal]
        exact if_pos ⟨rfl, exhausted_of_counted hjob hcounted hnone⟩
      refine .inr ⟨by rw [hstatus]; rfl, fun heq ↦ ?_⟩
      rw [← heq, hstatus] at hfinal
      cases hfinal

theorem settleJob_limits (outcome : RunnerOutcome) (now : DateTime) (job : ApplicationJob) :
    (settleJob S outcome now job).maxAttempts = job.maxAttempts ∧
      (settleJob S outcome now job).retryable = job.retryable ∧
      (settleJob S outcome now job).attempts = job.attempts := by
  cases outcome with
  | returned =>
    rw [settleJob, finishJob_frame]
    exact ⟨rfl, rfl, rfl⟩
  | effectInFlight exc =>
    rw [settleJob, releaseJobForRetry]
    split <;> exact ⟨rfl, rfl, rfl⟩
  | raised exc =>
    rw [settleJob, finishJob_frame]
    exact ⟨rfl, rfl, rfl⟩

/-! ### One step -/

/-- Only executing deliveries cover a claim that is answered `in_flight`. -/
theorem exists_executing_of_not_orphaned {job : ApplicationJob} {now : DateTime}
    (horphaned : s.orphaned S now = false) (hrow : s.row = some job) (hstatus : job.status = .running)
    (hfresh : isStaleRunning S job now = false) : ∃ d ∈ s.queue, isExecuting d = true := by
  simpa [Deliveries.orphaned, hrow, hstatus, hfresh] using horphaned

theorem CoverInv.claim (h : CoverInv o s) {retries : ℕ} {id : Uuid} {now flushedAt : DateTime}
    (hm : s.queue[m]? = some (.held (.run retries) .received))
    (horphaned : s.orphaned S now = false) :
    CoverInv o (s.claim S o m retries id now flushedAt) := by
  have hretries : retries ≤ s.attempts := (h.counted _ (Queue.mem_of_getElem? hm)).retries_le
  rw [Deliveries.claim]
  split
  · next hrow =>
    have hzero : s.attempts = 0 := by rw [Deliveries.attempts, hrow]; rfl
    have hself : .held (.run retries) .running ∈ s.queue.put m (.held (.run retries) .running) :=
      Queue.mem_put_self hm
    refine ⟨fun job hjob ↦ ?_, ?_, ?_⟩
    · obtain rfl := Option.some.inj hjob
      exact ⟨rfl, rfl⟩
    · refine Queue.forall_mem_put (fun e he ↦ (h.counted e he).mono (by omega)) ?_
      show retries + 1 ≤ 1
      omega
    · refine .of_executing (fun job hjob ↦ ?_) hself rfl
      obtain rfl := Option.some.inj hjob
      rfl
  · next job hrow =>
    have hattempts : s.attempts = job.attempts := by rw [Deliveries.attempts, hrow]; rfl
    have hlimited := h.limited job hrow
    have hle : s.attempts ≤ (job.writeBack (claimExisting S o.claimArgs now job).1 flushedAt
        job).attempts := by
      rw [ApplicationJob.writeBack_attempts_self, hattempts]
      exact attempts_le_claimExisting
    by_cases hrun : (claimExisting S o.claimArgs now job).2.shouldRun = true
    · -- The worker runs: the row is running, and the worker covers it.
      dsimp only
      rw [if_pos hrun]
      obtain ⟨-, -, -, e⟩ := claimExisting_of_shouldRun hrun
      refine ⟨fun job' hjob' ↦ ?_, ?_, .of_executing (fun job' hjob' ↦ ?_) (Queue.mem_put_self hm) rfl⟩
      · obtain rfl := Option.some.inj hjob'
        exact (limited_claimExisting now hlimited).writeBack_self flushedAt
      · refine Queue.forall_mem_put (fun e he ↦ (h.counted e he).mono hle) ?_
        show retries + 1 ≤ (job.writeBack _ flushedAt job).attempts
        rw [ApplicationJob.writeBack_attempts_self, e]
        exact Nat.succ_le_succ (hattempts ▸ hretries)
      · obtain rfl := Option.some.inj hjob'
        rw [ApplicationJob.writeBack_status_self, e]
        rfl
    · -- It does not: the row is over, or another worker is running it.
      dsimp only
      rw [if_neg hrun]
      refine ⟨fun job' hjob' ↦ ?_, ?_, ?_⟩
      · obtain rfl := Option.some.inj hjob'
        exact (limited_claimExisting now hlimited).writeBack_self flushedAt
      · exact Queue.forall_mem_put (fun e he ↦ (h.counted e he).mono hle) (hretries.trans hle)
      · have hover : ∀ job', (claimExisting S o.claimArgs now job).1.status.isLive = false →
            some (job.writeBack (claimExisting S o.claimArgs now job).1 flushedAt job) = some job' →
            job'.status.isLive = false := fun job' hlive hjob' ↦ by
          obtain rfl := Option.some.inj hjob'
          rwa [ApplicationJob.writeBack_status_self]
        rcases claimExisting_cases S o.claimArgs now job with
          ⟨hs, e⟩ | ⟨hs, e⟩ | ⟨hs, hfresh, e⟩ | ⟨-, -, -, e⟩ | ⟨-, -, -, e⟩ | ⟨-, -, -, e⟩
        · exact .of_not_isLive fun job' ↦ hover job' (by rw [e, hs]; rfl)
        · exact .of_not_isLive fun job' ↦ hover job' (by rw [e, hs]; rfl)
        · -- The row is running and not stale, so by the condition a live worker is executing it.
          obtain ⟨d, hd, hexecuting⟩ :=
            exists_executing_of_not_orphaned horphaned hrow hs hfresh
          have hne : d ≠ .held (.run retries) .received := fun heq ↦ by
            rw [heq] at hexecuting
            cases hexecuting
          refine .of_executing (fun job' hjob' ↦ ?_) (Queue.mem_put_of_ne hm hd hne) hexecuting
          obtain rfl := Option.some.inj hjob'
          rw [ApplicationJob.writeBack_status_self, e, hs]
        · exact .of_not_isLive fun job' ↦ hover job' (by rw [e]; rfl)
        · exact .of_not_isLive fun job' ↦ hover job' (by rw [e]; rfl)
        · exact absurd (by rw [e]; rfl) hrun

theorem CoverInv.read (h : CoverInv o s) {retries : ℕ} {outcome : RunnerOutcome} {now : DateTime}
    (hm : s.queue[m]? = some (.held (.run retries) (.ended outcome)))
    (hdeferred : s.deferredForever o m = false) : CoverInv o (s.read m retries outcome now) := by
  have hcounted : retries + 1 ≤ s.attempts := h.counted _ (Queue.mem_of_getElem? hm)
  have hafter : Counted o s.attempts (.held (.run retries) outcome.afterwards) := by
    cases outcome with
    | returned => exact (Nat.le_succ _).trans hcounted
    | effectInFlight | raised => exact hcounted
  rw [Deliveries.read]
  split
  · next hrow =>
    rw [Deliveries.attempts, hrow] at hcounted
    cases hcounted
  · next job hrow =>
    have hattempts : s.attempts = job.attempts := by rw [Deliveries.attempts, hrow]; rfl
    by_cases hearly : returnsEarly outcome job = true
    · rw [if_pos hearly]
      refine ⟨h.limited, Queue.forall_mem_put h.counted hafter, ?_⟩
      refine h.covered.put_of_not_running (fun job' hjob' hstatus ↦ ?_) hm nofun
      obtain rfl : job = job' := Option.some.inj (hrow.symm.trans hjob')
      cases outcome with
      | effectInFlight exc => simp [returnsEarly, hstatus] at hearly
      | returned | raised => simp [returnsEarly, hstatus, JobStatus.isFinal] at hearly
    · rw [if_neg hearly]
      refine h.put hm (fun _ ↦ ?_) nofun fun _ ↦ rfl
      refine ⟨hcounted, hattempts ▸ hcounted, h.limited job hrow, by simpa using hearly, ?_⟩
      rintro exc rfl
      have hrunning : job.status = .running := by simpa [returnsEarly] using hearly
      simpa [Deliveries.deferredForever, hm, hrow, hrunning] using hdeferred

theorem CoverInv.write (h : CoverInv o s) {retries : ℕ} {outcome : RunnerOutcome}
    {now flushedAt : DateTime} {loaded : ApplicationJob}
    (hm : s.queue[m]? = some (.held (.run retries) (.writing outcome now loaded))) :
    CoverInv o { s.advance m retries outcome.afterwards with
      row := s.row.map (loaded.writeBack (settleJob S outcome now loaded) flushedAt) } := by
  obtain ⟨hcounted, hloaded, hlimited, hsettles, hdeferred⟩ :=
    h.counted _ (Queue.mem_of_getElem? hm)
  obtain ⟨hmax, hretryable, hkept⟩ := settleJob_limits (S := S) outcome now loaded
  have hafter : Counted o s.attempts (.held (.run retries) outcome.afterwards) := by
    cases outcome with
    | returned => exact (Nat.le_succ _).trans hcounted
    | effectInFlight | raised => exact hcounted
  have hattempts : (s.row.map (loaded.writeBack (settleJob S outcome now loaded) flushedAt)).elim 0
      (·.attempts) = s.attempts := by
    rw [Deliveries.attempts]
    rcases s.row with - | job
    · rfl
    · exact ApplicationJob.writeBack_attempts hkept _ _
  refine ⟨fun job hjob ↦ ?_, ?_, ?_⟩
  · obtain ⟨current, hrow, rfl⟩ := Option.map_eq_some_iff.1 hjob
    exact (h.limited current hrow).writeBack hmax hretryable flushedAt
  · rw [Deliveries.attempts, hattempts]
    exact Queue.forall_mem_put h.counted hafter
  · rcases settle_cases (S := S) now hlimited hloaded hsettles hdeferred with
      hpending | ⟨hover, hchanged⟩
    · exact .of_pending (Queue.mem_put_self hm) hpending
    · refine .of_not_isLive fun job hjob ↦ ?_
      obtain ⟨current, -, rfl⟩ := Option.map_eq_some_iff.1 hjob
      rwa [ApplicationJob.writeBack_status_of_ne hchanged]

theorem CoverInv.step (h : CoverInv o s) (hC : KeepsJobs S o s a) (hstep : DeliveryStep S o s a t) :
    CoverInv o t := by
  cases hstep with
  | @post _ body hbody =>
    refine h.post ?_
    rcases hbody with ⟨-, rfl, htask⟩ | ⟨-, rfl⟩ | hmem | ⟨stage, hmem⟩
    · exact htask
    · exact Nat.zero_le _
    · exact h.counted _ hmem
    · rcases body with - | retries
      · have htask : o.task = .indexRagDocument := h.counted _ hmem
        exact htask
      · exact (h.counted _ hmem).retries_le
  | @receive m body hm =>
    refine h.put hm (fun hcounted ↦ ?_) (fun _ ↦ ?_) fun _ ↦ ?_
    · rcases body with - | retries <;> exact hcounted
    · rcases body with - | retries <;> rfl
    · rcases body with - | retries <;> rfl
  | @die m body stage hm =>
    -- The message is in the queue again, and covers whatever the worker covered.
    refine h.put hm (fun hcounted ↦ ?_) (fun _ ↦ rfl) fun _ ↦ rfl
    rcases body with - | retries
    · exact hcounted
    · exact hcounted.retries_le
  | @ensure m id now flushedAt hm =>
    have htask : o.task = .indexRagDocument := h.counted _ (Queue.mem_of_getElem? hm)
    refine ⟨fun job hjob ↦ ?_, Queue.forall_mem_put (fun e he ↦ (h.counted e he).mono ?_) htask,
      .of_pending (Queue.mem_put_self hm) rfl⟩
    · rcases hrow : s.row with - | job'
      · rw [hrow] at hjob
        obtain rfl := Option.some.inj hjob
        exact ⟨by rw [htask]; rfl, rfl⟩
      · rw [hrow] at hjob
        obtain rfl := Option.some.inj hjob
        exact h.limited _ hrow
    · rw [Deliveries.attempts, Deliveries.attempts]
      rcases s.row with - | job'
      · exact Nat.zero_le _
      · exact le_rfl
  | @publish m hm =>
    have htask : o.task = .indexRagDocument := h.counted _ (Queue.mem_of_getElem? hm)
    exact ⟨h.limited, Queue.forall_mem_post (Queue.forall_mem_put h.counted htask) (Nat.zero_le _),
      .of_pending (Queue.mem_post_self _ _) rfl⟩
  | claim hm => exact h.claim hm hC
  | endRun hm => exact h.put hm id nofun fun _ ↦ rfl
  | read hm => exact h.read hm hC
  | write hm => exact h.write hm
  | @retry m retries hm hleft =>
    have hcounted : retries + 1 ≤ s.attempts := h.counted _ (Queue.mem_of_getElem? hm)
    refine ⟨h.limited, Queue.forall_mem_post (Queue.forall_mem_put h.counted ?_) hcounted,
      .of_pending (Queue.mem_post_self _ _) rfl⟩
    exact (Nat.le_succ _).trans hcounted
  | @fail m retries hm hnone =>
    -- Without retries left the delivery was not pending any more, so the cover is somebody else.
    have hclosed : isPending o (.held (.run retries) .raised) = false := by
      simpa [isPending] using hnone
    refine h.put hm (fun hcounted ↦ (Nat.le_succ _).trans hcounted) (fun hpending ↦ ?_)
      fun hopen ↦ ?_
    · rw [hclosed] at hpending
      cases hpending
    · rw [isOpen, hclosed] at hopen
      cases hopen
  | @acknowledge m body hm =>
    refine h.put hm (fun _ ↦ trivial) (fun hpending ↦ ?_) fun hopen ↦ ?_
    · rcases body with - | retries <;> cases hpending
    · rcases body with - | retries <;> cases hopen
  | checkCancel => exact ⟨h.limited, h.counted, h.covered⟩
  | @cancel operator now flushedAt loaded modified hloaded hmodified =>
    obtain ⟨hqueued, hcancelled⟩ := cancelApplication_eq_some hmodified
    have hchanged : modified.status ≠ loaded.status := by rw [hcancelled, hqueued]; nofun
    refine ⟨fun job hjob ↦ ?_, fun d hd ↦ (h.counted d hd).mono ?_, .of_not_isLive fun job hjob ↦ ?_⟩
    · obtain ⟨current, hrow, rfl⟩ := Option.map_eq_some_iff.1 hjob
      exact (h.limited current hrow).writeBack (by rw [hcancelled]) (by rw [hcancelled]) flushedAt
    · show s.attempts ≤ (s.row.map (loaded.writeBack modified flushedAt)).elim 0 (·.attempts)
      rw [Deliveries.attempts]
      rcases s.row with - | current
      · exact le_rfl
      · exact (ApplicationJob.writeBack_attempts (by rw [hcancelled]) _ _).ge
    · obtain ⟨current, -, rfl⟩ := Option.map_eq_some_iff.1 hjob
      rw [ApplicationJob.writeBack_status_of_ne hchanged, hcancelled]
      rfl

theorem CoverInv.reachable (h : (deliveryMachine S o).Reachable (KeepsJobs S o) s) : CoverInv o s := by
  refine h.invariant (fun s₀ h₀ ↦ ?_) fun s a t hinv hC hstep ↦
    hinv.step hC (deliveryStep_sound hstep)
  obtain rfl : s₀ = .initial := h₀
  have hrow : ∀ job, Deliveries.initial.row ≠ some job := fun job hjob ↦ by cases hjob
  exact ⟨fun job hjob ↦ absurd hjob (hrow job), fun d hd ↦ absurd hd List.not_mem_nil,
    .of_not_isLive fun job hjob ↦ absurd hjob (hrow job)⟩

end Cover

/-! ### No accepted job is lost -/

/-- If the job of the row is not over, some delivery of it is still to be acted on. -/
def NotLost (o : Operation) (s : Deliveries) : Prop :=
  ∀ job, s.row = some job → job.status.isLive = true → ∃ d ∈ s.queue, isOpen o d = true

/-- **No accepted job is lost**, as long as no delivery meets a running row that a dead worker has
left, and none is deferred on its last retry. -/
theorem no_job_is_lost (S : Settings) (o : Operation) (s : Deliveries)
    (h : (deliveryMachine S o).Reachable (KeepsJobs S o) s) : NotLost o s := by
  intro job hrow hlive
  have hcover := (CoverInv.reachable h).covered
  have hpending : job.status = .queued ∨ job.status = .failed → ∃ d ∈ s.queue, isOpen o d = true :=
    fun hstatus ↦ by
      obtain ⟨d, hd, hpending⟩ := hcover.pending job hrow hstatus
      exact ⟨d, hd, by rw [isOpen, hpending, Bool.true_or]⟩
  rcases hs : job.status with - | - | - | - | - | -
  · exact hpending (.inl hs)
  · exact hcover.running job hrow hs
  · rw [hs] at hlive
    cases hlive
  · exact hpending (.inr hs)
  · rw [hs] at hlive
    cases hlive
  · rw [hs] at hlive
    cases hlive

/-- The delivery of an e-mail. -/
def emailOperation : Operation := ⟨.sendEmail, "email:7", by decide⟩

/-- A worker dies in the runner, and its message is taken again after the lease. -/
def crashedRun : List DeliveryAction :=
  [.submit, .receive 0, .claim 0 1 0 0, .die 0, .receive 0, .claim 0 2 900000000 900000000]

theorem crashedRun_isSome : ((deliveryMachine .default emailOperation).run
    (KeepsJobs .default emailOperation) .initial crashedRun).isSome = true := by
  decide

theorem crashedRun_not_lost : NotLost emailOperation (Option.get _ crashedRun_isSome) :=
  no_job_is_lost .default emailOperation _ (reachable_run rfl crashedRun_isSome)

/-- A worker dies in the runner, and its message is taken again a second later. -/
def strandedRun : List DeliveryAction :=
  [.submit, .receive 0, .claim 0 1 0 0, .die 0, .receive 0, .claim 0 2 1000000 1000000,
    .acknowledge 0]

theorem strandedRun_isSome : ((deliveryMachine .default emailOperation).run anyStep .initial
    strandedRun).isSome = true := by
  decide

/-- A delivery whose runner is deferred. -/
def deferral (m : ℕ) : List DeliveryAction :=
  [.receive m, .claim m 1 (timedelta (600 * m)) 0,
    .endRun m (.effectInFlight ⟨"ExternalEffectInFlightError", "in flight"⟩),
    .read m (timedelta (600 * m)), .write m 0, .conclude m, .acknowledge m]

/-- The first delivery and all five retries are deferred. -/
def deferredRun : List DeliveryAction := .submit :: (List.range 6).flatMap deferral

theorem deferredRun_isSome : ((deliveryMachine .default emailOperation).run anyStep .initial
    deferredRun).isSome = true := by
  decide

/-- **Jobs are lost.** A dead worker leaves the row `running`, and the redelivery is acknowledged; six
deferrals leave it `queued`. In both runs every message ends up acknowledged. -/
theorem jobs_are_lost :
    (∃ s, (deliveryMachine .default emailOperation).Reachable anyStep s ∧
      ¬NotLost emailOperation s ∧ (s.row.map (·.status)) = some .running ∧
      ∀ d ∈ s.queue, d = .acknowledged) ∧
    ∃ s, (deliveryMachine .default emailOperation).Reachable anyStep s ∧
      ¬NotLost emailOperation s ∧ (s.row.map (·.status)) = some .queued ∧
      ∀ d ∈ s.queue, d = .acknowledged := by
  have hlost : ∀ (s : Deliveries) (job : ApplicationJob), s.row = some job →
      job.status.isLive = true → (∀ d ∈ s.queue, d = .acknowledged) → ¬NotLost emailOperation s := by
    intro s job hrow hlive hall hnot
    obtain ⟨d, hd, hopen⟩ := hnot job hrow hlive
    rw [hall d hd] at hopen
    cases hopen
  have hstranded : ∀ d ∈ (Option.get _ strandedRun_isSome).queue, d = .acknowledged := by decide
  have hdeferred : ∀ d ∈ (Option.get _ deferredRun_isSome).queue, d = .acknowledged := by decide
  exact ⟨⟨_, reachable_run rfl strandedRun_isSome,
      hlost _ _ (Option.some_get (by decide)).symm (by decide) hstranded, by decide, hstranded⟩,
    ⟨_, reachable_run rfl deferredRun_isSome,
      hlost _ _ (Option.some_get (by decide)).symm (by decide) hdeferred, by decide, hdeferred⟩⟩

end GenericApp
