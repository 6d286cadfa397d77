import GenericApp.Workers.JobFencing
import GenericApp.Workers.JobLifecycle

/-!
# The workers on one operation, as schedules of the lifecycle

`JobRun` takes a claim, a finish or a release in one step. Each of its steps is a schedule of
`jobMachine` in which nobody comes between the statements of that worker, so whatever `JobRun` can
reach, the lifecycle can. `Shows` relates the two states: the relation holds the one row, nobody holds
a lock, and every execution stands where the worker does.
-/

namespace GenericApp

open Machine Py

variable {S : Settings} {op : String} {f : JobState} {s t : JobRun} {a : JobRunAction}

/-- Where an execution of `run_tracked_sync` stands when its worker has reached a phase. -/
def Phase.call : Phase → Call
  | idle => .idle
  | claimed claim _ => .running claim
  | ended claim _ outcome => .ended claim outcome
  | settled => .over

/-- The lifecycle state `f` shows the workers on `op` in the state `s`. -/
structure Shows (op : String) (f : JobState) (s : JobRun) : Prop where
  rows : f.table.rows = s.row.toList
  unlocked : f.lock = fun _ ↦ none
  calls : ∀ w, f.calls w = (s.phase w).call
  operation : ∀ job, s.row = some job → job.operationId = some op

theorem Shows.find_byOperation (h : Shows op f s) : f.table.find (byOperation op) = s.row := by
  rw [Table.find, h.rows]
  rcases hrow : s.row with - | job
  · rfl
  · have hop := (byOperation_ident op job).2 (h.operation job hrow)
    simp [hop]

theorem Shows.find_byId (h : Shows op f s) (id : Uuid) :
    f.table.find (byId id) = s.row.filter fun job ↦ job.id = id := by
  rw [Table.find, h.rows]
  rcases hrow : s.row with - | job
  · rfl
  · by_cases hid : job.id = id
    · have := (byId_ident id job).2 hid
      rw [Option.filter_some, if_pos (decide_eq_true hid)]
      simp [this]
    · have : byId id (jobSchema.ident job) = false := by
        rw [← Bool.not_eq_true, byId_ident]
        exact hid
      rw [Option.filter_some, if_neg (by simpa using hid)]
      simp [this]

/-- A row can be inserted into an empty relation. -/
theorem insert_of_rows_nil {T : JobTable} (h : T.rows = []) (r : ApplicationJob) :
    ∃ T', T.insert r = some T' ∧ T'.rows = [r] := by
  have hall : ∀ a ∈ T.rows, jobSchema.Compat (jobSchema.ident a) (jobSchema.ident r) := by
    simp [h]
  refine ⟨_, dif_pos hall, ?_⟩
  simp [h]

/-- A second row of an operation cannot be inserted. -/
theorem insert_of_operation {T : JobTable} {r job : ApplicationJob} (hjob : job ∈ T.rows)
    (hop : job.operationId = some op) (hr : r.operationId = some op) : T.insert r = none := by
  refine dif_neg fun hall ↦ ?_
  rcases (hall job hjob).2 with hn | hne
  · exact absurd (hop.symm.trans hn) (by simp)
  · exact hne (hop.trans hr.symm)

theorem Shows.calls_update {g : JobState} {w : ℕ} {p : Phase} (h : Shows op f s)
    (hg : g.calls = Function.update f.calls w p.call) (now : DateTime) (v : ℕ) :
    g.calls v = ((s.setPhase w p now).phase v).call := by
  rw [hg]
  rcases eq_or_ne v w with rfl | hne
  · simp [JobRun.setPhase]
  · simp [JobRun.setPhase, Function.update_of_ne hne, h.calls v]

theorem rows_modify_byId {T : JobTable} {job : ApplicationJob} (h : T.rows = [job])
    (m : ApplicationJob) (now : DateTime) :
    (T.modify (byId job.id) (job.writeBack m now)).rows = [job.writeBack m now job] := by
  have hident : jobSchema.ident (job.writeBack m now job) = jobSchema.ident job := by
    show (_, _) = (_, _)
    rw [ApplicationJob.writeBack_id, ApplicationJob.writeBack_operationId]
  show T.rows.map _ = _
  rw [h, List.map_singleton, Table.modifyRow_of_pos ((byId_ident _ _).2 rfl) hident]

theorem writeBack_operation {job : ApplicationJob} (hop : job.operationId = some op)
    (m : ApplicationJob) (now : DateTime) : (job.writeBack m now job).operationId = some op := by
  rw [ApplicationJob.writeBack_operationId, hop]

/-! ### One step, as a schedule -/

theorem ensureQueued_schedule (h : Shows op f s) {id : Uuid} {args : ClaimArgs} {now : DateTime}
    (hop : given args.operationId = some op) :
    ∃ g, (jobMachine S).Later anyStep f g ∧
      Shows op g { s with row := some (s.row.getD (queuedNew id args now now)), clock := now } := by
  have hargs : args.operationId = some op := (given_eq_some_iff.1 hop).1
  have hstep : (jobMachine S).step f (.ensureQueued id args now now) =
      some (f.ensureQueued id args now now) := rfl
  refine ⟨_, Later.single trivial hstep, ?_⟩
  rcases hrow : s.row with - | job
  · obtain ⟨T, hins, hrows⟩ := insert_of_rows_nil (by rw [h.rows, hrow]; rfl)
      (queuedNew id args now now)
    refine ⟨?_, h.unlocked, h.calls, fun job hjob ↦ ?_⟩
    · rw [JobState.ensureQueued, hins]
      exact hrows
    · obtain rfl := Option.some.inj hjob
      exact hargs
  · have hmem : job ∈ f.table.rows := by
      rw [h.rows, hrow]
      exact List.mem_singleton.2 rfl
    have hins : f.table.insert (queuedNew id args now now) = none :=
      insert_of_operation hmem (h.operation job hrow) hargs
    refine ⟨?_, h.unlocked, h.calls, fun job' hjob ↦ ?_⟩
    · rw [JobState.ensureQueued, hins]
      show f.table.rows = _
      rw [h.rows, hrow]
      rfl
    · obtain rfl := Option.some.inj hjob
      exact h.operation job hrow

theorem run_schedule (h : Shows op f s) {w : ℕ} {claim : ClaimResult} {since : DateTime}
    {outcome : RunnerOutcome} (hphase : s.phase w = .claimed claim since) :
    ∃ g, (jobMachine S).Later anyStep f g ∧
      Shows op g (s.setPhase w (.ended claim since outcome) s.clock) := by
  have hcall : f.calls w = .running claim := by
    rw [h.calls, hphase]
    rfl
  have hstep : (jobMachine S).step f (.endRun w outcome) =
      some (f.setCall w (.ended claim outcome)) := by
    show jobStep S f (.endRun w outcome) = _
    simp only [jobStep, hcall]
  exact ⟨_, Later.single trivial hstep, h.rows, h.unlocked, h.calls_update rfl _, h.operation⟩

/-- A call and its `SELECT … FOR UPDATE`. -/
theorem select_schedule (h : Shows op f s) {w : ℕ} {args : ClaimArgs} (now : DateTime)
    (hop : given args.operationId = some op) (hidle : s.phase w = .idle) :
    ∃ g, (jobMachine S).Later anyStep f g ∧ g.table = f.table ∧ g.granted = f.granted ∧
      g.started = f.started ∧
      match s.row with
      | none => g.lock = f.lock ∧ g.calls = Function.update f.calls w (.inserting args now 0)
      | some job => g.lock = Function.update f.lock job.id (some w) ∧
          g.calls = Function.update f.calls w (.holding args now job) := by
  have hcall : f.calls w = .idle := by
    rw [h.calls, hidle]
    rfl
  have hstep : (jobMachine S).step f (.call w args now) =
      some (f.setCall w (.selecting args now 0)) := by
    show jobStep S f (.call w args now) = _
    simp only [jobStep, hcall]
  have hfind : (given args.operationId).bind (fun op ↦ f.table.find (byOperation op)) = s.row := by
    rw [hop, Option.bind_some, h.find_byOperation]
  have hselecting : (f.setCall w (.selecting args now 0)).calls w = .selecting args now 0 :=
    Function.update_self ..
  rcases hrow : s.row with - | job
  · have hselect : (jobMachine S).step (f.setCall w (.selecting args now 0)) (.select w) =
        some ((f.setCall w (.selecting args now 0)).setCall w (.inserting args now 0)) := by
      show jobStep S _ (.select w) = _
      simp only [jobStep, hselecting, JobState.select]
      rw [show (f.setCall w (.selecting args now 0)).table = f.table from rfl, hfind, hrow]
    refine ⟨_, (Later.single trivial hstep).tail trivial hselect, rfl, rfl, rfl, rfl, ?_⟩
    exact Function.update_idem ..
  · have hlock : f.lock job.id = none := congrFun h.unlocked job.id
    have hselect : (jobMachine S).step (f.setCall w (.selecting args now 0)) (.select w) =
        some { (f.setCall w (.selecting args now 0)).setCall w (.holding args now job) with
          lock := Function.update f.lock job.id (some w) } := by
      show jobStep S _ (.select w) = _
      simp only [jobStep, hselecting, JobState.select]
      rw [show (f.setCall w (.selecting args now 0)).table = f.table from rfl, hfind, hrow]
      exact if_pos hlock
    refine ⟨_, (Later.single trivial hstep).tail trivial hselect, rfl, rfl, rfl, rfl, ?_⟩
    exact Function.update_idem ..

/-- The start of the runner under a granted claim. -/
theorem start_schedule {w : ℕ} {args : ClaimArgs} {claim : ClaimResult}
    (hcall : f.calls w = .claimed args claim) :
    ∃ g, (jobMachine S).Later anyStep f g ∧ g.table = f.table ∧ g.lock = f.lock ∧
      g.calls = Function.update f.calls w (.running claim) := by
  have hstart : (jobMachine S).step f (.start w) = some (f.start w args claim) := by
    show jobStep S f (.start w) = _
    simp only [jobStep, hcall]
  exact ⟨_, Later.single trivial hstart, rfl, rfl, rfl⟩

/-- An insert that is accepted, and the start of the runner. -/
theorem insert_schedule {w : ℕ} {args : ClaimArgs} {now : DateTime} {k : ℕ} {id : Uuid} {T : JobTable}
    (hcall : f.calls w = .inserting args now k)
    (hins : f.table.insert (claimNew id args now now) = some T) :
    ∃ g, (jobMachine S).Later anyStep f g ∧ g.table = T ∧ g.lock = f.lock ∧
      g.calls = Function.update f.calls w (.running (claimNewResult id)) := by
  have hinsert : (jobMachine S).step f (.insert w id now) =
      some { f.setCall w (.claimed args (claimNewResult id)) with
        table := T
        granted := f.granted ++ [⟨w, args.operationId, 1⟩] } := by
    show jobStep S f (.insert w id now) = _
    simp only [jobStep, hcall, JobState.insert, hins]
  obtain ⟨g, hlater, htable, hlock, hcalls⟩ := start_schedule (S := S) (w := w)
    (f := { f.setCall w (.claimed args (claimNewResult id)) with
      table := T
      granted := f.granted ++ [⟨w, args.operationId, 1⟩] }) (Function.update_self ..)
  refine ⟨g, (Later.single trivial hinsert).trans hlater, htable, hlock, ?_⟩
  rw [hcalls]
  exact Function.update_idem ..

/-- The rest of a claim on the row it holds, and the start of the runner if it runs. -/
theorem commit_schedule {w : ℕ} {args : ClaimArgs} {now : DateTime} {job : ApplicationJob}
    (hcall : f.calls w = .holding args now job) :
    ∃ g, (jobMachine S).Later anyStep f g ∧
      g.table = f.table.modify (byId job.id) (job.writeBack (claimExisting S args now job).1 now) ∧
      g.lock = f.locksWithout w ∧
      g.calls = Function.update f.calls w
        (if (claimExisting S args now job).2.shouldRun then .running (claimExisting S args now job).2
        else .over) := by
  have hcommit : (jobMachine S).step f (.commit w now) = some (f.commit S w args now job now) := by
    show jobStep S f (.commit w now) = _
    simp only [jobStep, hcall]
  rcases hrun : (claimExisting S args now job).2.shouldRun with - | -
  · have hskip : (f.commit S w args now job now).calls = Function.update f.calls w .over := by
      simp [JobState.commit, hrun, JobState.setCall]
    refine ⟨_, Later.single trivial hcommit, ?_, ?_, hskip⟩ <;> simp [JobState.commit, hrun, JobState.setCall]
  · have hclaimed : (f.commit S w args now job now).calls =
        Function.update f.calls w (.claimed args (claimExisting S args now job).2) := by
      simp [JobState.commit, hrun, JobState.setCall]
    obtain ⟨g, hlater, htable, hlock, hcalls⟩ := start_schedule (S := S) (w := w)
      (f := f.commit S w args now job now) (by rw [hclaimed, Function.update_self])
    refine ⟨g, (Later.single trivial hcommit).trans hlater, ?_, ?_, ?_⟩
    · rw [htable]
      simp [JobState.commit, hrun, JobState.setCall]
    · rw [hlock]
      simp [JobState.commit, hrun, JobState.setCall]
    · rw [hcalls, hclaimed, Function.update_idem]
      rfl

theorem claim_schedule (h : Shows op f s) {w : ℕ} {id : Uuid} {args : ClaimArgs} {now : DateTime}
    (hop : given args.operationId = some op) (hidle : s.phase w = .idle)
    (hstep : jobRunStep S op s (.claim w id args now) = some t) :
    ∃ g, (jobMachine S).Later anyStep f g ∧ Shows op g t := by
  have hargs : args.operationId = some op := (given_eq_some_iff.1 hop).1
  obtain ⟨g, hlater, htable, -, -, hg⟩ := select_schedule (S := S) h now hop hidle
  simp only [jobRunStep] at hstep
  split at hstep
  · split at hstep
    · next hrow =>
      obtain rfl := Option.some.inj hstep
      rw [hrow] at hg
      obtain ⟨hlock, hcalls⟩ := hg
      have hnil : g.table.rows = [] := by
        rw [htable, h.rows, hrow]
        rfl
      obtain ⟨T, hins, hrows⟩ := insert_of_rows_nil hnil (claimNew id args now now)
      have hcall : g.calls w = .inserting args now 0 := by rw [hcalls, Function.update_self]
      obtain ⟨g', hlater', htable', hlock', hcalls'⟩ := insert_schedule (S := S) hcall hins
      refine ⟨g', hlater.trans hlater', ?_, ?_, ?_, ?_⟩
      · rw [htable', hrows]
        rfl
      · rw [hlock', hlock, h.unlocked]
      · refine h.calls_update (p := .claimed (claimNewResult id) now) ?_ now
        rw [hcalls', hcalls, Function.update_idem]
        rfl
      · intro job hjob
        obtain rfl := Option.some.inj hjob
        exact hargs
    · next job hrow =>
      obtain rfl := Option.some.inj hstep
      rw [hrow] at hg
      obtain ⟨hlock, hcalls⟩ := hg
      have hrows : g.table.rows = [job] := by
        rw [htable, h.rows, hrow]
        rfl
      have hcall : g.calls w = .holding args now job := by rw [hcalls, Function.update_self]
      obtain ⟨g', hlater', htable', hlock', hcalls'⟩ := commit_schedule (S := S) hcall
      have hunlocked : g'.lock = fun _ ↦ none := funext fun id' ↦ by
        rw [hlock', JobState.locksWithout, hlock, h.unlocked, Function.update_apply]
        split <;> simp
      have hrows' : g'.table.rows =
          [job.writeBack (claimExisting S args now job).1 now job] := by
        rw [htable']
        exact rows_modify_byId hrows _ _
      rw [hcalls, Function.update_idem] at hcalls'
      refine ⟨g', hlater.trans hlater', ?_⟩
      rw [JobRun.claimRow]
      split
      · next hrun =>
        rw [if_pos hrun] at hcalls'
        refine ⟨hrows', hunlocked, h.calls_update hcalls' now, fun job' hjob ↦ ?_⟩
        obtain rfl := Option.some.inj hjob
        exact writeBack_operation (h.operation job hrow) _ _
      · next hskip =>
        rw [if_neg hskip] at hcalls'
        refine ⟨hrows', hunlocked, h.calls_update hcalls' now, fun job' hjob ↦ ?_⟩
        obtain rfl := Option.some.inj hjob
        exact writeBack_operation (h.operation job hrow) _ _
  · cases hstep

/-- A finish or a release: the read, and the write if the read calls for one. -/
theorem settle_schedule (h : Shows op f s) {w : ℕ} {claim : ClaimResult} {since now : DateTime}
    {outcome : RunnerOutcome} (hphase : s.phase w = .ended claim since outcome) :
    ∃ g, (jobMachine S).Later anyStep f g ∧ Shows op g { s.setPhase w .settled now with
      row := s.row.map (JobRun.settleRow S claim outcome now) } := by
  have hcall : f.calls w = .ended claim outcome := by
    rw [h.calls, hphase]
    rfl
  have hread : (jobMachine S).step f (.read w now) = some (f.read S w claim outcome now) := by
    show jobStep S f (.read w now) = _
    simp only [jobStep, hcall]
  -- Where the read finds no row, or one it does not settle, it is the whole schedule.
  have hdone : f.read S w claim outcome now = f.setCall w .over →
      s.row.map (JobRun.settleRow S claim outcome now) = s.row →
      ∃ g, (jobMachine S).Later anyStep f g ∧ Shows op g { s.setPhase w .settled now with
        row := s.row.map (JobRun.settleRow S claim outcome now) } := fun hover hrow ↦ by
    rw [hover] at hread
    refine ⟨_, Later.single trivial hread, ?_⟩
    rw [hrow]
    exact ⟨h.rows, h.unlocked, h.calls_update (p := .settled) rfl now, h.operation⟩
  rcases hrow : s.row with - | job
  · rw [← hrow]
    refine hdone ?_ (by rw [hrow]; rfl)
    rw [JobState.read, h.find_byId, hrow]
    rfl
  by_cases hid : job.id = claim.jobId
  · have hfind : f.table.find (byId claim.jobId) = some job := by
      rw [h.find_byId, hrow, Option.filter_some, if_pos (decide_eq_true hid)]
    have hsettle : JobRun.settleRow S claim outcome now job =
        job.writeBack (settleJob S outcome now job) now job := if_pos hid
    by_cases hsame : settleJob S outcome now job = job
    · rw [← hrow]
      refine hdone ?_ ?_
      · rw [JobState.read, hfind]
        exact if_pos hsame
      · rw [hrow, Option.map_some, hsettle, hsame, ApplicationJob.writeBack, if_pos rfl]
    · have hwriting : f.read S w claim outcome now = f.setCall w (.writing outcome now job) := by
        rw [JobState.read, hfind]
        exact if_neg hsame
      rw [hwriting] at hread
      have hwrite : (jobMachine S).step (f.setCall w (.writing outcome now job)) (.write w now) =
          some { (f.setCall w (.writing outcome now job)).setCall w .over with
            table := f.table.modify (byId job.id)
              (job.writeBack (settleJob S outcome now job) now) } := by
        show jobStep S _ (.write w now) = _
        simp only [jobStep, JobState.setCall, Function.update_self, JobState.write]
        exact if_pos (congrFun h.unlocked job.id)
      have hrows : f.table.rows = [job] := by
        rw [h.rows, hrow]
        rfl
      refine ⟨_, (Later.single trivial hread).tail trivial hwrite, ?_, h.unlocked, ?_, ?_⟩
      · rw [Option.map_some, hsettle]
        exact rows_modify_byId hrows _ _
      · exact h.calls_update (p := .settled) (Function.update_idem ..) now
      · intro job' hjob
        obtain rfl := Option.some.inj hjob
        rw [hsettle]
        exact writeBack_operation (h.operation job hrow) _ _
  · rw [← hrow]
    refine hdone ?_ ?_
    · have hfind : f.table.find (byId claim.jobId) = none := by
        rw [h.find_byId, hrow, Option.filter_some, if_neg (by simpa using hid)]
      rw [JobState.read, hfind]
    · rw [hrow, Option.map_some, JobRun.settleRow, if_neg hid]

/-- **Every step of the workers on one operation is a schedule of the lifecycle.** -/
theorem jobRun_schedule (h : Shows op f s) (hstep : (jobRunMachine S op).step s a = some t) :
    ∃ g, (jobMachine S).Later anyStep f g ∧ Shows op g t := by
  change jobRunStep S op s a = some t at hstep
  cases a with
  | ensureQueued id args now =>
    simp only [jobRunStep] at hstep
    split at hstep
    · next hen =>
      obtain rfl := Option.some.inj hstep
      exact ensureQueued_schedule h hen.2
    · cases hstep
  | claim w id args now =>
    have hen : given args.operationId = some op ∧ s.phase w = .idle := by
      simp only [jobRunStep] at hstep
      split at hstep
      · next hen => exact hen.2
      · cases hstep
    exact claim_schedule h hen.1 hen.2 hstep
  | run w outcome =>
    simp only [jobRunStep] at hstep
    split at hstep
    · next claim since hphase =>
      obtain rfl := Option.some.inj hstep
      exact run_schedule h hphase
    · cases hstep
  | settle w now =>
    simp only [jobRunStep] at hstep
    split at hstep
    · split at hstep
      · next claim since outcome hphase =>
        obtain rfl := Option.some.inj hstep
        exact settle_schedule h hphase
      · cases hstep
    · cases hstep

/-- Whatever the workers on one operation reach, the lifecycle reaches. -/
theorem jobRun_reachable (h : (jobRunMachine S op).Reachable anyStep s) :
    ∃ f, (jobMachine S).Reachable anyStep f ∧ Shows op f s := by
  refine h.invariant (I := fun s ↦ ∃ f, (jobMachine S).Reachable anyStep f ∧ Shows op f s) ?_ ?_
  · rintro s rfl
    refine ⟨_, Reachable.of_init rfl, rfl, rfl, fun _ ↦ rfl, fun job hjob ↦ ?_⟩
    cases hjob
  · rintro s a t ⟨f, hf, hshows⟩ _ hstep
    obtain ⟨g, hg, ht⟩ := jobRun_schedule hshows hstep
    exact ⟨g, hf.later hg, ht⟩

theorem jobRun_reachable_superseded :
    ∃ f, (jobMachine .default).Reachable anyStep f ∧ Shows "job" f supersededState :=
  jobRun_reachable (reachable_run rfl supersededRun_isSome)

end GenericApp
