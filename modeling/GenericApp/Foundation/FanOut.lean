import GenericApp.Foundation.Machine
import Mathlib.Algebra.BigOperators.Group.List.Basic
import Mathlib.Algebra.GroupWithZero.Nat

/-!
# Workers that fill a queue, and a loop that empties it

Jobs are dealt to workers. A worker does its jobs one after the other and puts what comes of each into a queue; a job
that fails is its last. A loop takes as many answers from the queue as there are jobs and goes on with each, or stops at
the first failure; then it waits for the workers.

The loop is never left waiting for nobody (`FanOut.someone_works`) and every run ends (`FanOut.remaining_lt`). When it
is over, no job has failed and each was answered once (`FanOut.answered`), or one has and the loop has met a failure
(`FanOut.met_failure`).
-/

universe u v w x

/-- A worker, with the jobs that it has not begun. -/
structure FanWorker (ι : Type u) where
  todo : List ι
  running : Option ι := none
  stopped : Bool := false

/-- The worker will put nothing more into the queue. -/
def FanWorker.done {ι : Type u} (worker : FanWorker ι) : Bool :=
  worker.running.isNone && (worker.stopped || worker.todo.isEmpty)

/-- The jobs that the worker has not ended. -/
def FanWorker.jobs {ι : Type u} (worker : FanWorker ι) : List ι := worker.running.toList ++ worker.todo

/-- The workers, the queue, and the loop with what it has computed. `executed` is the record of what was done. -/
structure FanOut (ι : Type u) (R : Type v) (X : Type w) (A : Type x) where
  workers : List (FanWorker ι)
  queue : List (Except X R)
  executed : List (ι × Except X R)
  taken : List R
  left : ℕ
  failed : Option X
  acc : A
  closed : Bool

/-- A worker begins its next job, or ends it; the loop takes an answer; the loop is over and all workers are done. -/
inductive FanAction (ρ : Type v) (X : Type w)
  | start (worker : ℕ)
  | finish (worker : ℕ) (outcome : Except X ρ)
  | take
  | close

namespace FanOut

variable {ι : Type u} {ρ R : Type v} {X : Type w} {A : Type x}

section Steps

variable (answer : ι → ρ → R) (body : A → R → A)

/-- One step. `answer` makes an answer of what comes of a job, and `body` is the body of the loop. -/
def step (s : FanOut ι R X A) : FanAction ρ X → Option (FanOut ι R X A)
  | .start worker =>
    match s.workers[worker]? with
    | some ⟨job :: todo, none, false⟩ => some { s with workers := s.workers.set worker ⟨todo, some job, false⟩ }
    | _ => none
  | .finish worker outcome =>
    match s.workers[worker]? with
    | some ⟨todo, some job, stopped⟩ =>
      some { s with
        workers := s.workers.set worker ⟨todo, none, stopped || outcome.toOption.isNone⟩
        queue := s.queue ++ [outcome.map (answer job)]
        executed := s.executed ++ [(job, outcome.map (answer job))] }
    | _ => none
  | .take =>
    match s.failed, s.left, s.queue with
    | none, left + 1, .ok result :: queue =>
      some { s with queue := queue, taken := s.taken ++ [result], left := left, acc := body s.acc result }
    | none, _ + 1, .error failure :: queue => some { s with queue := queue, failed := some failure }
    | _, _, _ => none
  | .close =>
    if s.closed = false ∧ (s.left = 0 ∨ s.failed.isSome) ∧ s.workers.all FanWorker.done then
      some { s with closed := true }
    else none

/-- Every job of `batches` is dealt to a worker, and the loop is to take as many answers as there are `jobs`. -/
def start (jobs : List ι) (batches : List (List ι)) (acc : A) : FanOut ι R X A where
  workers := batches.map fun batch ↦ { todo := batch }
  queue := []
  executed := []
  taken := []
  left := jobs.length
  failed := none
  acc := acc
  closed := false

end Steps

/-! ### Dealing -/

/-- `jobs[offset::step]`, for a step that is not nought. -/
def stride (step : ℕ) : ℕ → List ι → List ι
  | _, [] => []
  | 0, job :: jobs => job :: stride step (step - 1) jobs
  | offset + 1, _ :: jobs => stride step offset jobs

/-- Dealt in turn to some workers, every job goes to one of them. -/
theorem stride_perm (step : ℕ) (jobs : List ι) :
    ((List.range (step + 1)).flatMap fun offset ↦ stride (step + 1) offset jobs).Perm jobs := by
  induction jobs with
  | nil => simp [stride]
  | cons job jobs ih =>
    -- the worker who gets the first job is the last in turn for the others
    have hfirst : ((List.range (step + 1)).flatMap fun offset ↦ stride (step + 1) offset (job :: jobs)) =
        job :: (stride (step + 1) step jobs ++ (List.range step).flatMap fun offset ↦ stride (step + 1) offset jobs) := by
      rw [List.range_succ_eq_map, List.flatMap_cons, List.flatMap_map]
      rfl
    rw [List.range_succ, List.flatMap_append, List.flatMap_singleton] at ih
    rw [hfirst]
    exact (List.perm_append_comm.trans ih).cons job

/-! ### What every step keeps -/

variable {answer : ι → ρ → R} {body : A → R → A} {jobs : List ι} {first : A} {s t : FanOut ι R X A}
  {a : FanAction ρ X}

/-- What is so in every state: every job is in the record or with a worker, and what is there for it is an answer to it;
what was put into the queue was taken out of it, one after the other, or is there; the loop has taken as many answers as
it may; and where a worker has stopped, a job has failed. -/
structure Invariant (answer : ι → ρ → R) (body : A → R → A) (jobs : List ι) (first : A) (s : FanOut ι R X A) :
    Prop where
  jobs_perm : (s.executed.map Prod.fst ++ s.workers.flatMap FanWorker.jobs).Perm jobs
  answers : ∀ entry ∈ s.executed, ∃ outcome : Except X ρ, entry.2 = outcome.map (answer entry.1)
  queued : s.executed.map Prod.snd = s.taken.map .ok ++ (s.failed.toList.map .error ++ s.queue)
  counted : s.left + s.taken.length = jobs.length
  computed : s.acc = s.taken.foldl body first
  stopped : ∀ worker ∈ s.workers, worker.stopped = true → ∃ entry ∈ s.executed, entry.2.toOption = none
  ended : s.closed = true → (s.left = 0 ∨ s.failed.isSome) ∧ s.workers.all FanWorker.done

/-- What a worker has is exchanged for what it has then. -/
theorem flatMap_set_perm {workers : List (FanWorker ι)} {i : ℕ} {old : FanWorker ι} (new : FanWorker ι)
    (h : workers[i]? = some old) : ∃ others : List ι, (workers.flatMap FanWorker.jobs).Perm (old.jobs ++ others) ∧
      ((workers.set i new).flatMap FanWorker.jobs).Perm (new.jobs ++ others) := by
  obtain ⟨hi, hold⟩ := List.getElem?_eq_some_iff.1 h
  obtain ⟨left, right, hworkers, -, hset⟩ := @List.exists_of_set _ i new workers hi
  have hmove (worker : FanWorker ι) : ((left ++ worker :: right).flatMap FanWorker.jobs).Perm
      (worker.jobs ++ (left.flatMap FanWorker.jobs ++ right.flatMap FanWorker.jobs)) := by
    rw [List.flatMap_append, List.flatMap_cons, ← List.append_assoc, ← List.append_assoc]
    exact List.perm_append_comm.append_right _
  refine ⟨left.flatMap FanWorker.jobs ++ right.flatMap FanWorker.jobs, ?_, hset ▸ hmove new⟩
  rw [hworkers, hold]
  exact hmove old

theorem invariant_start {batches : List (List ι)} (first : A) (h : batches.flatten.Perm jobs) :
    Invariant answer body jobs first (start jobs batches first : FanOut ι R X A) where
  jobs_perm := by
    have hjobs : (batches.map fun batch ↦ ({ todo := batch } : FanWorker ι)).flatMap FanWorker.jobs =
        batches.flatten := by
      rw [List.flatMap_map]
      exact List.flatMap_id
    rw [start, hjobs]
    exact h
  answers entry hentry := absurd hentry List.not_mem_nil
  queued := rfl
  counted := rfl
  computed := rfl
  stopped worker hworker hstopped := by
    obtain ⟨batch, -, rfl⟩ := List.mem_map.1 hworker
    exact absurd hstopped Bool.false_ne_true
  ended h := absurd h Bool.false_ne_true

theorem start_eq_some {worker : ℕ} (h : step answer body s (.start worker) = some t) :
    ∃ job todo, s.workers[worker]? = some ⟨job :: todo, none, false⟩ ∧
      t = { s with workers := s.workers.set worker ⟨todo, some job, false⟩ } := by
  rw [step] at h
  split at h
  · next job todo hworker => exact ⟨job, todo, hworker, (Option.some.inj h).symm⟩
  · exact nomatch h

theorem finish_eq_some {worker : ℕ} {outcome : Except X ρ} (h : step answer body s (.finish worker outcome) = some t) :
    ∃ todo job stopped, s.workers[worker]? = some ⟨todo, some job, stopped⟩ ∧
      t = { s with
        workers := s.workers.set worker ⟨todo, none, stopped || outcome.toOption.isNone⟩
        queue := s.queue ++ [outcome.map (answer job)]
        executed := s.executed ++ [(job, outcome.map (answer job))] } := by
  rw [step] at h
  split at h
  · next todo job stopped hworker => exact ⟨todo, job, stopped, hworker, (Option.some.inj h).symm⟩
  · exact nomatch h

theorem take_eq_some (h : step answer body s (.take : FanAction ρ X) = some t) :
    s.failed = none ∧ ∃ left, s.left = left + 1 ∧
      ((∃ result queue, s.queue = .ok result :: queue ∧
          t = { s with queue := queue, taken := s.taken ++ [result], left := left, acc := body s.acc result }) ∨
        ∃ failure queue, s.queue = .error failure :: queue ∧
          t = { s with queue := queue, failed := some failure }) := by
  rw [step] at h
  split at h
  · next left result queue hfailed hleft hqueue =>
    exact ⟨hfailed, left, hleft, .inl ⟨result, queue, hqueue, (Option.some.inj h).symm⟩⟩
  · next left failure queue hfailed hleft hqueue =>
    exact ⟨hfailed, left, hleft, .inr ⟨failure, queue, hqueue, (Option.some.inj h).symm⟩⟩
  · exact nomatch h

theorem close_eq_some (h : step answer body s (.close : FanAction ρ X) = some t) :
    (s.closed = false ∧ (s.left = 0 ∨ s.failed.isSome) ∧ s.workers.all FanWorker.done) ∧
      t = { s with closed := true } := by
  rw [step] at h
  split at h
  · next hclose => exact ⟨hclose, (Option.some.inj h).symm⟩
  · exact nomatch h

/-- Workers that are done do nothing more. -/
theorem not_done {worker : FanWorker ι} {i : ℕ} (h : s.workers[i]? = some worker) (hdone : worker.done = false) :
    s.workers.all FanWorker.done = false :=
  List.all_eq_false.2 ⟨worker, List.mem_of_getElem? h, by rw [hdone]; exact Bool.false_ne_true⟩

/-- A closed loop does nothing more. -/
theorem step_closed (h : Invariant answer body jobs first s) (hclosed : s.closed = true) : step answer body s a = none := by
  by_contra hsome
  obtain ⟨t, hstep⟩ := Option.ne_none_iff_exists'.1 hsome
  cases a with
  | start i =>
    obtain ⟨job, todo, hworker, -⟩ := start_eq_some hstep
    have hbusy := not_done hworker rfl
    rw [(h.ended hclosed).2] at hbusy
    exact absurd hbusy (Bool.true_eq_false ▸ id)
  | finish i outcome =>
    obtain ⟨todo, job, stopped, hworker, -⟩ := finish_eq_some hstep
    have hbusy := not_done hworker rfl
    rw [(h.ended hclosed).2] at hbusy
    exact absurd hbusy (Bool.true_eq_false ▸ id)
  | take =>
    obtain ⟨hfailed, left, hleft, -⟩ := take_eq_some hstep
    have hopen := (h.ended hclosed).1
    rw [hleft, hfailed] at hopen
    simp at hopen
  | close =>
    obtain ⟨⟨hopen, -⟩, -⟩ := close_eq_some hstep
    exact absurd (hopen.symm.trans hclosed) Bool.false_ne_true

theorem invariant_step (h : Invariant answer body jobs first s) (hstep : step answer body s a = some t) :
    Invariant answer body jobs first t := by
  cases a with
  | start i =>
    obtain ⟨job, todo, hworker, rfl⟩ := start_eq_some hstep
    obtain ⟨others, hold, hnew⟩ := flatMap_set_perm ⟨todo, some job, false⟩ hworker
    refine ⟨?_, h.answers, h.queued, h.counted, h.computed, fun worker hmem hstopped ↦ ?_, fun hclosed ↦ ?_⟩
    · exact ((hnew.trans hold.symm).append_left _).trans h.jobs_perm
    · rcases List.mem_or_eq_of_mem_set hmem with hmem | rfl
      · exact h.stopped worker hmem hstopped
      · exact absurd hstopped Bool.false_ne_true
    · exact nomatch (step_closed h hclosed).symm.trans hstep
  | finish i outcome =>
    obtain ⟨todo, job, stopped, hworker, rfl⟩ := finish_eq_some hstep
    obtain ⟨others, hold, hnew⟩ := flatMap_set_perm ⟨todo, none, stopped || outcome.toOption.isNone⟩ hworker
    refine ⟨?_, fun entry hentry ↦ ?_, ?_, h.counted, h.computed, fun worker hmem hstopped ↦ ?_, fun hclosed ↦ ?_⟩
    · dsimp only
      rw [List.map_append, List.append_assoc]
      refine ((hnew.cons job).append_left _).trans (.trans ?_ h.jobs_perm)
      exact hold.symm.append_left _
    · rcases List.mem_append.1 hentry with hentry | hentry
      · exact h.answers entry hentry
      · exact ⟨outcome, by rw [List.mem_singleton.1 hentry]⟩
    · dsimp only
      rw [List.map_append, h.queued, List.append_assoc, List.append_assoc]
      rfl
    · dsimp only at hmem ⊢
      rcases List.mem_or_eq_of_mem_set hmem with hmem | rfl
      · obtain ⟨entry, hentry, hfailed⟩ := h.stopped worker hmem hstopped
        exact ⟨entry, List.mem_append_left _ hentry, hfailed⟩
      · rw [Bool.or_eq_true] at hstopped
        rcases hstopped with hbefore | hnow
        · obtain ⟨entry, hentry, hfailed⟩ := h.stopped _ (List.mem_of_getElem? hworker) hbefore
          exact ⟨entry, List.mem_append_left _ hentry, hfailed⟩
        · refine ⟨_, List.mem_append_right _ (List.mem_singleton_self _), ?_⟩
          cases outcome with
          | ok result => exact absurd hnow Bool.false_ne_true
          | error failure => rfl
    · exact nomatch (step_closed h hclosed).symm.trans hstep
  | take =>
    obtain ⟨hfailed, left, hleft, ⟨result, queue, hqueue, rfl⟩ | ⟨failure, queue, hqueue, rfl⟩⟩ := take_eq_some hstep
    · refine ⟨h.jobs_perm, h.answers, ?_, ?_, ?_, h.stopped, fun hclosed ↦ ?_⟩
      · rw [h.queued, hqueue, hfailed]
        simp
      · have hcounted := h.counted
        dsimp only
        rw [List.length_append, List.length_singleton]
        omega
      · dsimp only
        rw [List.foldl_append, ← h.computed]
        rfl
      · exact nomatch (step_closed h hclosed).symm.trans hstep
    · refine ⟨h.jobs_perm, h.answers, ?_, h.counted, h.computed, h.stopped,
        fun hclosed ↦ ⟨.inr rfl, (h.ended hclosed).2⟩⟩
      rw [h.queued, hqueue, hfailed]
      rfl
  | close =>
    obtain ⟨⟨-, hclose⟩, rfl⟩ := close_eq_some hstep
    exact ⟨h.jobs_perm, h.answers, h.queued, h.counted, h.computed, h.stopped, fun _ ↦ hclose⟩

/-! ### Progress -/

/-- How many steps there can still be, at most. -/
def remaining (s : FanOut ι R X A) : ℕ :=
  (s.workers.map fun worker ↦ 3 * worker.todo.length + 2 * worker.running.toList.length).sum + s.queue.length +
    if s.closed then 0 else 1

theorem sum_set {workers : List (FanWorker ι)} {i : ℕ} {old : FanWorker ι} (new : FanWorker ι) (f : FanWorker ι → ℕ)
    (h : workers[i]? = some old) :
    ((workers.set i new).map f).sum + f old = (workers.map f).sum + f new := by
  obtain ⟨hi, hold⟩ := List.getElem?_eq_some_iff.1 h
  obtain ⟨left, right, hworkers, -, hset⟩ := @List.exists_of_set _ i new workers hi
  rw [hset, hworkers, hold]
  simp only [List.map_append, List.map_cons, List.sum_append, List.sum_cons]
  omega

/-- **Every run ends.** -/
theorem remaining_lt (hstep : step answer body s a = some t) : t.remaining < s.remaining := by
  cases a with
  | start i =>
    obtain ⟨job, todo, hworker, rfl⟩ := start_eq_some hstep
    have hsum := sum_set ⟨todo, some job, false⟩
      (fun worker ↦ 3 * worker.todo.length + 2 * worker.running.toList.length) hworker
    simp only [List.length_cons, Option.toList_none, Option.toList_some, List.length_nil] at hsum
    simp only [remaining]
    omega
  | finish i outcome =>
    obtain ⟨todo, job, stopped, hworker, rfl⟩ := finish_eq_some hstep
    have hsum := sum_set ⟨todo, none, stopped || outcome.toOption.isNone⟩
      (fun worker ↦ 3 * worker.todo.length + 2 * worker.running.toList.length) hworker
    simp only [List.length_cons, Option.toList_none, Option.toList_some, List.length_nil] at hsum
    simp only [remaining, List.length_append, List.length_singleton]
    omega
  | take =>
    obtain ⟨-, left, -, ⟨result, queue, hqueue, rfl⟩ | ⟨failure, queue, hqueue, rfl⟩⟩ := take_eq_some hstep <;>
    · simp only [remaining, hqueue, List.length_cons]
      omega
  | close =>
    obtain ⟨⟨hopen, -⟩, rfl⟩ := close_eq_some hstep
    simp only [remaining, hopen, Bool.false_eq_true, if_false, if_true]
    omega

/-- Where all workers are done and nothing has failed, all jobs are in the record. -/
theorem executed_perm (h : Invariant answer body jobs first s) (hdone : s.workers.all FanWorker.done)
    (hok : ∀ entry ∈ s.executed, entry.2.toOption ≠ none) : (s.executed.map Prod.fst).Perm jobs := by
  have hnone : s.workers.flatMap FanWorker.jobs = [] := by
    refine List.flatMap_eq_nil_iff.2 fun worker hworker ↦ ?_
    have hworkerDone := List.all_eq_true.1 hdone worker hworker
    rw [FanWorker.done, Bool.and_eq_true, Bool.or_eq_true, Option.isNone_iff_eq_none, List.isEmpty_iff] at hworkerDone
    obtain ⟨hrunning, hstopped | htodo⟩ := hworkerDone
    · obtain ⟨entry, hentry, hfailed⟩ := h.stopped worker hworker hstopped
      exact absurd hfailed (hok entry hentry)
    · rw [FanWorker.jobs, hrunning, htodo]
      rfl
  have hperm := h.jobs_perm
  rwa [hnone, List.append_nil] at hperm

/-- **The loop does not wait for nobody**: where it waits at an empty queue, a worker is not done. -/
theorem someone_works (h : Invariant answer body jobs first s) (hfailed : s.failed = none) (hqueue : s.queue = [])
    (hleft : s.left ≠ 0) : s.workers.all FanWorker.done = false := by
  by_contra hall
  rw [Bool.not_eq_false] at hall
  have hqueued := h.queued
  rw [hfailed, hqueue] at hqueued
  simp only [Option.toList_none, List.map_nil, List.append_nil] at hqueued
  have hok : ∀ entry ∈ s.executed, entry.2.toOption ≠ none := by
    intro entry hentry
    have hmem : entry.2 ∈ s.taken.map (.ok : R → Except X R) := hqueued ▸ List.mem_map_of_mem hentry
    obtain ⟨result, -, hresult⟩ := List.mem_map.1 hmem
    rw [← hresult]
    exact fun hnone ↦ nomatch hnone
  have hlength := (executed_perm h hall hok).length_eq
  have hboth := congrArg List.length hqueued
  simp only [List.length_map] at hlength hboth
  have hcounted := h.counted
  omega

/-- A worker that is not done can go on. -/
theorem worker_enabled (outcome : Except X ρ) (hbusy : s.workers.all FanWorker.done = false) :
    ∃ a : FanAction ρ X, (step answer body s a).isSome := by
  obtain ⟨worker, hworker, hnot⟩ := List.all_eq_false.1 hbusy
  obtain ⟨i, hi⟩ := List.mem_iff_getElem?.1 hworker
  obtain ⟨todo, running, stopped⟩ := worker
  rcases running with - | job
  · rcases stopped with - | -
    · rcases todo with - | ⟨job, todo⟩
      · exact absurd rfl hnot
      · exact ⟨.start i, by rw [step, hi]; rfl⟩
    · exact absurd rfl hnot
  · exact ⟨.finish i outcome, by rw [step, hi]; rfl⟩

/-- **Until the loop is over, there is a next step.** -/
theorem exists_step (outcome : Except X ρ) (h : Invariant answer body jobs first s) (hopen : s.closed = false) :
    ∃ a : FanAction ρ X, (step answer body s a).isSome := by
  by_cases hbusy : s.workers.all FanWorker.done = false
  · exact worker_enabled outcome hbusy
  rw [Bool.not_eq_false] at hbusy
  by_cases hclose : s.left = 0 ∨ s.failed.isSome
  · exact ⟨.close, by rw [step, if_pos ⟨hopen, hclose, hbusy⟩]; rfl⟩
  rw [not_or, Option.not_isSome_iff_eq_none] at hclose
  obtain ⟨left, hleft⟩ := Nat.exists_eq_succ_of_ne_zero hclose.1
  rcases hqueue : s.queue with - | ⟨first, queue⟩
  · have hsomeone := someone_works h hclose.2 hqueue hclose.1
    rw [hbusy] at hsomeone
    exact absurd hsomeone (Bool.true_eq_false ▸ id)
  · refine ⟨.take, ?_⟩
    rw [step, hclose.2, hleft, hqueue]
    cases first <;> rfl

/-! ### The end -/

/-- **Where no job has failed, every job was answered once**, and the loop has gone on with all the answers. -/
theorem answered (h : Invariant answer body jobs first s) (hclosed : s.closed = true)
    (hok : ∀ entry ∈ s.executed, entry.2.toOption ≠ none) :
    s.failed = none ∧ (s.executed.map Prod.fst).Perm jobs ∧ s.executed.map Prod.snd = s.taken.map .ok := by
  have hperm := executed_perm h (h.ended hclosed).2 hok
  have hfailed : s.failed = none := by
    rcases hfailed : s.failed with - | failure
    · rfl
    · have hmem : (.error failure : Except X R) ∈ s.executed.map Prod.snd := by
        rw [h.queued, hfailed]
        exact List.mem_append_right _ (List.mem_append_left _ (List.mem_singleton_self _))
      obtain ⟨entry, hentry, heq⟩ := List.mem_map.1 hmem
      exact absurd (by rw [heq]; rfl) (hok entry hentry)
  have hqueued := h.queued
  rw [hfailed, Option.toList_none, List.map_nil, List.nil_append] at hqueued
  have hleft := (h.ended hclosed).1.resolve_right (by rw [hfailed]; exact Bool.false_ne_true)
  have hcounted := h.counted
  have hlength := hperm.length_eq
  have hboth := congrArg List.length hqueued
  simp only [List.length_map, List.length_append] at hlength hboth
  have hqueue : s.queue = [] := List.length_eq_zero_iff.1 (by omega)
  rw [hqueue, List.append_nil] at hqueued
  exact ⟨hfailed, hperm, hqueued⟩

/-- **Where a job has failed, the loop has met a failure.** -/
theorem met_failure (h : Invariant answer body jobs first s) (hclosed : s.closed = true)
    (hbad : ∃ entry ∈ s.executed, entry.2.toOption = none) : s.failed.isSome := by
  by_contra hnone
  rw [Option.not_isSome_iff_eq_none] at hnone
  have hleft := (h.ended hclosed).1.resolve_right (by rw [hnone]; exact Bool.false_ne_true)
  have hqueued := h.queued
  rw [hnone, Option.toList_none, List.map_nil, List.nil_append] at hqueued
  have hcounted := h.counted
  have hlength := h.jobs_perm.length_eq
  have hboth := congrArg List.length hqueued
  simp only [List.length_map, List.length_append] at hlength hboth
  have hqueue : s.queue = [] := List.length_eq_zero_iff.1 (by omega)
  rw [hqueue, List.append_nil] at hqueued
  obtain ⟨entry, hentry, hfailed⟩ := hbad
  have hmem : entry.2 ∈ s.taken.map (.ok : R → Except X R) := hqueued ▸ List.mem_map_of_mem hentry
  obtain ⟨result, -, hresult⟩ := List.mem_map.1 hmem
  rw [← hresult] at hfailed
  exact nomatch hfailed

end FanOut
