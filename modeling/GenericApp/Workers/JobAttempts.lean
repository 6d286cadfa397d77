import GenericApp.Foundation.Tickets
import GenericApp.Workers.JobLifecycle

/-!
# Attempts are counted once

What the counter `attempts` buys. Every claim answered with `should_run=True` is answered with the
number it leaves in the row, and no statement lowers that number (`step_grows`), so the attempts
granted for one operation are strictly increasing whatever the workers do to each other. Together
with the bound that a claim checks before it grants, and the fact that one granted claim starts the
runner at most once, this bounds the executions of one operation.

The bound is on the limit that the task passes. `FixedLimit` says that every delivery of an operation
passes the same one, which is what a task with a fixed `max_retries` does; the limit that
`ensure_queued_job` stored beforehand is free, since a claim overwrites it.

* `GrantInv`: the attempts granted are covered by the row, bounded, and increasing.
* `StartInv`: the runners started are granted claims, each started once.
* `bounded_execution`: the result, for every state that a run reaches.
-/

namespace GenericApp

open Py

variable {S : Settings} {s t : JobState} {a : JobAction} {limit : String → ℕ}

/-- Every delivery of an operation passes the limit of that operation. -/
def FixedLimit (limit : String → ℕ) (_ : JobState) : JobAction → Prop
  | .call _ args _ => ∀ op ∈ args.operationId, args.maxAttempts = limit op
  | _ => True

instance (s : JobState) (a : JobAction) : Decidable (FixedLimit limit s a) :=
  match a with
  | .call _ args _ => inferInstanceAs (Decidable (∀ op ∈ args.operationId, args.maxAttempts = limit op))
  | .ensureQueued .. | .select .. | .insert .. | .commit .. | .start .. | .endRun .. | .read ..
  | .write .. | .crash .. => isTrue trivial

/-! ### The limit in force -/

/-- A claim that has not been answered yet carries the limit of its operation. -/
def LimitInv (limit : String → ℕ) (s : JobState) : Prop :=
  ∀ w args op, (s.calls w).claimArgs = some args → args.operationId = some op →
    args.maxAttempts = limit op

theorem LimitInv.step (hinv : LimitInv limit s) (hC : FixedLimit limit s a)
    (h : jobStep S s a = some t) : LimitInv limit t := by
  intro w args op hargs hop
  rcases claimArgs_of_step h hargs with hbefore | ⟨now, rfl⟩
  · exact hinv w args op hbefore hop
  · exact hC op hop

/-! ### The claims granted -/

/-- What holds of the claims granted so far. -/
structure GrantInv (limit : String → ℕ) (s : JobState) : Prop where
  /-- The row of an operation has counted every attempt granted for it. -/
  covered : ∀ g ∈ s.granted, ∀ op, g.operationId = some op →
    ∃ job, s.table.find (byOperation op) = some job ∧ g.attempt ≤ job.attempts
  /-- Attempts are numbered from one, and the limit is kept. -/
  bounded : ∀ g ∈ s.granted, ∀ op, g.operationId = some op → 1 ≤ g.attempt ∧ g.attempt ≤ limit op
  /-- Later grants of an operation have larger numbers. -/
  increasing : s.granted.Pairwise fun g g' ↦ ∀ op, g.operationId = some op →
    g'.operationId = some op → g.attempt < g'.attempt

/-- A statement that grants nothing, over rows that only grow. -/
theorem GrantInv.frame (hinv : GrantInv limit s) (hgrows : Grows s.table t.table)
    (hgranted : t.granted = s.granted) : GrantInv limit t := by
  refine ⟨fun g hg op hop ↦ ?_, ?_, ?_⟩
  · rw [hgranted] at hg
    obtain ⟨job, hf, hle⟩ := hinv.covered g hg op hop
    obtain ⟨job', hf', -, hle'⟩ := hgrows _ job hf
    exact ⟨job', hf', hle.trans hle'⟩
  · rw [hgranted]
    exact hinv.bounded
  · rw [hgranted]
    exact hinv.increasing

/-- A statement that grants one claim, larger than what the row had counted and counted by the row
afterwards. -/
theorem GrantInv.grant {g : Grant} (hinv : GrantInv limit s) (hgrows : Grows s.table t.table)
    (hgranted : t.granted = s.granted ++ [g])
    (hlt : ∀ op job, g.operationId = some op → s.table.find (byOperation op) = some job →
      job.attempts < g.attempt)
    (hcov : ∀ op, g.operationId = some op →
      ∃ job, t.table.find (byOperation op) = some job ∧ g.attempt ≤ job.attempts)
    (hbound : ∀ op, g.operationId = some op → 1 ≤ g.attempt ∧ g.attempt ≤ limit op) :
    GrantInv limit t := by
  refine ⟨fun g' hg' op hop ↦ ?_, fun g' hg' op hop ↦ ?_, ?_⟩
  · rw [hgranted, List.mem_append, List.mem_singleton] at hg'
    rcases hg' with hg' | rfl
    · obtain ⟨job, hf, hle⟩ := hinv.covered g' hg' op hop
      obtain ⟨job', hf', -, hle'⟩ := hgrows _ job hf
      exact ⟨job', hf', hle.trans hle'⟩
    · exact hcov op hop
  · rw [hgranted, List.mem_append, List.mem_singleton] at hg'
    rcases hg' with hg' | rfl
    · exact hinv.bounded g' hg' op hop
    · exact hbound op hop
  · rw [hgranted]
    refine List.pairwise_append.2 ⟨hinv.increasing, List.pairwise_singleton _ _, ?_⟩
    intro g₁ hg₁ g₂ hg₂ op hop₁ hop₂
    obtain rfl := List.mem_singleton.1 hg₂
    obtain ⟨job, hf, hle⟩ := hinv.covered g₁ hg₁ op hop₁
    exact hle.trans_lt (hlt op job hop₂ hf)

/-- An accepted insert finds no row of its operation, and leaves one. -/
theorem find_byOperation_of_insert {T T' : JobTable} {r : ApplicationJob} {op : String}
    (h : T.insert r = some T') (hop : r.operationId = some op) :
    T.find (byOperation op) = none ∧ T'.find (byOperation op) = some r := by
  have hnone : T.find (byOperation op) = none := by
    rw [Table.find_eq_none_iff]
    intro job hjob
    rw [← Bool.not_eq_true, byOperation_ident]
    intro hjob'
    rcases (Table.compat_of_insert h hjob).2 with hn | hne
    · exact absurd (hjob'.symm.trans hn) (by simp)
    · exact hne (hjob'.trans hop.symm)
  refine ⟨hnone, ?_⟩
  rw [Table.find_of_insert h, hnone, if_pos ((byOperation_ident op r).2 hop)]
  rfl

/-- A row found by its key is found by its operation. -/
theorem find_byOperation_of_find_byId {T : JobTable} {job : ApplicationJob} {op : String}
    (hfind : T.find (byId job.id) = some job) (hop : job.operationId = some op) :
    T.find (byOperation op) = some job :=
  Table.find_eq_some_of_mem (single_byOperation op) (Table.mem_of_find hfind)
    ((byOperation_ident op job).2 hop)

/-- The row that a write leaves, looked up by its operation. -/
theorem find_byOperation_of_writeBack {T : JobTable} {loaded : ApplicationJob} {op : String}
    (hfind : T.find (byId loaded.id) = some loaded) (hop : loaded.operationId = some op)
    (modified : ApplicationJob) (flushedAt : DateTime) :
    (T.modify (byId loaded.id) (loaded.writeBack modified flushedAt)).find (byOperation op) =
      some (loaded.writeBack modified flushedAt loaded) := by
  rw [Table.find_modify, find_byOperation_of_find_byId hfind hop, Option.map_some,
    Table.modifyRow_of_pos ((byId_ident _ _).2 rfl)]
  show (_, _) = (_, _)
  rw [ApplicationJob.writeBack_id, ApplicationJob.writeBack_operationId]

/-- **A grant is numbered past everything its row had counted.** -/
theorem GrantInv.step (hlimit : ∀ op, 1 ≤ limit op) (hlock : LockInv s) (hargs : LimitInv limit s)
    (hinv : GrantInv limit s) (h : jobStep S s a = some t) : GrantInv limit t := by
  have hgrows := step_grows hlock h
  cases jobStep_sound h with
  | @insertRow w args now k id flushedAt T hcall hins =>
    refine hinv.grant hgrows rfl (fun op job hop hf ↦ ?_) (fun op hop ↦ ?_) fun op _ ↦ ?_
    · rw [(find_byOperation_of_insert hins hop).1] at hf
      cases hf
    · exact ⟨_, (find_byOperation_of_insert hins hop).2, le_rfl⟩
    · exact ⟨le_rfl, hlimit op⟩
  | @commitRun w args now loaded flushedAt hcall hrun =>
    obtain ⟨-, hfind, op₀, hop₀, hloaded⟩ := hlock w args now loaded hcall
    obtain ⟨-, -, hmax, hclaim⟩ := claimExisting_of_shouldRun hrun
    have hattempt : (claimExisting S args now loaded).2.attempt = loaded.attempts + 1 := by
      rw [hclaim, claimRunResult]
    have heq : ∀ op, args.operationId = some op → op = op₀ := fun op hop ↦
      Option.some.inj (hop.symm.trans hop₀)
    refine hinv.grant hgrows rfl (fun op job hop hf ↦ ?_) (fun op hop ↦ ?_) fun op hop ↦ ?_
    · obtain rfl := heq op hop
      rw [find_byOperation_of_find_byId hfind hloaded] at hf
      obtain rfl := Option.some.inj hf
      show loaded.attempts < (claimExisting S args now loaded).2.attempt
      omega
    · obtain rfl := heq op hop
      refine ⟨_, find_byOperation_of_writeBack hfind hloaded _ _, ?_⟩
      rw [ApplicationJob.writeBack_attempts_self, hclaim]
      exact le_rfl
    · -- The limit that the claim checked is the one it carries, which is the operation's.
      obtain rfl := heq op hop
      have hlim : args.maxAttempts = limit op := hargs w args op (by rw [hcall]; rfl) hop
      have hpos := hlimit op
      rw [hlim, orNat_of_pos _ hpos, orNat_of_pos _ hpos] at hmax
      show 1 ≤ (claimExisting S args now loaded).2.attempt ∧
        (claimExisting S args now loaded).2.attempt ≤ limit op
      omega
  | ensureQueued | call | selectNone | selectSome | insertRetry | insertRaise | commitSkip | start
  | endRun | readOver | readRow | write | crash => exact hinv.frame hgrows rfl

/-! ### The runners started -/

/-- What holds of the runners started so far. -/
structure StartInv (s : JobState) : Prop where
  /-- A claim that waits for its runner has been granted. -/
  claimed : ∀ w args claim, s.calls w = .claimed args claim →
    ⟨w, args.operationId, claim.attempt⟩ ∈ s.granted
  /-- A runner is started under a granted claim. -/
  granted : ∀ g ∈ s.started, g ∈ s.granted
  /-- An execution that has started its runner is past the start. -/
  past : ∀ g ∈ s.started, (s.calls g.worker).beforeStart = false
  /-- No granted claim starts the runner twice. -/
  once : s.started.Nodup

/-- A statement of `w` that starts no runner. -/
theorem StartInv.frame {w : WorkerId} {c : Call} (hinv : StartInv s)
    (hcalls : t.calls = Function.update s.calls w c) (hstarted : t.started = s.started)
    (hsub : ∀ g ∈ s.granted, g ∈ t.granted)
    (hclaimed : ∀ args claim, c = .claimed args claim →
      ⟨w, args.operationId, claim.attempt⟩ ∈ t.granted)
    (hpast : (s.calls w).beforeStart = false → c.beforeStart = false) : StartInv t := by
  refine ⟨fun v args claim hv ↦ ?_, fun g hg ↦ ?_, fun g hg ↦ ?_, ?_⟩
  · rcases Machine.update_cases hcalls v with ⟨rfl, hcall⟩ | ⟨-, hcall⟩
    · exact hclaimed args claim (hcall.symm.trans hv)
    · exact hsub _ (hinv.claimed v args claim (hcall.symm.trans hv))
  · rw [hstarted] at hg
    exact hsub g (hinv.granted g hg)
  · rw [hstarted] at hg
    rcases Machine.update_cases hcalls g.worker with ⟨hw, hcall⟩ | ⟨-, hcall⟩
    · rw [hcall]
      exact hpast (hw ▸ hinv.past g hg)
    · rw [hcall]
      exact hinv.past g hg
  · rw [hstarted]
    exact hinv.once

theorem StartInv.step (hinv : StartInv s) (h : jobStep S s a = some t) : StartInv t := by
  cases jobStep_sound h with
  | ensureQueued => exact ⟨hinv.claimed, hinv.granted, hinv.past, hinv.once⟩
  | @start w args claim hcall =>
    have hnew : (⟨w, args.operationId, claim.attempt⟩ : Grant) ∈ s.granted :=
      hinv.claimed w args claim hcall
    -- The worker that starts now has not started before: it still stood before its runner.
    have hfresh : ∀ g ∈ s.started, g.worker ≠ w := by
      rintro g hg rfl
      have := hinv.past g hg
      rw [hcall] at this
      cases this
    refine ⟨fun v args' claim' hv ↦ ?_, fun g hg ↦ ?_, fun g hg ↦ ?_, ?_⟩
    · rcases eq_or_ne v w with rfl | hne
      · simp [JobState.start, JobState.setCall] at hv
      · have hv' : s.calls v = .claimed args' claim' := by
          simpa [JobState.start, JobState.setCall, Function.update_of_ne hne] using hv
        exact hinv.claimed v args' claim' hv'
    · rcases List.mem_append.1 hg with hg | hg
      · exact hinv.granted g hg
      · exact List.mem_singleton.1 hg ▸ hnew
    · rcases List.mem_append.1 hg with hg | hg
      · have hpast := hinv.past g hg
        simpa [JobState.start, JobState.setCall, Function.update_of_ne (hfresh g hg)] using hpast
      · obtain rfl := List.mem_singleton.1 hg
        simp [JobState.start, JobState.setCall, Call.beforeStart]
    · refine List.Nodup.append hinv.once (List.nodup_singleton _) fun g hg hg' ↦ ?_
      exact hfresh g hg (by rw [List.mem_singleton.1 hg'])
  | insertRow hcall | commitRun hcall =>
    refine hinv.frame rfl rfl (fun g hg ↦ List.mem_append_left _ hg) ?_ fun hb ↦ ?_
    · intro args claim hc
      cases hc
      exact List.mem_append_right _ (List.mem_singleton.2 rfl)
    · rw [hcall] at hb
      cases hb
  | call hcall | selectNone hcall | selectSome hcall | insertRetry hcall =>
    refine hinv.frame rfl rfl (fun g hg ↦ hg) (fun _ _ hc ↦ by cases hc) fun hb ↦ ?_
    rw [hcall] at hb
    cases hb
  | insertRaise | commitSkip | endRun | readOver | readRow | write | crash =>
    exact hinv.frame rfl rfl (fun g hg ↦ hg) (fun _ _ hc ↦ by cases hc) fun _ ↦ rfl

/-! ### The bound -/

/-- The three invariants, in every state of a run whose deliveries keep to the limits. -/
theorem attempts_invariant (hlimit : ∀ op, 1 ≤ limit op)
    (h : (jobMachine S).Reachable (FixedLimit limit) s) : GrantInv limit s ∧ StartInv s := by
  suffices H : LockInv s ∧ LimitInv limit s ∧ GrantInv limit s ∧ StartInv s from H.2.2
  refine h.invariant (I := fun s ↦ LockInv s ∧ LimitInv limit s ∧ GrantInv limit s ∧ StartInv s)
    ?_ ?_
  · rintro s rfl
    refine ⟨?_, ?_, ⟨?_, ?_, ?_⟩, ⟨?_, ?_, ?_, ?_⟩⟩
    · intro w args now loaded hw
      cases hw
    · intro w args op hw
      cases hw
    · intro g hg
      cases hg
    · intro g hg
      cases hg
    · exact List.Pairwise.nil
    · intro w args claim hw
      cases hw
    · intro g hg
      cases hg
    · intro g hg
      cases hg
    · exact List.nodup_nil
  · rintro s a t ⟨hlock, hargs, hgrant, hstart⟩ hC hst
    exact ⟨hlock.step hst, hargs.step hC hst, hgrant.step hlimit hlock hargs hst, hstart.step hst⟩

/-- The attempts that claims of an operation were granted, in order. -/
def JobState.attemptsGranted (s : JobState) (op : String) : List ℕ :=
  (s.granted.filter fun g ↦ g.operationId = some op).map Grant.attempt

/-- How often the runner of an operation was started. -/
def JobState.starts (s : JobState) (op : String) : ℕ :=
  (s.started.filter fun g ↦ g.operationId = some op).length

theorem GrantInv.attemptsGranted_increasing (hinv : GrantInv limit s) (op : String) :
    (s.attemptsGranted op).Pairwise (· < ·) := by
  rw [JobState.attemptsGranted, List.pairwise_map, List.pairwise_filter]
  refine hinv.increasing.imp fun hlt hg hg' ↦ ?_
  exact hlt op (by simpa using hg) (by simpa using hg')

theorem starts_le (hgrant : GrantInv limit s) (hstart : StartInv s) (op : String) :
    s.starts op ≤ limit op := by
  have hsub : (s.started.filter fun g ↦ g.operationId = some op) ⊆
      s.granted.filter fun g ↦ g.operationId = some op := fun g hg ↦ by
    obtain ⟨hmem, hop⟩ := List.mem_filter.1 hg
    exact List.mem_filter.2 ⟨hstart.granted g hmem, hop⟩
  have hle : s.starts op ≤ (s.attemptsGranted op).length := by
    rw [JobState.attemptsGranted, List.length_map]
    exact (List.subperm_of_subset (hstart.once.filter _) hsub).length_le
  have hnodup : (s.attemptsGranted op).Nodup :=
    (hgrant.attemptsGranted_increasing op).imp fun hlt ↦ hlt.ne
  refine hle.trans (Tickets.length_le_of_numbered (by rwa [List.map_id']) fun k hk ↦ ?_)
  obtain ⟨g, hg, rfl⟩ := List.mem_map.1 hk
  obtain ⟨hmem, hop⟩ := List.mem_filter.1 hg
  exact hgrant.bounded g hmem op (by simpa using hop)

/-- **Bounded execution.** In every state that deliveries, deaths and redeliveries reach, an
operation has at most one row, its granted attempts are strictly increasing, and its runner was
started at most as often as its limit says. -/
theorem bounded_execution (S : Settings) (limit : String → ℕ) (hlimit : ∀ op, 1 ≤ limit op)
    (s : JobState) (h : (jobMachine S).Reachable (FixedLimit limit) s) (op : String) :
    (s.table.rows.filter fun job ↦ job.operationId = some op).length ≤ 1 ∧
      (s.attemptsGranted op).Pairwise (· < ·) ∧ s.starts op ≤ limit op := by
  obtain ⟨hgrant, hstart⟩ := attempts_invariant hlimit h
  exact ⟨Table.length_filter_le_one (single_byOperation op),
    hgrant.attemptsGranted_increasing op, starts_le hgrant hstart op⟩

/-- A claim inserts the row and fails, its redelivery fails, and the next redelivery finds no attempt
left. -/
def retriedRun : List JobAction :=
  let args : ClaimArgs := ⟨"email", ["to"], "job", some "job", 2, true, none⟩
  let failed : RunnerOutcome := .raised ⟨"OSError", "refused"⟩
  [.call 0 args 0, .select 0, .insert 0 7 1, .start 0, .endRun 0 failed, .read 0 2, .write 0 3,
    .call 1 args 4, .select 1, .commit 1 5, .start 1, .endRun 1 failed, .read 1 6, .write 1 7,
    .call 2 args 8, .select 2, .commit 2 9]

theorem retriedRun_isSome :
    ((jobMachine .default).run (FixedLimit fun _ ↦ 2) .initial retriedRun).isSome = true := by
  decide

/-- The state that `retriedRun` ends in. -/
def retried : JobState := Option.get _ retriedRun_isSome

theorem retried_bounded :
    (retried.table.rows.filter fun job ↦ job.operationId = some "job").length ≤ 1 ∧
      (retried.attemptsGranted "job").Pairwise (· < ·) ∧ retried.starts "job" ≤ 2 ∧
      retried.attemptsGranted "job" = [1, 2] := by
  obtain ⟨hrows, hinc, hstarts⟩ := bounded_execution .default (fun _ ↦ 2) (fun _ ↦ by decide)
    retried (Machine.reachable_run rfl retriedRun_isSome) "job"
  exact ⟨hrows, hinc, hstarts, by decide⟩

end GenericApp
