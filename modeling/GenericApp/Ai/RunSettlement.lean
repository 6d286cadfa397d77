import GenericApp.Ai.AiRunService

/-!
# Which runs are left running

Between the flush that writes the row of a run and the commit that ends it, only two things lead out of a call: the
provider is not known, or the generation is interrupted by what is no `Exception`. Every other way ends the run or
takes its row back. So as long as no generation is interrupted, a committed run has ended if and only if its provider
is known.
-/

namespace GenericApp

open Py

/-! ### Runs that have ended -/

/-- The run is completed or failed, and it is noted when. -/
def AiRun.Ended (run : AiRun) : Prop :=
  (run.status = .completed ∨ run.status = .failed) ∧ run.completedAt.isSome = true

instance (run : AiRun) : Decidable run.Ended :=
  inferInstanceAs (Decidable ((run.status = .completed ∨ run.status = .failed) ∧ run.completedAt.isSome = true))

/-- The registry has the provider of the run. -/
def AiRun.Provided (defaultProvider : String) (run : AiRun) : Prop :=
  ∃ provider, getProvider defaultProvider run.providerKey = .ok provider

/-- No exception but an `Exception` comes out of the provider. -/
def Uninterrupted (op : RunOp) (x : RunException) : Prop :=
  match op with
  | .generate _ _ => x.isException = true
  | _ => True

/-- The steps that do not interrupt a generation. -/
def GeneratesOn (s : AiSession) (a : AiSessionAction) : Prop :=
  match s.call, a with
  | some (.call op _), .continue (.raises x _) => Uninterrupted op x
  | _, _ => True

instance (s : AiSession) (a : AiSessionAction) : Decidable (GeneratesOn s a) := by
  unfold GeneratesOn Uninterrupted
  split
  · split
    · infer_instance
    · exact instDecidableTrue
  · exact instDecidableTrue

section Rows

variable (defaultProvider : String)

/-- The runs that have ended are those whose provider is known. -/
def RunsSettle (runs : List AiRun) : Prop := ∀ run ∈ runs, run.Ended ↔ run.Provided defaultProvider

/-- What holds when no call is under way. -/
structure RunsAtRest (s : AiRunDb) : Prop where
  session : RunsSettle defaultProvider s.session
  committed : RunsSettle defaultProvider s.committed

/-- The run `runId` of this provider is under way. -/
structure RunUnderWay (runId : Uuid) (key : String) (s : AiRunDb) : Prop where
  others : ∀ run ∈ s.session, run.id ≠ runId → (run.Ended ↔ run.Provided defaultProvider)
  mine : ∀ run ∈ s.session, run.id = runId → run.providerKey = key
  committed : RunsSettle defaultProvider s.committed

/-- The contract of a call: what is committed is settled. -/
def settlingRuns : Contract RunOp Empty RunException AiRunDb where
  raises op x _ _ := Uninterrupted op x
  throws _ _ _ := False
  guarantee s t := RunsSettle defaultProvider s.committed → RunsSettle defaultProvider t.committed
  said _ _ := True
  rely _ _ _ := True

end Rows

section Runs

variable {defaultProvider key : String} {runId : Uuid} {s : AiRunDb}

theorem RunsAtRest.rolledBack (h : RunsAtRest defaultProvider s) :
    RunsAtRest defaultProvider { s with session := s.committed } := ⟨h.committed, h.committed⟩

theorem RunsAtRest.commits (h : RunsAtRest defaultProvider s) :
    RunsAtRest defaultProvider { s with committed := s.session } := ⟨h.session, h.session⟩

/-- A row of the run, and a row that is another run's. -/
theorem mem_assigned {update : AiRun → AiRun} {run : AiRun}
    (h : run ∈ (runEffect (.assign runId update) s).session) :
    (run ∈ s.session ∧ run.id ≠ runId) ∨ ∃ old ∈ s.session, old.id = runId ∧ run = update old := by
  obtain ⟨old, hold, hrun⟩ := List.mem_map.1 h
  by_cases hid : old.id = runId
  · rw [if_pos hid] at hrun
    exact .inr ⟨old, hold, hid, hrun.symm⟩
  · rw [if_neg hid] at hrun
    exact .inl ⟨hrun ▸ hold, hrun ▸ hid⟩

theorem RunUnderWay.assign (h : RunUnderWay defaultProvider runId key s) (update : AiRun → AiRun)
    (hid : ∀ run, (update run).id = run.id) (hkey : ∀ run, (update run).providerKey = run.providerKey) :
    RunUnderWay defaultProvider runId key (runEffect (.assign runId update) s) where
  others run hrun hne := by
    obtain ⟨hmem, -⟩ | ⟨old, -, hold, rfl⟩ := mem_assigned hrun
    · exact h.others run hmem hne
    · exact absurd ((hid old).trans hold) hne
  mine run hrun hmine := by
    obtain ⟨-, hne⟩ | ⟨old, hmem, hold, rfl⟩ := mem_assigned hrun
    · exact absurd hmine hne
    · exact (hkey old).trans (h.mine old hmem hold)
  committed := h.committed

/-- The run has ended. -/
theorem RunUnderWay.ends (h : RunUnderWay defaultProvider runId key s)
    (hknown : ∃ provider, getProvider defaultProvider key = .ok provider) {update : AiRun → AiRun}
    (hkey : ∀ run, (update run).providerKey = run.providerKey)
    (hended : ∀ run ∈ s.session, run.id = runId → (update run).Ended) :
    RunsAtRest defaultProvider (runEffect (.assign runId update) s) := by
  refine ⟨fun run hrun ↦ ?_, h.committed⟩
  obtain ⟨hmem, hne⟩ | ⟨old, hmem, hold, rfl⟩ := mem_assigned hrun
  · exact h.others run hmem hne
  · refine iff_of_true (hended old hmem hold) ?_
    rw [AiRun.Provided, hkey, h.mine old hmem hold]
    exact hknown

/-- The row is in the session. -/
theorem underWay_of_created (h : RunsAtRest defaultProvider s) {run : AiRun}
    (hfresh : run.id ∉ s.session.map AiRun.id) :
    RunUnderWay defaultProvider run.id run.providerKey { s with session := s.session ++ [run] } where
  others other hother hne := by
    rcases List.mem_append.1 hother with hother | hother
    · exact h.session other hother
    · exact absurd (congrArg AiRun.id (List.mem_singleton.1 hother)) hne
  mine other hother hmine := by
    rcases List.mem_append.1 hother with hother | hother
    · exact absurd (hmine ▸ List.mem_map_of_mem hother) hfresh
    · exact congrArg AiRun.providerKey (List.mem_singleton.1 hother)
  committed := h.committed

/-! ### Calls -/

/-- What changes nothing that is committed. -/
theorem safe_run {op : RunOp} {Q : Except RunException (RunAns op) → AiRunDb → Prop}
    (hcommitted : (runEffect op s).committed = s.committed)
    (hok : ∀ a, Q (.ok a) (runEffect op s))
    (herror : ∀ x, runRaisable op x = true → Uninterrupted op x →
      Q (.error x) s ∧ Q (.error x) (runEffect op s)) :
    Safe runWorld (settlingRuns defaultProvider) Q (callRun op) s := by
  have hguarantee : (settlingRuns defaultProvider).guarantee s (runEffect op s) := by
    intro h
    rwa [hcommitted]
  refine Safe.await hguarantee hok fun x late hraisable hx ↦ ?_
  cases late with
  | false => exact ⟨id, (herror x hraisable hx).1⟩
  | true => exact ⟨hguarantee, (herror x hraisable hx).2⟩

/-- What is done without waiting. -/
theorem safe_instant {op : RunOp} {Q : Except RunException (RunAns op) → AiRunDb → Prop}
    (hop : ∀ x, runRaisable op x = false) (hcommitted : (runEffect op s).committed = s.committed)
    (hok : ∀ a, Q (.ok a) (runEffect op s)) :
    Safe runWorld (settlingRuns defaultProvider) Q (callRun op) s :=
  safe_run hcommitted hok fun x hx ↦ nomatch (hop x).symm.trans hx

/-- A flush or a commit that raises leaves what is committed, and nothing else. -/
theorem safe_transact {op : RunOp} {Q : Except RunException (RunAns op) → AiRunDb → Prop}
    (hguarantee : (settlingRuns defaultProvider).guarantee s (runEffect op s))
    (hok : ∀ a, Q (.ok a) (runEffect op s))
    (herror : ∀ x, Q (.error x) { s with session := s.committed } ∧
      Q (.error x) { session := (runEffect op s).committed, committed := (runEffect op s).committed }) :
    Safe runWorld (settlingRuns defaultProvider) Q (transact op) s := by
  have hrollback {t : AiRunDb} {x : RunException} (h : Q (.error x) { t with session := t.committed }) :
      Safe runWorld (settlingRuns defaultProvider) Q
        (do
          callRun .rollback
          .raised x) t :=
    Safe.bind (safe_instant (fun _ ↦ rfl) rfl fun _ ↦ h)
  refine Safe.tryCatch (Safe.await hguarantee hok fun x late _ _ ↦ ?_)
  cases late with
  | false => exact ⟨id, hrollback (herror x).1⟩
  | true => exact ⟨hguarantee, hrollback (herror x).2⟩

/-- What asks for something. -/
theorem safe_asked {op : RunOp} (hop : ∀ t, runEffect op t = t) :
    Safe runWorld (settlingRuns defaultProvider) (fun r t ↦ t = s ∧ ∀ x, r = .error x → Uninterrupted op x)
      (callRun op) s := by
  refine safe_run (congrArg AiRunDb.committed (hop s)) (fun _ ↦ ⟨hop s, nofun⟩) fun x _ hx ↦ ?_
  have herror : ∀ y, (Except.error x : Except RunException (RunAns op)) = .error y → Uninterrupted op y := by
    rintro _ ⟨⟩
    exact hx
  exact ⟨⟨rfl, herror⟩, hop s, herror⟩

/-- A flush that raises takes back what has not been committed. -/
theorem safe_flushed {op : RunOp} (hop : (runEffect op s).committed = s.committed)
    (hs : RunsAtRest defaultProvider s) :
    Safe runWorld (settlingRuns defaultProvider)
      (fun r t ↦ match r with
        | .ok _ => t = runEffect op s
        | .error _ => RunsAtRest defaultProvider t)
      (transact op) s := by
  have hcommitted : RunsSettle defaultProvider (runEffect op s).committed := by
    rw [hop]
    exact hs.committed
  exact safe_transact (fun _ ↦ hcommitted) (fun _ ↦ rfl) fun _ ↦ ⟨hs.rolledBack, hcommitted, hcommitted⟩

theorem safe_commitRun (hs : RunsAtRest defaultProvider s) :
    Safe runWorld (settlingRuns defaultProvider) (fun _ t ↦ RunsAtRest defaultProvider t) (transact .commit) s :=
  safe_transact (fun _ ↦ hs.session) (fun _ ↦ hs.commits) fun _ ↦ ⟨hs.rolledBack, hs.session, hs.session⟩

/-! ### The generation -/

theorem providerKey_failedUpdate (error : RunException) (message : String) (now : DateTime) (run : AiRun) :
    (failedUpdate error message now run).providerKey = run.providerKey := by
  cases h : error.metadata with
  | some metadata => simp only [failedUpdate, recordProviderFailure, h]
  | none =>
    simp only [failedUpdate, recordProviderFailure, h]
    split
    · rfl
    · rfl

variable (hknown : ∃ provider, getProvider defaultProvider key = .ok provider)
include hknown

/-- A handler ends the run and commits it. -/
theorem safe_failRun (error raised : RunException) (message : String)
    (hs : RunUnderWay defaultProvider runId key s) :
    Safe runWorld (settlingRuns defaultProvider) (fun _ t ↦ RunsAtRest defaultProvider t)
      (failRun runId error message raised) s := by
  refine Safe.bind (safe_instant (fun _ ↦ rfl) rfl fun now ↦ ?_)
  have hended : RunsAtRest defaultProvider
      (runEffect (.assign runId (failedUpdate error message now)) s) :=
    hs.ends hknown (providerKey_failedUpdate error message now) fun _ _ _ ↦ ⟨.inr rfl, rfl⟩
  refine Safe.bind (safe_instant (fun _ ↦ rfl) rfl fun _ ↦ ?_)
  refine Safe.bind (Safe.mono ?_ (safe_commitRun hended))
  rintro (x | _) t ht
  · exact ht
  · exact ht

theorem safe_generationHandlers {x : RunException} (hx : x.isException = true)
    (hs : RunUnderWay defaultProvider runId key s) :
    Safe runWorld (settlingRuns defaultProvider) (fun _ t ↦ RunsAtRest defaultProvider t)
      (generationHandlers runId x) s := by
  cases x with
  | cancelled | exit => exact nomatch hx
  | timeout | http | other => exact safe_failRun hknown _ _ _ hs

/-- The run has ended, or an `Exception` has been raised. -/
theorem safe_generateRun {run : AiRun} (hid : run.id = runId) (provider : AiProvider) (version : ExecutionVersion)
    (systemPrompt userPrompt : String) (hs : RunUnderWay defaultProvider runId key s) :
    Safe runWorld (settlingRuns defaultProvider)
      (fun r t ↦ match r with
        | .ok _ => RunsAtRest defaultProvider t
        | .error x => RunUnderWay defaultProvider runId key t ∧ x.isException = true)
      (generateRun run provider version systemPrompt userPrompt) s := by
  subst hid
  refine Safe.bind (Safe.mono ?_ (safe_asked fun _ ↦ rfl))
  rintro (x | result) t ⟨rfl, hx⟩
  · exact ⟨hs, hx x rfl⟩
  refine Safe.bind (safe_instant (fun _ ↦ rfl) rfl fun latencyMs ↦ ?_)
  refine Safe.bind (safe_instant (fun _ ↦ rfl) rfl fun _ ↦ ?_)
  have hcompleted := hs.assign (completedAiRun result latencyMs) (fun _ ↦ rfl) fun _ ↦ rfl
  have hstatus : ∀ row ∈ (runEffect (.assign run.id (completedAiRun result latencyMs)) t).session,
      row.id = run.id → row.status = .completed := by
    intro row hrow hmine
    obtain ⟨-, hne⟩ | ⟨old, -, -, rfl⟩ := mem_assigned hrow
    · exact absurd hmine hne
    · rfl
  refine Safe.bind (safe_run rfl (fun _ ↦ ?_) fun x hx _ ↦ ⟨⟨hcompleted, hx⟩, hcompleted, hx⟩)
  refine Safe.bind (safe_instant (fun _ ↦ rfl) rfl fun now ↦ ?_)
  exact safe_instant (fun _ ↦ rfl) rfl fun _ ↦ hcompleted.ends hknown (fun _ ↦ rfl) fun row hrow hmine ↦
    ⟨.inl (hstatus row hrow hmine), rfl⟩

omit hknown in
/-- The row has just been written. -/
theorem safe_finalizeRunGeneration (P : RunPorts) {run : AiRun} (hrunning : run.status = .running)
    (version : ExecutionVersion) (systemPrompt userPrompt : String) (reviewRequired : Bool)
    (hs : RunsAtRest P.defaultProvider s) (hfresh : run.id ∉ s.session.map AiRun.id) :
    Safe runWorld (settlingRuns P.defaultProvider) (fun _ t ↦ RunsAtRest P.defaultProvider t)
      (finalizeRunGeneration P run version systemPrompt userPrompt reviewRequired)
      { s with session := s.session ++ [run] } := by
  have hway := underWay_of_created hs hfresh
  cases hprovider : getProvider P.defaultProvider run.providerKey with
  | error x =>
    rw [finalizeRunGeneration, hprovider]
    refine ⟨fun other hother ↦ ?_, hs.committed⟩
    rcases List.mem_append.1 hother with hother | hother
    · exact hs.session other hother
    · obtain rfl := List.mem_singleton.1 hother
      refine iff_of_false ?_ ?_
      · rintro ⟨hended | hended, -⟩
        · exact nomatch hrunning.symm.trans hended
        · exact nomatch hrunning.symm.trans hended
      · rintro ⟨provider, hok⟩
        exact nomatch hprovider.symm.trans hok
  | ok provider =>
    have hknown : ∃ provider, getProvider P.defaultProvider run.providerKey = .ok provider := ⟨provider, hprovider⟩
    rw [finalizeRunGeneration, hprovider]
    refine Safe.bind (safe_instant (fun _ ↦ rfl) rfl fun now ↦ ?_)
    refine Safe.bind (safe_instant (fun _ ↦ rfl) rfl fun _ ↦ ?_)
    have hgenerated := safe_generateRun hknown rfl provider version systemPrompt userPrompt
      (hway.assign (fun run ↦
        { run with
          providerAttempts := 0
          providerRetryCount := 0
          providerLastStatusCode := none
          providerLastError := none
          providerDeadlineAt := some (now + timedelta P.requestTimeoutSeconds) })
        (fun _ ↦ rfl) fun _ ↦ rfl)
    -- the review and the commit of a run that has ended
    have hrest (t : AiRunDb) (ht : RunsAtRest P.defaultProvider t) :
        Safe runWorld (settlingRuns P.defaultProvider) (fun _ u ↦ RunsAtRest P.defaultProvider u)
          (do
            (transact (.createReview run.id)).when reviewRequired
            transact .commit
            callRun (.refresh run.id)) t := by
      have hcommit : Safe runWorld (settlingRuns P.defaultProvider) (fun _ u ↦ RunsAtRest P.defaultProvider u)
          (do
            transact .commit
            callRun (.refresh run.id)) t := by
        refine Safe.bind (Safe.mono ?_ (safe_commitRun ht))
        rintro (x | _) u hu
        · exact hu
        · exact Safe.mono (fun _ _ hv ↦ hv.1 ▸ hu) (safe_asked fun _ ↦ rfl)
      refine Safe.bind (Safe.when (fun _ ↦ Safe.mono ?_ (safe_flushed rfl ht)) fun _ ↦ hcommit)
      rintro (x | _) u hu
      · exact hu
      · obtain rfl : u = t := hu
        exact hcommit
    refine Safe.bind (Safe.tryCatch (Safe.mono ?_ hgenerated))
    rintro (x | _) t ht
    · refine Safe.mono ?_ (safe_generationHandlers hknown ht.2 ht.1)
      rintro (y | _) u hu
      · exact hu
      · exact hrest u hu
    · exact hrest t ht

end Runs

/-! ### The calls -/

section Calls

variable (P : RunPorts) {runId : Uuid} {s : AiRunDb}

/-- Nothing is under way, and `runId` is not taken. -/
def ReadyFor (defaultProvider : String) (runId : Uuid) (s : AiRunDb) : Prop :=
  RunsAtRest defaultProvider s ∧ runId ∉ s.session.map AiRun.id

theorem keeps_asked {op : RunOp} (hop : ∀ t, runEffect op t = t) {I : AiRunDb → Prop} :
    Keeps runWorld (settlingRuns P.defaultProvider) I (fun _ ↦ True) (callRun op) := by
  intro s hs
  refine Safe.mono ?_ (safe_asked hop)
  rintro (x | a) t ⟨rfl, -⟩
  · exact ⟨hs, trivial⟩
  · exact hs

theorem keeps_validateContextBudget (context : String) {I : AiRunDb → Prop} :
    Keeps runWorld (settlingRuns P.defaultProvider) I (fun _ ↦ True) (validateContextBudget P context) := by
  rw [validateContextBudget]
  split
  · exact .raise trivial
  · exact .pure ()

theorem keeps_validatePromptBudget (systemPrompt userPrompt : String) {I : AiRunDb → Prop} :
    Keeps runWorld (settlingRuns P.defaultProvider) I (fun _ ↦ True)
      (validatePromptBudget P systemPrompt userPrompt) := by
  rw [validatePromptBudget]
  split
  · exact .raise trivial
  · exact .pure ()

theorem keeps_addContext (request : RunPromptRequest) {I : AiRunDb → Prop} :
    Keeps runWorld (settlingRuns P.defaultProvider) I (fun _ ↦ True) (addContext P request) := by
  rw [addContext]
  split
  · exact .pure request
  · split
    · exact .bind (keeps_asked P fun _ ↦ rfl) fun _ ↦ .bind (keeps_validateContextBudget P _) fun _ ↦ .pure _
    · exact .bind (keeps_asked P fun _ ↦ rfl) fun _ ↦ .bind (keeps_validateContextBudget P _) fun _ ↦ .pure _

/-- What comes before the row is written. -/
theorem ready_bind {α β : Type} {t : RunCall β} {f : β → RunCall α}
    (ht : Keeps runWorld (settlingRuns P.defaultProvider) (ReadyFor P.defaultProvider runId) (fun _ ↦ True) t)
    (hs : ReadyFor P.defaultProvider runId s)
    (hf : ∀ b u, ReadyFor P.defaultProvider runId u →
      Safe runWorld (settlingRuns P.defaultProvider) (fun _ v ↦ RunsAtRest P.defaultProvider v) (f b) u) :
    Safe runWorld (settlingRuns P.defaultProvider) (fun _ v ↦ RunsAtRest P.defaultProvider v) (t >>= f) s := by
  refine Safe.bind (Safe.mono ?_ (ht s hs))
  rintro (x | b) u hu
  · exact hu.1.1
  · exact hf b u hu

/-- The row is written, and the run is seen to its end. -/
theorem safe_createRun {run : AiRun} (hs : ReadyFor P.defaultProvider runId s) (hid : run.id = runId)
    (hrunning : run.status = .running) (version : ExecutionVersion) (systemPrompt userPrompt : String)
    (reviewRequired : Bool) :
    Safe runWorld (settlingRuns P.defaultProvider) (fun _ v ↦ RunsAtRest P.defaultProvider v)
      (do
        transact (.createRun run)
        transact .flush
        finalizeRunGeneration P run version systemPrompt userPrompt reviewRequired) s := by
  subst hid
  obtain ⟨hrest, hfresh⟩ := hs
  have hfinal := safe_finalizeRunGeneration P hrunning version systemPrompt userPrompt reviewRequired hrest hfresh
  have hflush : Safe runWorld (settlingRuns P.defaultProvider) (fun _ v ↦ RunsAtRest P.defaultProvider v)
      (do
        transact .flush
        finalizeRunGeneration P run version systemPrompt userPrompt reviewRequired)
      { s with session := s.session ++ [run] } := by
    have hgone : RunsAtRest P.defaultProvider { session := s.committed, committed := s.committed } := hrest.rolledBack
    exact Safe.bind (safe_transact (fun h ↦ h) (fun _ ↦ hfinal) fun _ ↦ ⟨hgone, hgone⟩)
  refine Safe.bind (Safe.mono ?_ (safe_flushed rfl hrest))
  rintro (x | _) t ht
  · exact ht
  · obtain rfl : t = { s with session := s.session ++ [run] } := ht
    exact hflush

theorem safe_runPrompt (request : RunPromptRequest) (hs : ReadyFor P.defaultProvider runId s) :
    Safe runWorld (settlingRuns P.defaultProvider) (fun _ v ↦ RunsAtRest P.defaultProvider v)
      (runPrompt P request runId) s := by
  rw [runPrompt]
  refine ready_bind P (keeps_asked P fun _ ↦ rfl) hs fun resolved s hs ↦ ?_
  refine ready_bind P (keeps_addContext P request) hs fun request s hs ↦ ?_
  refine ready_bind P (keeps_validatePromptBudget P _ _) hs fun _ s hs ↦ ?_
  refine safe_createRun P hs ?_ ?_ _ _ _ _
  · rfl
  · rfl

theorem safe_runRagAnswer (request : RagAnswerRequest) (hs : ReadyFor P.defaultProvider runId s) :
    Safe runWorld (settlingRuns P.defaultProvider) (fun _ v ↦ RunsAtRest P.defaultProvider v)
      (runRagAnswer P request runId) s := by
  rw [runRagAnswer]
  refine ready_bind P (keeps_asked P fun _ ↦ rfl) hs fun spec s hs ↦ ?_
  refine ready_bind P (keeps_validateContextBudget P _) hs fun _ s hs ↦ ?_
  refine ready_bind P (keeps_validatePromptBudget P _ _) hs fun _ s hs ↦ ?_
  refine safe_createRun P hs ?_ ?_ _ _ _ _
  · rfl
  · rfl

/-! ### The session -/

/-- What holds of the session at any time. -/
structure AiSession.Settling (s : AiSession) : Prop where
  call : ∀ call, s.call = some call →
    Safe runWorld (settlingRuns P.defaultProvider) (fun _ v ↦ RunsAtRest P.defaultProvider v) call s.db
  rest : s.call = none → RunsAtRest P.defaultProvider s.db
  committed : RunsSettle P.defaultProvider s.db.committed

variable {P} {s t : AiSession}

theorem AiSession.Settling.atRest (h : s.Settling P) (hidle : s.idle = true) : RunsAtRest P.defaultProvider s.db := by
  cases hcall : s.call with
  | none => exact h.rest hcall
  | some call =>
    cases call with
    | done a => exact h.call _ hcall
    | raised x => exact h.call _ hcall
    | call op k =>
      rw [AiSession.idle, hcall] at hidle
      exact nomatch hidle
    | emit y k => exact y.elim

theorem settling_of_rest (hcommitted : RunsAtRest P.defaultProvider t.db) (hidle : s.idle = true)
    (hcall : t.call = s.call) : t.Settling P := by
  refine ⟨fun call h ↦ ?_, fun _ ↦ hcommitted, hcommitted.committed⟩
  rw [AiSession.idle, ← hcall, h] at hidle
  cases call with
  | done a => exact hcommitted
  | raised x => exact hcommitted
  | call op k => exact nomatch hidle
  | emit y k => exact y.elim

theorem AiSession.Settling.step {a : AiSessionAction} (h : s.Settling P) (ha : GeneratesOn s a)
    (hstep : AiSession.step P s a = some t) : t.Settling P := by
  cases a with
  | runPrompt request runId =>
    obtain ⟨⟨hidle, hfresh⟩, hstep⟩ := Option.ite_none_right_eq_some.1 hstep
    obtain rfl := Option.some.inj hstep
    refine ⟨?_, nofun, h.committed⟩
    rintro _ ⟨⟩
    exact safe_runPrompt P request ⟨h.atRest hidle, hfresh⟩
  | runRagAnswer request runId =>
    obtain ⟨⟨hidle, hfresh⟩, hstep⟩ := Option.ite_none_right_eq_some.1 hstep
    obtain rfl := Option.some.inj hstep
    refine ⟨?_, nofun, h.committed⟩
    rintro _ ⟨⟩
    exact safe_runRagAnswer P request ⟨h.atRest hidle, hfresh⟩
  | «continue» input =>
    cases hcall : s.call with
    | none =>
      rw [AiSession.step, hcall] at hstep
      exact nomatch hstep
    | some call =>
      rw [AiSession.step, hcall] at hstep
      obtain ⟨⟨next, db⟩, hnext, rfl⟩ := Option.map_eq_some_iff.1 hstep
      have hmeets : (settlingRuns P.defaultProvider).Meets (call, s.db) input := by
        cases call with
        | call op k => cases input with
          | raises x late =>
            unfold GeneratesOn at ha
            rw [hcall] at ha
            exact ha
          | _ => trivial
        | emit y k => exact y.elim
        | _ => trivial
      obtain ⟨hsafe, hguarantee⟩ :=
        Safe.step (fun y ↦ y.elim) (fun y ↦ y.elim) (h.call call hcall) hmeets hnext
      refine ⟨?_, nofun, hguarantee h.committed⟩
      rintro _ ⟨⟩
      exact hsafe
  | commit =>
    obtain ⟨hidle, hstep⟩ := Option.ite_none_right_eq_some.1 hstep
    obtain rfl := Option.some.inj hstep
    exact settling_of_rest (h.atRest hidle).commits hidle rfl
  | rollback =>
    obtain ⟨hidle, hstep⟩ := Option.ite_none_right_eq_some.1 hstep
    obtain rfl := Option.some.inj hstep
    exact settling_of_rest (h.atRest hidle).rolledBack hidle rfl

end Calls

/-- A session that has served any calls, with commits and rollbacks between them, in which no generation has been
interrupted: what is committed of its runs has ended, but for the runs whose provider is not known. -/
theorem ai_runs_settle (P : RunPorts) {s : AiSession} (h : (aiSessions P).Reachable GeneratesOn s) :
    ∀ run ∈ s.db.committed, run.Ended ↔ run.Provided P.defaultProvider := by
  have hinit : ∀ s : AiSession, (aiSessions P).init s → s.Settling P := by
    rintro _ rfl
    exact ⟨nofun, fun _ ↦ ⟨List.forall_mem_nil _, List.forall_mem_nil _⟩, List.forall_mem_nil _⟩
  exact (h.invariant hinit fun s a t hs ha hstep ↦ hs.step ha hstep).committed

/-! ### Runs that are left running -/

section Examples

def runPorts : RunPorts where
  defaultProvider := "local"
  ragEnabled := false
  maxPromptBytes := 100
  maxContextBytes := 100
  requestTimeoutSeconds := 30
  renderTemplate template _ := template

/-- The prompt is that of a provider with this key, and it generates. -/
def generatingAnswers (providerKey : String) : (op : RunOp) → RunAns op
  | .resolvePromptVersion _ _ => ⟨1, "k", ⟨2, 1, providerKey, "m", "", "hi", [], "text", 0, 0, 0, true⟩⟩
  | .resolveRagAnswerPrompt => ⟨none, none, providerKey, "m", "answer", "text", 0, 0, 0⟩
  | .buildContext _ _ _ => ⟨none, "", [], false, false, none, 0⟩
  | .retrieveChunks _ _ _ => []
  | .generate _ _ => { outputText := "yes", outputJson := none, inputTokens := 1, outputTokens := 1 }
  | .refresh _ => ⟨0, "u", none, none, none, none, "", "", .completed, "", [], none, [], false, false, none, 0, [],
      "", none, none, none, 0, 0, 0, 0, 0, 0, none, none, none, none, none⟩
  | .now => 0
  | .elapsedMs => 0
  | .createRun _ | .flush | .createReview _ | .commit | .assign _ _ | .compute | .rollback => ()

/-- The prompt is resolved and the row is written. -/
def askRag (providerKey : String) : List AiSessionAction :=
  .runRagAnswer { userId := "u", query := "hi", combinedContext := "" } 7 ::
    List.replicate 3 (.continue (.returns (generatingAnswers providerKey)))

/-- What is committed: the provider of each run, and whether the run has ended. -/
def committedRuns (s : AiSession) : List (String × Bool) :=
  s.db.committed.map fun run ↦ (run.providerKey, decide run.Ended)

theorem exists_of_committedRuns {s : AiSession} {key : String} {ended : Bool}
    (h : committedRuns s = [(key, ended)]) :
    ∃ run ∈ s.db.committed, run.providerKey = key ∧ decide run.Ended = ended := by
  obtain ⟨run, hmem, hrun⟩ := List.mem_map.1 (h ▸ List.mem_singleton_self (key, ended))
  exact ⟨run, hmem, Prod.mk.inj hrun⟩

/-- The provider answers, and the answer is committed. -/
theorem ai_runs_settle_answered : ∃ s, (aiSessions runPorts).Reachable GeneratesOn s ∧
    ∃ run ∈ s.db.committed, run.Ended ∧ (run.Ended ↔ run.Provided "local") := by
  have hrun : ((aiSessions runPorts).run GeneratesOn {}
      (askRag "local" ++ List.replicate 10 (.continue (.returns (generatingAnswers "local"))))).map committedRuns =
        some [("local", true)] := by
    decide +kernel
  obtain ⟨s, hs, hcommitted⟩ := Option.map_eq_some_iff.1 hrun
  have hreachable : (aiSessions runPorts).Reachable GeneratesOn s := ⟨{}, rfl, Machine.later_of_run hs⟩
  obtain ⟨run, hmem, -, hended⟩ := exists_of_committedRuns hcommitted
  exact ⟨s, hreachable, run, hmem, of_decide_eq_true hended, ai_runs_settle runPorts hreachable run hmem⟩

/-- A run whose provider is not known, and one whose generation is cancelled, are committed as running by whoever
commits the session next. -/
theorem ai_run_left_running :
    ¬(∀ s, (aiSessions runPorts).Reachable GeneratesOn s → ∀ run ∈ s.db.committed, run.Ended) ∧
      ¬∀ s, (aiSessions runPorts).Reachable Machine.anyStep s → ∀ run ∈ s.db.committed,
        run.providerKey = "local" → run.Ended := by
  constructor
  · intro h
    have hrun : ((aiSessions runPorts).run GeneratesOn {} (askRag "mistral" ++ [.commit])).map committedRuns =
        some [("mistral", false)] := by
      decide +kernel
    obtain ⟨s, hs, hcommitted⟩ := Option.map_eq_some_iff.1 hrun
    obtain ⟨run, hmem, -, hended⟩ := exists_of_committedRuns hcommitted
    exact of_decide_eq_false hended (h s ⟨{}, rfl, Machine.later_of_run hs⟩ run hmem)
  · intro h
    have hrun : ((aiSessions runPorts).run Machine.anyStep {} (askRag "local" ++
        [.continue (.returns (generatingAnswers "local")), .continue (.returns (generatingAnswers "local")),
          .continue (.raises .cancelled false), .commit])).map committedRuns = some [("local", false)] := by
      decide +kernel
    obtain ⟨s, hs, hcommitted⟩ := Option.map_eq_some_iff.1 hrun
    obtain ⟨run, hmem, hkey, hended⟩ := exists_of_committedRuns hcommitted
    exact of_decide_eq_false hended (h s ⟨{}, rfl, Machine.later_of_run hs⟩ run hmem hkey)

end Examples

end GenericApp
