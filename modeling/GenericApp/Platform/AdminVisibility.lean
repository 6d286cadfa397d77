import GenericApp.Platform.AdminWrites

/-!
# When an admin write is seen

Between the deletion of an entry and the commit that makes it stale, the entry has to stay away: then it is
not there when the commit comes, and what is stored afterwards has seen it. That is the invariant, and
`Undisturbed` is what a step must not do.
-/

namespace GenericApp

open Machine Py

/-! ### The condition -/

/-- The request has deleted the entry of its process, and is still to commit. -/
def AdminRequest.Pending (request : AdminRequest) : Prop :=
  request.phase = .deleting ∨ request.phase = .invalidated

instance (request : AdminRequest) : Decidable request.Pending :=
  inferInstanceAs (Decidable (request.phase = .deleting ∨ request.phase = .invalidated))

/-- **Nothing old is stored.** No value is stored where a request has deleted one that it is going to make
stale, until that request has committed, nor a value that has not seen the last such commit. Every `DEL`
takes effect. -/
def AdminWrites.Undisturbed (read : PlatformRead) (u : AdminWrites) : AdminAction → Prop
  | .load a => u.loads.DeletionsKept read.key a ∧
      ∀ request ∈ u.requests, read.selects request.route = true →
        (request.Pending → u.loads.storesIn a ≠ some request.process) ∧
        (request.phase = .invalidated → a.shares = false)
  | .deleteShared _ reply => reply ≠ .refused
  | _ => True

instance (read : PlatformRead) (u : AdminWrites) : (a : AdminAction) → Decidable (u.Undisturbed read a)
  | .load a => inferInstanceAs (Decidable (u.loads.DeletionsKept read.key a ∧
      ∀ request ∈ u.requests, read.selects request.route = true →
        (request.Pending → u.loads.storesIn a ≠ some request.process) ∧
        (request.phase = .invalidated → a.shares = false)))
  | .deleteShared _ reply => inferInstanceAs (Decidable (reply ≠ .refused))
  | .flush .. | .deleteLocal _ | .commit _ | .respond _ | .fail _ | .restart _ => isTrue trivial

/-! ### The invariant -/

/-- What holds of a request between two steps. -/
structure AdminRequest.Sound (S : CacheSettings) (read : PlatformRead) (loads : CacheLoads)
    (request : AdminRequest) : Prop where
  /-- The entry stays away from the process, -/
  locals : read.selects request.route = true → request.Pending →
    ∀ e ∈ (loads.locals request.process).entries, e.1 ≠ read.key
  /-- and from Redis. -/
  shared : read.selects request.route = true → request.phase = .invalidated →
    usesRedisCache S read.key = true → loads.redis read.key = none
  /-- What has been committed counts as deleted. -/
  committed : ∀ commit, request.phase = .committed commit →
    commit ≤ loads.removed request.process ∧
      (usesRedisCache S read.key = true → commit ≤ loads.removedShared)

/-- What holds between two steps. -/
structure AdminWrites.Sound (S : CacheSettings) (read : PlatformRead) (u : AdminWrites) : Prop where
  loads : u.loads.Coherent S read.key
  requests : ∀ request ∈ u.requests, request.Sound S read u.loads

section Steps

variable {S : CacheSettings} {read : PlatformRead} {u t : AdminWrites} {request : AdminRequest}
  {loads : CacheLoads} {r : ℕ}

/-- A request that has done nothing yet, or nothing any more. -/
theorem AdminRequest.sound_idle (hpending : ¬ request.Pending)
    (hcommitted : ∀ commit, request.phase ≠ .committed commit) : request.Sound S read loads :=
  ⟨fun _ h ↦ absurd h hpending, fun _ h ↦ absurd (.inr h) hpending, fun commit h ↦
    absurd h (hcommitted commit)⟩

theorem AdminRequest.sound_of_phase (h : request.phase = .flushed ∨ request.phase = .ended) :
    request.Sound S read loads := by
  refine sound_idle (fun hpending ↦ ?_) fun commit hphase ↦ ?_
  · rcases h with h | h <;> rcases hpending with hp | hp <;> exact nomatch h.symm.trans hp
  · rcases h with h | h <;> exact nomatch h.symm.trans hphase

/-- One request goes on, and the others are as sound as before. -/
theorem AdminWrites.sound_set (hloads : loads.Coherent S read.key)
    (hrequests : ∀ request ∈ u.requests, request.Sound S read loads)
    (hrequest : request.Sound S read loads) :
    AdminWrites.Sound S read ⟨loads, u.requests.set r request⟩ := by
  refine ⟨hloads, fun other hother ↦ ?_⟩
  rcases List.mem_or_eq_of_mem_set hother with hold | rfl
  · exact hrequests other hold
  · exact hrequest

/-- A load. -/
theorem AdminWrites.sound_load {a : CacheLoadAction} (h : u.Sound S read)
    (hC : u.Undisturbed read (.load a)) (hstep : u.step S read (.load a) = some t) : t.Sound S read := by
  rw [step] at hstep
  split at hstep
  · next hload =>
    obtain ⟨loads, hloads, rfl⟩ := Option.map_eq_some_iff.1 hstep
    obtain ⟨hkept, hundisturbed⟩ := hC
    have hframe := CacheLoads.frame_step hload hloads
    refine ⟨CacheLoads.coherent_step h.loads hkept hloads, fun request hrequest ↦ ?_⟩
    have hsound := h.requests request hrequest
    refine ⟨fun hselects hpending e he ↦ ?_, fun hselects hphase hredis ↦ ?_, fun commit hphase ↦ ?_⟩
    · have hstores := (hundisturbed request hrequest hselects).1 hpending
      exact hsound.locals hselects hpending e (hframe.locals _ hstores e he)
    · rcases hframe.redis ((hundisturbed request hrequest hselects).2 hphase) with heq | hnone
      · exact heq.trans (hsound.shared hselects hphase hredis)
      · exact hnone
    · rw [hframe.removed, hframe.removedShared]
      exact hsound.committed commit hphase
  · exact nomatch hstep

/-- Fewer entries, and the same deletions. -/
theorem AdminRequest.Sound.anti {loads' : CacheLoads} (h : request.Sound S read loads)
    (hlocals : ∀ e ∈ (loads'.locals request.process).entries,
      e ∈ (loads.locals request.process).entries)
    (hredis : loads'.redis read.key = loads.redis read.key ∨ loads'.redis read.key = none)
    (hremoved : loads'.removed = loads.removed) (hshared : loads'.removedShared = loads.removedShared) :
    request.Sound S read loads' := by
  refine ⟨fun hselects hpending e he ↦ h.locals hselects hpending e (hlocals e he),
    fun hselects hphase huses ↦ ?_, fun commit hphase ↦ ?_⟩
  · exact hredis.elim (fun heq ↦ heq.trans (h.shared hselects hphase huses)) id
  · rw [hremoved, hshared]
    exact h.committed commit hphase

/-- The entries of the process are deleted. -/
theorem AdminWrites.sound_deleteLocal (h : u.Sound S read)
    (hstep : u.step S read (.deleteLocal r) = some t) : t.Sound S read := by
  rw [step] at hstep
  split at hstep
  · next request hrequest =>
    split at hstep
    · obtain rfl := Option.some.inj hstep
      have hsub : ∀ e ∈ ((u.loads.locals request.process).delete request.route.invalidates).entries,
          e ∈ (u.loads.locals request.process).entries ∧ e.1 ∉ request.route.invalidates := fun e he ↦
        (RecencyDict.mem_eraseAll _).1 he
      have hlocals : ∀ q, ∀ e ∈ (Function.update u.loads.locals request.process
          ((u.loads.locals request.process).delete request.route.invalidates) q).entries,
          e ∈ (u.loads.locals q).entries := by
        intro q e he
        rcases eq_or_ne q request.process with rfl | hne
        · rw [Function.update_self] at he
          exact (hsub e he).1
        · rwa [Function.update_of_ne hne] at he
      refine sound_set (h.loads.locals_update fun expiresAt value he ↦ ?_) (fun other hother ↦ ?_) ?_
      · exact h.loads.locals _ expiresAt value (hsub _ he).1
      · exact (h.requests other hother).anti (hlocals _) (.inl rfl) rfl rfl
      · refine ⟨fun hselects _ e he heq ↦ ?_, fun _ hphase ↦ (nomatch hphase), fun _ hphase ↦ (nomatch hphase)⟩
        have he : e ∈ (Function.update u.loads.locals request.process
            ((u.loads.locals request.process).delete request.route.invalidates)
            request.process).entries := he
        rw [Function.update_self] at he
        exact (hsub e he).2 (heq ▸ PlatformRead.key_mem_invalidates hselects)
    · exact nomatch hstep
  · exact nomatch hstep

/-- `DEL` takes effect. -/
theorem AdminWrites.sound_deleteShared {reply : RedisReply} (h : u.Sound S read)
    (hreply : reply ≠ .refused) (hstep : u.step S read (.deleteShared r reply) = some t) :
    t.Sound S read := by
  rw [step] at hstep
  split at hstep
  · next request hrequest =>
    split at hstep
    · next hphase =>
      obtain rfl := Option.some.inj hstep
      have hnone : (u.loads.redis.delete read.key) read.key = none := Function.update_self ..
      have hredis : ∀ {redis : ExpiringStore String ℕ}, redis =
          (if read.key ∈ request.route.invalidates ∧ usesRedisCache S read.key = true ∧ reply ≠ .refused
            then u.loads.redis.delete read.key else u.loads.redis) →
          redis read.key = u.loads.redis read.key ∨ redis read.key = none := by
        rintro redis rfl
        split
        · exact .inr hnone
        · exact .inl rfl
      refine sound_set { h.loads with shared := fun e he ↦ ?_ } (fun other hother ↦ ?_) ?_
      · rcases hredis rfl with heq | hgone
        · exact h.loads.shared e (heq.symm.trans he)
        · cases hgone.symm.trans he
      · exact (h.requests other hother).anti (fun _ he ↦ he) (hredis rfl) rfl rfl
      · have hsound := h.requests request (List.mem_of_getElem? hrequest)
        refine ⟨fun hselects _ ↦ hsound.locals hselects (.inl hphase), fun hselects _ huses ↦ ?_,
          fun _ hcommitted ↦ by cases hcommitted⟩
        show (if _ then _ else _ : ExpiringStore String ℕ) read.key = none
        rw [if_pos ⟨PlatformRead.key_mem_invalidates hselects, huses, hreply⟩]
        exact hnone
    · cases hstep
  · cases hstep

/-- A commit counts as deleted at once. -/
theorem le_removed_commit (h : loads.Coherent S read.key) (q : ℕ) :
    loads.removed q ≤ Function.update loads.removed request.process (loads.version + 1) q := by
  rcases eq_or_ne q request.process with rfl | hne
  · rw [Function.update_self]
    exact Nat.le_succ_of_le (h.removed_le _)
  · exact Nat.le_of_eq (Function.update_of_ne hne ..).symm

/-- **The commit finds no entry that it makes stale.** -/
theorem coherent_commitLoads (h : loads.Coherent S read.key) (hselects : read.selects request.route = true)
    (hlocals : ∀ e ∈ (loads.locals request.process).entries, e.1 ≠ read.key)
    (hshared : usesRedisCache S read.key = true → loads.redis read.key = none) :
    (AdminWrites.commitLoads S read loads request).Coherent S read.key := by
  rw [AdminWrites.commitLoads, if_pos hselects]
  constructor
  · intro q expiresAt value he
    dsimp only
    rcases eq_or_ne q request.process with rfl | hne
    · exact absurd rfl (hlocals _ he)
    · rw [Function.update_of_ne hne]
      exact h.locals q expiresAt value he
  · intro e he
    dsimp only
    split
    · next huses => exact nomatch (hshared huses).symm.trans he
    · exact h.shared e he
  · exact fun q ↦ Nat.le_trans (h.deleted_local q) (le_removed_commit h q)
  · intro huses q
    dsimp only
    rw [if_pos huses]
    exact Nat.le_succ_of_le (Nat.le_trans (h.deleted_local q) (h.removed_le q))
  · intro q
    dsimp only
    rcases eq_or_ne q request.process with rfl | hne
    · exact Nat.le_of_eq (Function.update_self ..)
    · rw [Function.update_of_ne hne]
      exact Nat.le_succ_of_le (h.removed_le q)
  · exact h.loads
  · exact fun w v hv ↦ CacheLoads.Invalidation.Sound.mono (h.invalidations w v hv) (Nat.le_succ _)
      (le_removed_commit h)
  · exact h.answers

theorem AdminWrites.sound_commit (h : u.Sound S read) (hstep : u.step S read (.commit r) = some t) :
    t.Sound S read := by
  rw [step] at hstep
  split at hstep
  · next request hrequest =>
    split at hstep
    · next hphase =>
      obtain rfl := Option.some.inj hstep
      have hsound := h.requests request (List.mem_of_getElem? hrequest)
      by_cases hselects : read.selects request.route = true
      · have hloads := coherent_commitLoads h.loads hselects (hsound.locals hselects (.inr hphase))
          (hsound.shared hselects hphase)
        rw [commitLoads, if_pos hselects] at hloads
        simp only [commitLoads, if_pos hselects]
        refine sound_set hloads (fun other hother ↦ ?_) ?_
        · have hold := h.requests other hother
          refine ⟨hold.locals, hold.shared, fun commit hcommit ↦ ?_⟩
          obtain ⟨hlocal, -⟩ := hold.committed commit hcommit
          refine ⟨Nat.le_trans hlocal (le_removed_commit h.loads _), fun huses ↦ ?_⟩
          show commit ≤ if _ then _ else _
          rw [if_pos huses]
          exact Nat.le_succ_of_le (Nat.le_trans hlocal (h.loads.removed_le _))
        · refine ⟨fun _ hpending ↦ ?_, fun _ hphase ↦ (nomatch hphase), fun commit hcommit ↦ ?_⟩
          · exact hpending.elim (fun hphase ↦ nomatch hphase) fun hphase ↦ nomatch hphase
          · obtain rfl := AdminPhase.committed.inj hcommit
            refine ⟨?_, fun huses ↦ ?_⟩
            · show u.loads.version + 1 ≤ Function.update u.loads.removed request.process
                (u.loads.version + 1) request.process
              exact Nat.le_of_eq (by rw [Function.update_self])
            · exact Nat.le_of_eq (if_pos huses).symm
      · simp only [commitLoads, if_neg hselects]
        refine sound_set h.loads h.requests ⟨fun h' ↦ absurd h' hselects, fun h' ↦ absurd h' hselects,
          fun commit hcommit ↦ ?_⟩
        obtain rfl := AdminPhase.committed.inj hcommit
        exact ⟨Nat.zero_le _, fun _ ↦ Nat.zero_le _⟩
    · exact nomatch hstep
  · exact nomatch hstep

/-- The answer: what has been committed counts as deleted already. -/
theorem AdminWrites.sound_respond (h : u.Sound S read) (hstep : u.step S read (.respond r) = some t) :
    t.Sound S read := by
  rw [step] at hstep
  split at hstep
  · next request hrequest =>
    split at hstep
    · next commit hphase =>
      obtain rfl := Option.some.inj hstep
      obtain ⟨hlocal, hshared⟩ := (h.requests request (List.mem_of_getElem? hrequest)).committed commit hphase
      refine sound_set { h.loads with
        deleted_local := CacheLoads.update_max_le _ h.loads.deleted_local hlocal
        deleted_shared := fun huses ↦ CacheLoads.update_max_le (fun _ ↦ u.loads.removedShared)
          (h.loads.deleted_shared huses) (hshared huses)
        loads := fun i c hc ↦ CacheLoads.CacheLoad.Sound.mono (h.loads.loads i c hc)
          CacheLoads.le_update_max } (fun other hother ↦ ?_) (AdminRequest.sound_of_phase (.inr rfl))
      exact (h.requests other hother).anti (fun _ he ↦ he) (.inl rfl) rfl rfl
    · exact nomatch hstep
  · exact nomatch hstep

/-- The process is gone, and its requests with it. -/
theorem AdminWrites.sound_restart {p : ℕ} (h : u.Sound S read)
    (hstep : u.step S read (.restart p) = some t) : t.Sound S read := by
  rw [step] at hstep
  obtain ⟨loads, hloads, rfl⟩ := Option.map_eq_some_iff.1 hstep
  refine ⟨CacheLoads.coherent_restart h.loads hloads, fun request hrequest ↦ ?_⟩
  obtain ⟨old, hold, rfl⟩ := List.mem_map.1 hrequest
  split
  · exact AdminRequest.sound_of_phase (.inr rfl)
  · obtain rfl := Option.some.inj hloads
    refine (h.requests old hold).anti (fun e he ↦ ?_) (.inl rfl) rfl rfl
    change e ∈ (Function.update u.loads.locals p RecencyDict.empty old.process).entries at he
    rwa [Function.update_of_ne ‹_›] at he

theorem AdminWrites.sound_step {a : AdminAction} (h : u.Sound S read) (hC : u.Undisturbed read a)
    (hstep : u.step S read a = some t) : t.Sound S read := by
  cases a with
  | load action => exact sound_load h hC hstep
  | flush p route =>
    obtain rfl := Option.some.inj hstep
    refine ⟨h.loads, fun request hrequest ↦ ?_⟩
    rcases List.mem_append.1 hrequest with hold | hnew
    · exact h.requests request hold
    · obtain rfl := List.mem_singleton.1 hnew
      exact AdminRequest.sound_of_phase (.inl rfl)
  | deleteLocal r => exact sound_deleteLocal h hstep
  | deleteShared r reply => exact sound_deleteShared h hC hstep
  | commit r => exact sound_commit h hstep
  | respond r => exact sound_respond h hstep
  | fail r =>
    obtain ⟨request, -, rfl⟩ := Option.map_eq_some_iff.1 hstep
    exact sound_set h.loads h.requests (AdminRequest.sound_of_phase (.inr rfl))
  | restart p => exact sound_restart h hstep

end Steps

/-! ### Runs -/

/-- **As long as nothing old is stored and no `DEL` fails, an admin write is seen**: a call that begins
after the answer of a route returns what has seen the commit of the route. -/
theorem admin_writes_visible (S : CacheSettings) (read : PlatformRead) {u : AdminWrites}
    (h : (adminMachine S read).Reachable (AdminWrites.Undisturbed read) u) :
    ∀ a ∈ u.loads.answers, a.since ≤ a.value := by
  have hsound : u.Sound S read := by
    refine h.invariant (fun s hs ↦ ?_) fun s a t hs hC hstep ↦ AdminWrites.sound_step hs hC hstep
    refine ⟨coherent_init hs.1, fun request hrequest ↦ ?_⟩
    rw [hs.2] at hrequest
    exact absurd hrequest List.not_mem_nil
  exact hsound.loads.answers

/-- No request, and nothing cached. -/
def noAdminWrites : AdminWrites := ⟨CacheLoads.empty, []⟩

theorem init_noAdminWrites {S : CacheSettings} {read : PlatformRead} :
    (adminMachine S read).init noAdminWrites :=
  ⟨empty_init, rfl⟩

/-- A call finds nothing, loads, and stores what it has loaded. -/
def loadAndStore : List CacheLoadAction :=
  missAndLock ++ [.load 0, .storeLocal 0, .share 0 .answered, .release 0 .answered]

/-- A route deletes the entry; a call finds nothing, loads, and stores what it has loaded before the route
commits, or with `after` once the route has answered; another call looks the key up. -/
def writeAndRead (route : AdminRoute) (after : Bool) : List AdminAction :=
  let deletion := [.flush 1 route, .deleteLocal 0, .deleteShared 0 .answered]
  let answer := [.commit 0, .respond 0]
  let load := loadAndStore.map AdminAction.load
  deletion ++ (if after then answer ++ load else load ++ answer) ++ [.load (.start 1 1)]

theorem admin_writes_visible_loaded :
    ∃ u, (adminMachine CacheSettings.default .listFeatureFlags).Reachable
        (AdminWrites.Undisturbed .listFeatureFlags) u ∧
      u.loads.answers = [⟨1, 1⟩, ⟨1, 1⟩] ∧ ∀ a ∈ u.loads.answers, a.since ≤ a.value := by
  have hrun := reachable_run init_noAdminWrites
    (show ((adminMachine CacheSettings.default .listFeatureFlags).run
      (AdminWrites.Undisturbed .listFeatureFlags) noAdminWrites
      (writeAndRead .updateFeatureFlag true)).isSome = true by decide +kernel)
  exact ⟨_, hrun, by decide +kernel, admin_writes_visible CacheSettings.default .listFeatureFlags hrun⟩

/-- **A call that loads between the deletion and the commit hides the write**, whatever the route: each of
these reads returns, after the answer, what the route has changed. -/
theorem admin_writes_hidden :
    [(PlatformRead.listFeatureFlags, AdminRoute.createFeatureFlag),
        (.listFeatureFlags, .updateFeatureFlag),
        (.listDatabaseSettings, .createDatabaseSetting "theme"),
        (.listDatabaseSettings, .updateDatabaseSetting "theme"),
        (.listDatabaseSettings, .deleteDatabaseSetting "theme"),
        (.getPlatformConfig, .createDatabaseSetting "platform.app_name"),
        (.getPlatformConfig, .updateDatabaseSetting "platform.app_name"),
        (.getPlatformConfig, .deleteDatabaseSetting "platform.app_name")].Forall fun hidden ↦
      ∃ u, (adminMachine CacheSettings.default hidden.1).Reachable anyStep u ∧
        ∃ a ∈ u.loads.answers, ¬a.since ≤ a.value := by
  have hhidden : ∀ read route,
      (((adminMachine CacheSettings.default read).run anyStep noAdminWrites
        (writeAndRead route false)).any fun u ↦ u.loads.answers.any fun a ↦ a.value < a.since) = true →
      ∃ u, (adminMachine CacheSettings.default read).Reachable anyStep u ∧
        ∃ a ∈ u.loads.answers, ¬a.since ≤ a.value := by
    intro read route hany
    obtain ⟨u, hrun, hstale⟩ := (Option.any_eq_true _ _).1 hany
    obtain ⟨a, ha, hlt⟩ := List.any_eq_true.1 hstale
    have hinit : (adminMachine CacheSettings.default read).init noAdminWrites := init_noAdminWrites
    have hreachable := reachable_run hinit (Option.isSome_of_eq_some hrun)
    rw [Option.get_of_eq_some _ hrun] at hreachable
    exact ⟨u, hreachable, a, ha, Nat.not_le.2 (of_decide_eq_true hlt)⟩
  rw [List.forall_iff_forall_mem]
  intro hidden hmem
  refine hhidden hidden.1 hidden.2 ?_
  revert hidden
  decide +kernel

end GenericApp
