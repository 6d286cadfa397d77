import GenericApp.Platform.Diagnostics

/-!
# One statement at a time

Which of the operations keep to one statement at a time on the session of the request, and give the result that
their reads give one after the other, in whatever order they are resumed. The overview and the metrics never do,
because they gather statements whatever they find. A calendar does where there is nothing to read: the range is
refused, or the cache answers. The diagnostics do where at most one section comes to a statement, and the sections
that raise raise the same.
-/

namespace GenericApp

open Py

variable {Row : AiTable → Type} {σ : Type} (S : RequestWorld Row σ) (s : σ)

/-- What comes back from elsewhere. -/
abbrev answerOf (e : SharedCall) : Except ReadError e.Answer := S.elsewhere e

/-- The configuration of the platform is not found in the caches, and is loaded. -/
def LoadsConfig : Prop :=
  answerOf S (.cachedConfig .first) = .ok (none : Option PlatformConfig) ∧ (∃ u, answerOf S .singleflight = .ok u) ∧
    answerOf S (.cachedConfig .second) = .ok (none : Option PlatformConfig) ∧
    ∃ lock : LockOutcome, answerOf S .waitForDistributedLock = .ok lock ∧ lock ≠ .filled

section Sections

variable (E : DiagnosticsSettings) (vector : SharedRead Row VectorReadiness)
variable (C : PlatformCatalog) (D : PlatformDefaults)
  (resolve : String → List (String × Bool) → Except String (List String))
  (sha256 : String → String) (config : RagConfig) (newId : Uuid) (now : DateTime)

/-- The engine answers, and the readiness of vectors is asked of the session. -/
def AsksVectors : Prop := (∃ probe, answerOf S .engineProbe = .ok probe) ∧ S.usesSession vector = true

/-- A section comes to a statement on the session. -/
def AsksSession : DiagnosticsPart → Prop
  | .application => LoadsConfig S
  | .postgresql => AsksVectors S vector
  | .rag => E.ragEnabled = true
  | .redis | .celery | .storage | .aiProviders => False

/-- A section raises. -/
inductive SectionRaises : ReadError → Prop
  | postgresql {probe : EngineProbe} {x : ReadError} (hprobe : answerOf S .engineProbe = .ok probe)
    (hvector : (S.alone vector s).1 = .error x) : SectionRaises x
  | celery {x : ReadError} (hready : answerOf S .workerReadiness = .error x) : SectionRaises x
  | storage {x : ReadError} (hasked : storageAsked E = true)
    (hready : answerOf S .storageReadiness = .error x) : SectionRaises x

variable {S s E vector C D resolve sha256 config newId now}

theorem usesSession_elsewhere (e : SharedCall) : S.usesSession (elsewhere e : SharedRead Row e.Answer) = false := by
  refine (S.usesSession_call_elsewhere e _).trans ?_
  rcases S.elsewhere e with x | a
  · rfl
  · rfl

theorem usesSession_loadUnderLock : S.usesSession (loadUnderLock C D resolve) = true ↔
    answerOf S (.cachedConfig .second) = .ok (none : Option PlatformConfig) ∧
      ∃ lock : LockOutcome, answerOf S .waitForDistributedLock = .ok lock ∧ lock ≠ .filled := by
  refine (S.usesSession_elsewhere_bind (.cachedConfig .second) _).trans ⟨?_, ?_⟩
  · rintro ⟨_ | config, hsecond, huses⟩
    · obtain ⟨lock, hlock, huses⟩ := (S.usesSession_elsewhere_bind .waitForDistributedLock _).1 huses
      refine ⟨hsecond, lock, hlock, ?_⟩
      rintro rfl
      exact nomatch (usesSession_elsewhere (.cachedConfig .last)).symm.trans huses
    · exact nomatch huses
  · rintro ⟨hsecond, lock, hlock, hfilled⟩
    refine ⟨none, hsecond, (S.usesSession_elsewhere_bind .waitForDistributedLock _).2 ⟨lock, hlock, ?_⟩⟩
    cases lock with
    | filled => exact absurd rfl hfilled
    | unavailable => rfl
    | held token => rfl
    | expired => rfl

theorem usesSession_getPlatformConfig : S.usesSession (getPlatformConfigCached C D resolve) = true ↔ LoadsConfig S := by
  refine (S.usesSession_elsewhere_bind (.cachedConfig .first) _).trans ⟨?_, ?_⟩
  · rintro ⟨_ | config, hfirst, huses⟩
    · obtain ⟨u, hflight, huses⟩ := (S.usesSession_elsewhere_bind .singleflight _).1 huses
      exact ⟨hfirst, ⟨u, hflight⟩, usesSession_loadUnderLock.1 huses⟩
    · exact nomatch huses
  · rintro ⟨hfirst, ⟨u, hflight⟩, hload⟩
    exact ⟨none, hfirst, (S.usesSession_elsewhere_bind .singleflight _).2
      ⟨u, hflight, usesSession_loadUnderLock.2 hload⟩⟩

theorem usesSession_application : S.usesSession (application E C D resolve) = true ↔ LoadsConfig S := by
  have hmetadata : S.usesSession (platformMetadata C D resolve) =
      S.usesSession (getPlatformConfigCached C D resolve) := by
    refine S.usesSession_bind_of_quiet fun config ↦ ?_
    cases config with
    | none => rfl
    | some config => rfl
  have happlication : S.usesSession (application E C D resolve) = S.usesSession (platformMetadata C D resolve) :=
    (S.usesSession_bind_of_quiet fun _ ↦ rfl).trans (S.usesSession_tryCatch_of_quiet fun _ ↦ rfl)
  rw [happlication, hmetadata, usesSession_getPlatformConfig]

theorem usesSession_postgresql : S.usesSession (postgresql E vector) = true ↔ AsksVectors S vector := by
  have hcall := S.usesSession_call_elsewhere (α := DiagnosticsSection) .engineProbe
  rw [show S.usesSession (postgresql E vector) = _ from hcall _]
  rcases hprobe : S.elsewhere .engineProbe with x | probe
  · exact ⟨nofun, fun ⟨⟨_, h⟩, _⟩ ↦ nomatch hprobe.symm.trans h⟩
  · have hvector : S.usesSession (afterProbe E vector probe) = S.usesSession vector := S.usesSession_map _ _
    exact (Eq.congr_left hvector).trans ⟨fun huses ↦ ⟨⟨probe, hprobe⟩, huses⟩, And.right⟩

theorem raises_postgresql {x : ReadError} :
    (S.alone (postgresql E vector) s).1 = .error x ↔
      ∃ probe : EngineProbe, answerOf S .engineProbe = .ok probe ∧ (S.alone vector s).1 = .error x := by
  have hcall := S.alone_call_elsewhere (α := DiagnosticsSection) .engineProbe
  rw [show S.alone (postgresql E vector) s = _ from hcall _ s]
  rcases hprobe : S.elsewhere .engineProbe with y | probe
  · exact ⟨nofun, fun ⟨_, h, _⟩ ↦ nomatch hprobe.symm.trans h⟩
  · have hvector : (S.alone (afterProbe E vector probe) s).1 = .error x ↔ (S.alone vector s).1 = .error x :=
      S.raises_map _ _ s x
    exact hvector.trans ⟨fun h ↦ ⟨probe, hprobe, h⟩, fun ⟨_, _, h⟩ ↦ h⟩

theorem usesSession_inspectWorkers : S.usesSession (inspectWorkers E : SharedRead Row _) = false := by
  unfold inspectWorkers
  split
  · rfl
  · refine (S.usesSession_tryCatch_of_quiet fun _ ↦ rfl).trans ?_
    exact (S.usesSession_map _ _).trans (usesSession_elsewhere .inspectCelery)

theorem usesSession_celery : S.usesSession (celery E : SharedRead Row _) = false := by
  refine Bool.eq_false_iff.2 fun huses ↦ ?_
  obtain ⟨readiness, -, huses⟩ := (S.usesSession_elsewhere_bind .workerReadiness _).1 huses
  exact nomatch huses.symm.trans ((S.usesSession_map _ _).trans usesSession_inspectWorkers)

theorem raises_celery {x : ReadError} :
    (S.alone (celery E : SharedRead Row _) s).1 = .error x ↔ answerOf S .workerReadiness = .error x := by
  have h : S.alone (celery E : SharedRead Row _) s = _ := S.alone_elsewhere_bind .workerReadiness _ s
  rw [h, answerOf]
  rcases S.elsewhere .workerReadiness with y | readiness
  · exact ⟨fun h ↦ congrArg Except.error (Except.error.inj h), fun h ↦ congrArg Except.error (Except.error.inj h)⟩
  · refine ⟨fun h ↦ ?_, nofun⟩
    have hinspect := (S.raises_map (inspectWorkers E) (celerySection E readiness) s x).1 h
    unfold inspectWorkers at hinspect
    split at hinspect
    · exact nomatch hinspect
    · obtain ⟨found, hfound⟩ := S.alone_tryCatch_done _ (fun _ ↦ ([], [], [])) s
      exact nomatch hfound.symm.trans hinspect

theorem usesSession_storage : S.usesSession (storage E : SharedRead Row _) = false := by
  unfold storage
  split
  · rfl
  · exact (S.usesSession_map _ _).trans (usesSession_elsewhere .storageReadiness)

theorem raises_storage {x : ReadError} :
    (S.alone (storage E : SharedRead Row _) s).1 = .error x ↔
      storageAsked E = true ∧ answerOf S .storageReadiness = .error x := by
  unfold storage
  split
  · next h => exact ⟨nofun, fun hasked ↦ by rw [hasked.1] at h; exact nomatch h⟩
  · next h =>
    have hasked : storageAsked E = true := by
      rcases hasked : storageAsked E with - | -
      · exact absurd (congrArg not hasked) h
      · rfl
    have hmap := S.raises_map (elsewhere .storageReadiness) (storageSection E) s x
    refine hmap.trans ?_
    rw [elsewhere, Surroundings.alone_elsewhere]
    exact ⟨fun h ↦ ⟨hasked, h⟩, And.right⟩

theorem usesSession_redis : S.usesSession (redis E : SharedRead Row _) = false := by
  refine (S.usesSession_tryCatch_of_quiet fun _ ↦ rfl).trans (Bool.eq_false_iff.2 fun huses ↦ ?_)
  obtain ⟨latencyMs, -, huses⟩ := (S.usesSession_elsewhere_bind .redisPing _).1 huses
  have hmemory : S.usesSession (redisMemorySummary : SharedRead Row _) = false := by
    refine (S.usesSession_tryCatch_of_quiet fun _ ↦ rfl).trans ?_
    exact (S.usesSession_map _ _).trans (usesSession_elsewhere .redisMemory)
  exact nomatch huses.symm.trans ((S.usesSession_map _ _).trans hmemory)

theorem usesSession_rag : S.usesSession (rag E vector sha256 config newId now) = E.ragEnabled := by
  unfold rag
  rcases E.ragEnabled with - | -
  · rfl
  · rfl

theorem returns_rag : ∃ section_, (S.alone (rag E vector sha256 config newId now) s).1 = .ok section_ := by
  unfold rag
  split
  · exact ⟨_, rfl⟩
  · exact S.alone_tryCatch_done _ _ s

theorem returns_redis : ∃ section_, (S.alone (redis E : SharedRead Row _) s).1 = .ok section_ :=
  S.alone_tryCatch_done _ _ s

theorem not_raises_application {x : ReadError} : (S.alone (application E C D resolve) s).1 ≠ .error x := by
  intro h
  have hmap := (S.raises_map _ _ s x).1 h
  obtain ⟨metadata, hmetadata⟩ := S.alone_tryCatch_done (platformMetadata C D resolve) (fun _ ↦ ([], none)) s
  exact nomatch hmetadata.symm.trans hmap

/-- The coroutines of the sections that use the session. -/
theorem usesSession_diagnosticsReads (part : DiagnosticsPart) :
    S.usesSession (diagnosticsReads E vector C D resolve sha256 config newId now part) = true ↔
      AsksSession S E vector part := by
  cases part with
  | application => exact usesSession_application
  | postgresql => exact usesSession_postgresql
  | redis => exact ⟨fun h ↦ (nomatch usesSession_redis.symm.trans h), False.elim⟩
  | celery => exact ⟨fun h ↦ (nomatch usesSession_celery.symm.trans h), False.elim⟩
  | storage => exact ⟨fun h ↦ (nomatch usesSession_storage.symm.trans h), False.elim⟩
  | aiProviders => exact ⟨nofun, False.elim⟩
  | rag => exact (Eq.congr_left usesSession_rag)

theorem asksSession_unique {i j : DiagnosticsPart}
    (h : ¬(LoadsConfig S ∧ AsksVectors S vector) ∧ ¬(LoadsConfig S ∧ E.ragEnabled = true) ∧
      ¬(AsksVectors S vector ∧ E.ragEnabled = true))
    (hi : AsksSession S E vector i) (hj : AsksSession S E vector j) : i = j := by
  obtain ⟨hvectors, hindex, hrag⟩ := h
  cases i with
  | application =>
    cases j with
    | application => rfl
    | postgresql => exact absurd ⟨hi, hj⟩ hvectors
    | rag => exact absurd ⟨hi, hj⟩ hindex
    | redis | celery | storage | aiProviders => exact hj.elim
  | postgresql =>
    cases j with
    | application => exact absurd ⟨hj, hi⟩ hvectors
    | postgresql => rfl
    | rag => exact absurd ⟨hi, hj⟩ hrag
    | redis | celery | storage | aiProviders => exact hj.elim
  | rag =>
    cases j with
    | application => exact absurd ⟨hj, hi⟩ hindex
    | postgresql => exact absurd ⟨hj, hi⟩ hrag
    | rag => rfl
    | redis | celery | storage | aiProviders => exact hj.elim
  | redis | celery | storage | aiProviders => exact hi.elim

/-- The coroutines of the sections that raise. -/
theorem raises_diagnosticsReads {x : ReadError} :
    (∃ part, (S.alone (diagnosticsReads E vector C D resolve sha256 config newId now part) s).1 = .error x) ↔
      SectionRaises S s E vector x := by
  constructor
  · rintro ⟨part, h⟩
    cases part with
    | application => exact absurd h not_raises_application
    | postgresql =>
      obtain ⟨probe, hprobe, hvector⟩ := raises_postgresql.1 h
      exact .postgresql hprobe hvector
    | redis =>
      obtain ⟨_, hredis⟩ := returns_redis (S := S) (s := s) (E := E)
      exact nomatch hredis.symm.trans h
    | celery => exact .celery (raises_celery.1 h)
    | storage => exact .storage (raises_storage.1 h).1 (raises_storage.1 h).2
    | aiProviders => exact nomatch h
    | rag =>
      have hreturns : ∃ section_, (S.alone (rag E vector sha256 config newId now) s).1 = .ok section_ :=
        returns_rag
      obtain ⟨_, hrag⟩ := hreturns
      exact nomatch hrag.symm.trans h
  · rintro (⟨hprobe, hvector⟩ | hready | ⟨hasked, hready⟩)
    · exact ⟨.postgresql, raises_postgresql.2 ⟨_, hprobe, hvector⟩⟩
    · exact ⟨.celery, raises_celery.2 hready⟩
    · exact ⟨.storage, raises_storage.2 ⟨hasked, hready⟩⟩

end Sections

/-! ### The operations -/

/-- The operations whose coroutines share the session of the request. -/
inductive SharedOperation
  | overview (userId : Uuid)
  | metrics
  | calendar (userId : Uuid) (startDate endDate : Day)
  | diagnostics

section Operations

variable (E : DiagnosticsSettings) (vector : SharedRead Row VectorReadiness)
  (operationalStateForFault : String → OperationalState)
variable (C : PlatformCatalog) (D : PlatformDefaults)
  (resolve : String → List (String × Bool) → Except String (List String))
  (sha256 : String → String) (config : RagConfig) (newId : Uuid) (now : DateTime)

/-- In whatever order the coroutines are resumed, at most one statement is in flight on the session, and the result
is that of the reads one after the other. -/
def OneAtATime : SharedOperation → Prop
  | .overview userId =>
    (AiOverviewCoordinator.build E.ragEnabled E.aiEmbeddingProvider userId : SharedGathering Row _ _).Sound S s
  | .metrics => (getMetrics : SharedGathering Row _ _).Sound S s
  | .calendar userId startDate endDate =>
    (CalendarService.listItems userId startDate endDate : SharedGathering Row _ _).Sound S s
  | .diagnostics => (collect E vector operationalStateForFault C D resolve sha256 config newId now).Sound S s

/-- The operation does not come to two statements. -/
def Spared : SharedOperation → Prop
  | .overview _ | .metrics => False
  | .calendar userId startDate endDate =>
    PlannerState.refuseRange startDate endDate ≠ none ∨
      answerOf S (.cachedItems userId startDate endDate) ≠ .ok (none : Option (List CalendarItemResponse))
  | .diagnostics =>
    (¬(LoadsConfig S ∧ AsksVectors S vector) ∧ ¬(LoadsConfig S ∧ E.ragEnabled = true) ∧
      ¬(AsksVectors S vector ∧ E.ragEnabled = true)) ∧
        ∀ x y, SectionRaises S s E vector x → SectionRaises S s E vector y → x = y

/-- An operation keeps to one statement at a time, and to the result of its reads in turn, exactly where it does not
come to two statements, and where no two sections of the diagnostics raise differently. -/
theorem oneAtATime_iff (operation : SharedOperation) :
    OneAtATime S s E vector operationalStateForFault C D resolve sha256 config newId now operation ↔
      Spared S s E vector operation := by
  cases operation with
  | overview userId =>
    refine ⟨fun h ↦ ?_, False.elim⟩
    exact nomatch (Gathering.sound_iff.1 h rfl).one (.listed .promptTemplates) (.listed .runs) rfl rfl
  | metrics =>
    refine ⟨fun h ↦ ?_, False.elim⟩
    exact nomatch (Gathering.sound_iff.1 h rfl).one .userCounts .notifs rfl rfl
  | calendar userId startDate endDate =>
    have hbefore : S.quietly (CalendarService.listItems userId startDate endDate : SharedGathering Row _ _).before =
        .ok none ↔ ¬Spared S s E vector (.calendar userId startDate endDate) := by
      unfold CalendarService.listItems Spared
      dsimp only
      rcases PlannerState.refuseRange startDate endDate with - | raised
      · have hcached : S.quietly (awaitCall (.cachedItems userId startDate endDate)) =
            answerOf S (.cachedItems userId startDate endDate) := by
          change S.quietly (.call _ _) = _
          rw [Surroundings.quietly, answerOf]
          rcases S.elsewhere (.cachedItems userId startDate endDate) with x | found
          · rfl
          · rfl
        refine (Eq.congr_left hcached).trans ?_
        exact ⟨fun h hspared ↦ hspared.elim (absurd rfl) (absurd h), fun h ↦ not_not.1 fun hne ↦ h (.inr hne)⟩
      · exact ⟨nofun, fun h ↦ absurd (.inl nofun) h⟩
    refine Gathering.sound_iff.trans ⟨fun h ↦ ?_, fun hspared h ↦ absurd hspared (hbefore.1 h)⟩
    by_contra hspared
    exact nomatch (h (hbefore.2 hspared)).one .entries .tasks rfl rfl
  | diagnostics =>
    refine Gathering.sound_iff.trans ⟨fun h ↦ ?_, fun hspared _ ↦ ⟨fun i j hi hj ↦ ?_, fun i j x y hx hy ↦ ?_⟩⟩
    · obtain ⟨hone, hsame⟩ := h rfl
      have huses (part : DiagnosticsPart) :
          S.usesSession (diagnosticsReads E vector C D resolve sha256 config newId now part) = true ↔
            AsksSession S E vector part :=
        usesSession_diagnosticsReads part
      refine ⟨⟨fun ⟨hload, hask⟩ ↦ ?_, fun ⟨hload, hrag⟩ ↦ ?_, fun ⟨hask, hrag⟩ ↦ ?_⟩, fun x y hx hy ↦ ?_⟩
      · exact nomatch hone .application .postgresql ((huses .application).2 hload) ((huses .postgresql).2 hask)
      · exact nomatch hone .application .rag ((huses .application).2 hload) ((huses .rag).2 hrag)
      · exact nomatch hone .postgresql .rag ((huses .postgresql).2 hask) ((huses .rag).2 hrag)
      · obtain ⟨i, hi⟩ := raises_diagnosticsReads.2 hx
        obtain ⟨j, hj⟩ := raises_diagnosticsReads.2 hy
        exact hsame i j x y hi hj
    · exact asksSession_unique hspared.1 (usesSession_diagnosticsReads i |>.1 hi)
        (usesSession_diagnosticsReads j |>.1 hj)
    · exact hspared.2 x y (raises_diagnosticsReads.1 ⟨i, hx⟩) (raises_diagnosticsReads.1 ⟨j, hy⟩)

end Operations

/-- A database without rows, and caches that have nothing. -/
def emptyWorld : RequestWorld (fun _ ↦ Unit) Unit where
  execute q s := (.ok (match q with
    | .total _ _ | .count _ _ | .notificationCount => (some 0 : Option ℕ)
    | .page _ _ _ _ => ([] : List Unit)
    | .userCounts => (some 0, some 0, some 0)
    | .entriesByUserAndRange _ _ _ => ([] : List CalendarEntry)
    | .tasksDueForUser _ _ _ => ([] : List (ProjectTask × Project))
    | .settingsByPrefix _ => Table.empty
    | .vectorSchema => ⟨false, false, false⟩
    | .activeVersion | .versionByKey _ => (none : Option RagIndexVersion)
    | .flushVersion _ => ()
    | .documentCount _ | .documentsWithChunks _ | .chunkCount _ | .jobCount _ _ => (some 0 : Option ℕ)
    | .versions => ([] : List RagIndexVersion)), s)
  elsewhere
    | .cachedItems _ _ _ => .ok (none : Option (List CalendarItemResponse))
    | .cacheItems _ _ _ _ | .singleflight | .cacheConfig _ | .releaseDistributedLock _ => .ok ()
    | .cachedConfig _ => .ok (none : Option PlatformConfig)
    | .waitForDistributedLock => .ok LockOutcome.expired
    | .vectorReadiness => .ok (none : Option VectorReadiness)
    | .engineProbe => .ok ⟨none, 1⟩
    | .redisPing => .ok (1 : ℚ)
    | .redisMemory => .ok ⟨none, none, none⟩
    | .workerReadiness => .ok ⟨"ok", "workers ready", none, none, none, none, none⟩
    | .inspectCelery => .ok ⟨[], []⟩
    | .storageReadiness => .ok (true, "object storage bucket is reachable")
  busy := .named "InvalidRequestError"

/-- The request for a month of an empty calendar starts both statements. -/
theorem calendar_overlaps :
    ¬(CalendarService.listItems 1 0 30 : SharedGathering (fun _ ↦ Unit) _ _).Sound emptyWorld () := by
  intro h
  have hreach := (((Machine.Reachable.of_init (M := (CalendarService.listItems 1 0 30).machine emptyWorld ())
    (C := Machine.anyStep) rfl).tail (a := none) trivial rfl).tail (a := none) trivial rfl).tail
      (a := some .entries) trivial rfl
  exact nomatch (h _ (hreach.tail (a := some .tasks) trivial rfl)).1 .entries .tasks rfl rfl

end GenericApp
