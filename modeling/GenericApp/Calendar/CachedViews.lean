import GenericApp.Calendar.CalendarService

/-!
# Cached lists and calendars

What is cached is right if it is what would be computed (`Fresh`). A call keeps it so if it drops what is cached
for the users whose list or calendar it changes: `Drops` says for whom a call drops the cache, and `Drops.fresh`
that this is enough. What a write changes for a user is told by the rows that the user's queries select:
`dueRow` for a calendar, and the assignments for a list of projects.
-/

namespace GenericApp

open Py

namespace PlannerDb

variable {db db' : PlannerDb} {userId viewer : Uuid} {project : Project} {task : ProjectTask}
  {startDate endDate : Day}

/-! ### The rows that a user sees -/

/-- The rows of a calendar depend on the projects and the memberships. -/
theorem dueRow_congr (hprojects : db'.projects = db.projects) (hmemberships : db'.memberships = db.memberships) :
    db'.dueRow viewer startDate endDate = db.dueRow viewer startDate endDate := by
  funext task
  unfold dueRow accessFilter belongs
  rw [hprojects, hmemberships]

theorem single_projectId {id : Uuid} : projectSchema.Single (· = id) := fun a b hab ha hb ↦
  (hab : a ≠ b) ((of_decide_eq_true ha).trans (of_decide_eq_true hb).symm)

theorem find_project (hproject : project ∈ db.projects.rows) (hlink : project.id = task.projectId) :
    db.projects.find (· = task.projectId) = some project :=
  Table.find_eq_some_of_mem single_projectId hproject (decide_eq_true hlink)

/-- **A task is in the calendar of its owner and of its assignee**, if it is due. -/
theorem dueRow_eq_none (hproject : project ∈ db.projects.rows) (hlink : project.id = task.projectId)
    (h : task.dueDate.isSome = true → project.ownerId ≠ viewer ∧ task.assigneeId ≠ some viewer) :
    db.dueRow viewer startDate endDate task = none := by
  unfold dueRow
  rw [find_project hproject hlink, Option.bind_some]
  refine if_neg fun hboth ↦ ?_
  obtain ⟨hdue, haccess⟩ := Bool.and_eq_true_iff.1 hboth
  rcases hdate : task.dueDate with - | dueDate
  · rw [hdate] at hdue
    exact nomatch hdue
  obtain ⟨howner, hassignee⟩ := h (by rw [hdate]; rfl)
  rcases Bool.or_eq_true_iff.1 haccess with hown | hassigned
  · exact howner (of_decide_eq_true hown)
  · exact hassignee (of_decide_eq_true (Bool.and_eq_true_iff.1 hassigned).1)

theorem mem_dueRow {row : ProjectTask × Project} (h : db.dueRow viewer startDate endDate task = some row) :
    row.1 = task ∧ task.dueDate.isSome = true := by
  unfold dueRow at h
  obtain ⟨project, -, h⟩ := Option.bind_eq_some_iff.1 h
  split at h
  · next hboth =>
    obtain rfl := Option.some.inj h
    refine ⟨rfl, ?_⟩
    rcases hdate : task.dueDate with - | dueDate
    · rw [hdate] at hboth
      exact nomatch hboth
    · rfl
  · exact nomatch h

/-- **Access to a project** is the owner's, and that of members who have a task in it. -/
theorem accessible_iff :
    db.accessible viewer project = true ↔ project.ownerId = viewer ∨
      db.belongs viewer project.organizationId = true ∧
        ∃ task ∈ db.tasks.rows, task.projectId = project.id ∧ task.assigneeId = some viewer := by
  have hnone : db.accessFilter viewer project none = true ↔ project.ownerId = viewer := by
    simp [accessFilter]
  have hsome : ∀ task, db.accessFilter viewer project (some task) = true ↔ project.ownerId = viewer ∨
      task.assigneeId = some viewer ∧ db.belongs viewer project.organizationId = true := by
    simp [accessFilter]
  unfold accessible joinedTasks
  split
  · next hempty =>
    simp only [List.any_cons, List.any_nil, Bool.or_false, hnone]
    refine (or_iff_left fun ⟨_, task, htask, hlink, _⟩ ↦ ?_).symm
    exact List.filter_eq_nil_iff.1 hempty task htask (decide_eq_true hlink)
  · next hsomeTask =>
    obtain ⟨first, hfirst⟩ := List.exists_mem_of_ne_nil _ hsomeTask
    simp only [List.any_map, List.any_eq_true, Function.comp_apply, hsome]
    constructor
    · rintro ⟨task, htask, hown | ⟨hassigned, hbelongs⟩⟩
      · exact .inl hown
      · obtain ⟨htask, hlink⟩ := List.mem_filter.1 htask
        exact .inr ⟨hbelongs, task, htask, of_decide_eq_true hlink, hassigned⟩
    · rintro (hown | ⟨hbelongs, task, htask, hlink, hassigned⟩)
      · exact ⟨first, hfirst, .inl hown⟩
      · exact ⟨task, List.mem_filter.2 ⟨htask, decide_eq_true hlink⟩, .inr ⟨hassigned, hbelongs⟩⟩

/-- A user has tasks in the same projects. -/
def SameAssignments (db db' : PlannerDb) (viewer : Uuid) : Prop :=
  ∀ projectId, (∃ task ∈ db'.tasks.rows, task.projectId = projectId ∧ task.assigneeId = some viewer) ↔
    ∃ task ∈ db.tasks.rows, task.projectId = projectId ∧ task.assigneeId = some viewer

theorem accessible_congr (hmemberships : db'.memberships = db.memberships)
    (h : SameAssignments db db' viewer) : db'.accessible viewer = db.accessible viewer := by
  funext project
  have hbelongs : db'.belongs viewer = db.belongs viewer := by
    funext organizationId
    unfold belongs
    rw [hmemberships]
  rw [Bool.eq_iff_iff, accessible_iff, accessible_iff, hbelongs, h project.id]

theorem getByIdForOwner_eq_some {projectId : Uuid} (h : db.getByIdForOwner projectId userId = some project) :
    project ∈ db.projects.rows ∧ project.id = projectId ∧ project.ownerId = userId := by
  have hfound := List.find?_some h
  obtain ⟨hid, howner⟩ := Bool.and_eq_true_iff.1 hfound
  exact ⟨List.mem_of_find?_eq_some h, of_decide_eq_true hid, of_decide_eq_true howner⟩

theorem getTaskById_eq_some {projectId taskId : Uuid} (h : db.getTaskById projectId taskId = some task) :
    task ∈ db.tasks.rows ∧ task.id = taskId ∧ task.projectId = projectId := by
  have hfound := List.find?_some h
  obtain ⟨hid, hproject⟩ := Bool.and_eq_true_iff.1 hfound
  exact ⟨List.mem_of_find?_eq_some h, of_decide_eq_true hid, of_decide_eq_true hproject⟩

end PlannerDb

namespace PlannerState

variable {s s' t u : PlannerState} {db db' : PlannerDb} {userId viewer projectId taskId : Uuid}
  {project : Project} {task : ProjectTask} {startDate endDate : Day}

/-! ### What a write leaves alone -/

/-- The calendars of a user stay as they are. -/
def SameCalendars (db db' : PlannerDb) (viewer : Uuid) : Prop :=
  ∀ startDate endDate, calendarItems db' viewer startDate endDate = calendarItems db viewer startDate endDate

/-- The project lists of a user stay as they are. -/
def SameProjects (db db' : PlannerDb) (viewer : Uuid) : Prop :=
  ∀ limit offset, projectPage db' viewer limit offset = projectPage db viewer limit offset

/-- The calendars are the same where the same rows are selected. -/
theorem sameCalendars_of_rows (hentries : db'.entries = db.entries)
    (h : ∀ startDate endDate, db'.tasks.rows.filterMap (db'.dueRow viewer startDate endDate) =
      db.tasks.rows.filterMap (db.dueRow viewer startDate endDate)) :
    SameCalendars db db' viewer := by
  intro startDate endDate
  unfold calendarItems PlannerDb.listEntriesByUserAndRange PlannerDb.listTasksDueForUser
  rw [hentries, h]

theorem sameProjects_of_accessible
    (h : db'.projects.rows.filter (fun project ↦ db'.accessible viewer project) =
      db.projects.rows.filter fun project ↦ db.accessible viewer project) :
    SameProjects db db' viewer := by
  intro limit offset
  unfold projectPage PlannerDb.listAccessibleByUser
  rw [h]

theorem sameProjects_of_assignments (hprojects : db'.projects = db.projects)
    (hmemberships : db'.memberships = db.memberships) (h : PlannerDb.SameAssignments db db' viewer) :
    SameProjects db db' viewer :=
  sameProjects_of_accessible (by rw [hprojects, PlannerDb.accessible_congr hmemberships h])

/-! ### What is cached is right -/

/-- **What is cached is what would be computed.** -/
structure Fresh (s : PlannerState) : Prop where
  calendars : ∀ viewer startDate endDate items, s.calendars (viewer, startDate, endDate) = some items →
    calendarItems s.db viewer startDate endDate = .ok items
  projectLists : ∀ viewer limit offset page, s.projectLists (viewer, limit, offset) = some page →
    projectPage s.db viewer limit offset = page

/-- The cache is dropped for some users, and otherwise left. -/
structure Drops (s t : PlannerState) (calendarsOf projectsOf : Uuid → Prop) : Prop where
  db : t.db = s.db
  calendars : ∀ key items, t.calendars key = some items → s.calendars key = some items ∧ ¬calendarsOf key.1
  projectLists : ∀ key page, t.projectLists key = some page → s.projectLists key = some page ∧ ¬projectsOf key.1

/-- Nobody. -/
def nobody : Uuid → Prop := fun _ ↦ False

section Drops

variable {U V P Q : Uuid → Prop}

theorem Drops.refl : Drops s s nobody nobody :=
  ⟨rfl, fun _ _ h ↦ ⟨h, id⟩, fun _ _ h ↦ ⟨h, id⟩⟩

theorem Drops.trans (hst : Drops s t U P) (htu : Drops t u V Q) :
    Drops s u (fun viewer ↦ U viewer ∨ V viewer) fun viewer ↦ P viewer ∨ Q viewer where
  db := htu.db.trans hst.db
  calendars := fun key items h ↦ by
    obtain ⟨h, hV⟩ := htu.calendars key items h
    obtain ⟨h, hU⟩ := hst.calendars key items h
    exact ⟨h, not_or.2 ⟨hU, hV⟩⟩
  projectLists := fun key page h ↦ by
    obtain ⟨h, hQ⟩ := htu.projectLists key page h
    obtain ⟨h, hP⟩ := hst.projectLists key page h
    exact ⟨h, not_or.2 ⟨hP, hQ⟩⟩

theorem Drops.mono (h : Drops s t U P) (hU : ∀ viewer, V viewer → U viewer)
    (hP : ∀ viewer, Q viewer → P viewer) : Drops s t V Q :=
  ⟨h.db, fun key items hkey ↦ (h.calendars key items hkey).imp_right (mt (hU _)),
    fun key page hkey ↦ (h.projectLists key page hkey).imp_right (mt (hP _))⟩

theorem drops_invalidateCalendarCache :
    Drops s (s.invalidateCalendarCache userId) (fun viewer ↦ viewer = userId) nobody where
  db := rfl
  calendars := fun key items h ↦ by
    by_cases hkey : key.1 = userId
    · exact nomatch (if_pos hkey).symm.trans h
    · exact ⟨(if_neg hkey).symm.trans h, hkey⟩
  projectLists := fun _ _ h ↦ ⟨h, id⟩

theorem drops_invalidateProjectListCache :
    Drops s (s.invalidateProjectListCache userId) nobody fun viewer ↦ viewer = userId where
  db := rfl
  calendars := fun _ _ h ↦ ⟨h, id⟩
  projectLists := fun key page h ↦ by
    by_cases hkey : key.1 = userId
    · exact nomatch (if_pos hkey).symm.trans h
    · exact ⟨(if_neg hkey).symm.trans h, hkey⟩

theorem drops_invalidateCalendarOf {other : Option Uuid} :
    Drops s (s.invalidateCalendarOf other) (fun viewer ↦ other = some viewer) nobody := by
  rcases other with - | other
  · exact Drops.refl.mono (fun _ h ↦ nomatch h) fun _ h ↦ h
  · exact drops_invalidateCalendarCache.mono (fun _ h ↦ (Option.some.inj h).symm) fun _ h ↦ h

theorem Drops.onlyIf {c : Bool} {f : PlannerState → PlannerState} (h : Drops s (f s) U P) :
    Drops s (s.onlyIf c f) (fun viewer ↦ c = true ∧ U viewer) fun viewer ↦ c = true ∧ P viewer := by
  rcases c with - | -
  · exact Drops.refl.mono (fun _ h ↦ nomatch h.1) fun _ h ↦ nomatch h.1
  · exact h.mono (fun _ h ↦ h.2) fun _ h ↦ h.2

theorem drops_invalidateAssignmentAccessCaches {previous new : Option Uuid} :
    Drops s (s.invalidateAssignmentAccessCaches previous new) nobody
      fun viewer ↦ previous = some viewer ∨ new = some viewer := by
  have hfold : ∀ (userIds : List Uuid) (s : PlannerState),
      Drops s (userIds.foldl invalidateProjectListCache s) nobody fun viewer ↦ viewer ∈ userIds := by
    intro userIds
    induction userIds with
    | nil => exact fun s ↦ Drops.refl.mono (fun _ h ↦ h) fun _ h ↦ nomatch h
    | cons userId userIds ih =>
      exact fun s ↦ (drops_invalidateProjectListCache.trans (ih _)).mono (fun _ h ↦ .inl h)
        fun _ h ↦ List.mem_cons.1 h
  refine (hfold _ s).mono (fun _ h ↦ h) fun viewer h ↦ ?_
  rw [List.mem_append, Option.mem_toList, Option.mem_toList]
  exact h

/-- **Dropping what a write changes** leaves a cache that is right. -/
theorem Drops.fresh (h : Drops { s with db := db' } t U P) (hs : s.Fresh)
    (hcalendars : ∀ viewer, ¬U viewer → SameCalendars s.db db' viewer)
    (hprojects : ∀ viewer, ¬P viewer → SameProjects s.db db' viewer) : t.Fresh where
  calendars := fun viewer startDate endDate items hkey ↦ by
    obtain ⟨hkey, hU⟩ := h.calendars _ _ hkey
    rw [h.db]
    exact (hcalendars viewer hU startDate endDate).trans (hs.calendars _ _ _ _ hkey)
  projectLists := fun viewer limit offset page hkey ↦ by
    obtain ⟨hkey, hP⟩ := h.projectLists _ _ hkey
    rw [h.db]
    exact (hprojects viewer hP limit offset).trans (hs.projectLists _ _ _ _ hkey)

end Drops

/-! ### Each call -/

theorem insertProject_eq_some (h : db.insertProject project = some db') :
    (∃ projects, db.projects.insert project = some projects ∧ db'.projects = projects) ∧
      db'.memberships = db.memberships ∧ db'.tasks = db.tasks ∧ db'.entries = db.entries := by
  unfold PlannerDb.insertProject at h
  split at h
  · exact nomatch h
  · next projects hinsert =>
    obtain rfl := Option.some.inj h
    exact ⟨⟨projects, hinsert, rfl⟩, rfl, rfl, rfl⟩

theorem insertTask_eq_some (h : db.insertTask task = some db') :
    db'.tasks.rows = db.tasks.rows ++ [task] ∧ db'.projects = db.projects ∧
      db'.memberships = db.memberships ∧ db'.entries = db.entries := by
  unfold PlannerDb.insertTask at h
  split at h
  · split at h
    · exact nomatch h
    · next tasks hinsert =>
      obtain rfl := Option.some.inj h
      exact ⟨Table.rows_of_insert hinsert, rfl, rfl, rfl⟩
  · exact nomatch h

/-- A new project is in no calendar. -/
theorem sameCalendars_of_insertProject (h : db.insertProject project = some db') :
    SameCalendars db db' viewer := by
  obtain ⟨⟨projects, hinsert, rfl⟩, hmemberships, htasks, hentries⟩ := insertProject_eq_some h
  refine sameCalendars_of_rows hentries fun startDate endDate ↦ ?_
  rw [htasks]
  refine List.filterMap_congr fun task htask ↦ ?_
  obtain ⟨owner, howner, hlink⟩ := db.linked task htask
  have hfind := PlannerDb.find_project howner hlink
  unfold PlannerDb.dueRow PlannerDb.accessFilter PlannerDb.belongs
  rw [Table.find_of_insert_of_some hinsert hfind, hfind, hmemberships]

/-- A new project has no tasks, so that its owner alone sees it. -/
theorem sameProjects_of_insertProject (h : db.insertProject project = some db')
    (hviewer : viewer ≠ project.ownerId) : SameProjects db db' viewer := by
  obtain ⟨⟨projects, hinsert, rfl⟩, hmemberships, htasks, -⟩ := insertProject_eq_some h
  have hassignments : PlannerDb.SameAssignments db db' viewer := fun _ ↦ by rw [htasks]
  have hnew : db.accessible viewer project = false := by
    rw [← Bool.not_eq_true, PlannerDb.accessible_iff]
    rintro (hown | ⟨-, task, htask, hlink, -⟩)
    · exact hviewer hown.symm
    · obtain ⟨owner, howner, heq⟩ := db.linked task htask
      exact Table.compat_of_insert hinsert howner (heq.trans hlink)
  refine sameProjects_of_accessible ?_
  rw [Table.rows_of_insert hinsert, PlannerDb.accessible_congr hmemberships hassignments, List.filter_append,
    List.filter_singleton, hnew, cond_false, List.append_nil]

theorem fresh_createProject {name : String} {description : Option String} {organizationId : Option Uuid}
    {made : Made} (hs : s.Fresh)
    (hmemberships : (s.createProject userId name description organizationId made).2.db.memberships =
      s.db.memberships) :
    (s.createProject userId name description organizationId made).2.Fresh := by
  unfold createProject at hmemberships ⊢
  rcases hresolve : s.resolveProjectOrganizationId userId organizationId made with
    raised | ⟨organizationId, memberships⟩
  · exact hs
  simp only [hresolve] at hmemberships ⊢
  rcases hinsert : { s.db with memberships := memberships }.insertProject
    ⟨made.id, userId, organizationId, name, description, made.now⟩ with - | db'
  · simp only [hinsert]
    exact hs
  simp only [hinsert] at hmemberships ⊢
  obtain rfl : memberships = s.db.memberships := (insertProject_eq_some hinsert).2.1.symm.trans hmemberships
  refine (drops_invalidateProjectListCache (s := { s with db := db' })).fresh hs
    (fun viewer _ ↦ sameCalendars_of_insertProject hinsert) fun viewer hviewer ↦ ?_
  exact sameProjects_of_insertProject hinsert hviewer

/-- **A new task** concerns its owner and its assignee. -/
theorem sameCalendars_of_insertTask (h : db.insertTask task = some db') (hproject : project ∈ db.projects.rows)
    (hlink : project.id = task.projectId)
    (hviewer : task.dueDate.isSome = true → project.ownerId ≠ viewer ∧ task.assigneeId ≠ some viewer) :
    SameCalendars db db' viewer := by
  obtain ⟨htasks, hprojects, hmemberships, hentries⟩ := insertTask_eq_some h
  refine sameCalendars_of_rows hentries fun startDate endDate ↦ ?_
  rw [htasks, PlannerDb.dueRow_congr hprojects hmemberships, List.filterMap_append, List.filterMap_cons,
    PlannerDb.dueRow_eq_none hproject hlink hviewer, List.filterMap_nil, List.append_nil]

theorem sameProjects_of_insertTask (h : db.insertTask task = some db') (hviewer : task.assigneeId ≠ some viewer) :
    SameProjects db db' viewer := by
  obtain ⟨htasks, hprojects, hmemberships, -⟩ := insertTask_eq_some h
  refine sameProjects_of_assignments hprojects hmemberships fun projectId ↦ ?_
  rw [htasks]
  constructor
  · rintro ⟨row, hrow, hlink, hassigned⟩
    rcases List.mem_append.1 hrow with hrow | hrow
    · exact ⟨row, hrow, hlink, hassigned⟩
    · exact absurd (List.mem_singleton.1 hrow ▸ hassigned) hviewer
  · rintro ⟨row, hrow, hboth⟩
    exact ⟨row, List.mem_append_left _ hrow, hboth⟩

/-- The calendars of the owner, and of someone else. -/
theorem drops_calendars {other : Option Uuid} :
    Drops s ((s.invalidateCalendarCache userId).onlyIf (someoneElse userId other) fun s ↦
      s.invalidateCalendarOf other) (fun viewer ↦ viewer = userId ∨ other = some viewer) nobody := by
  refine (drops_invalidateCalendarCache.trans drops_invalidateCalendarOf.onlyIf).mono (fun viewer h ↦ ?_)
    fun _ h ↦ nomatch h
  by_cases hviewer : viewer = userId
  · exact .inl hviewer
  · have hother := h.resolve_left hviewer
    refine .inr ⟨?_, hother⟩
    rw [hother]
    exact decide_eq_true hviewer

theorem getTaskWithAssignee_ne_none (htask : task ∈ db.tasks.rows) :
    db.getTaskWithAssignee task.projectId task.id ≠ none := by
  intro hnone
  have hfind := List.find?_eq_none.1 (Option.map_eq_none_iff.1 hnone) task htask
  simp at hfind

theorem fresh_createTask {payload : ProjectTaskCreate} {made : Made} (hs : s.Fresh) :
    (s.createTask userId projectId payload made).2.Fresh := by
  unfold createTask
  rcases howned : s.db.getByIdForOwner projectId userId with - | project
  · exact hs
  obtain ⟨hproject, -, howner⟩ := PlannerDb.getByIdForOwner_eq_some howned
  dsimp only
  rcases getAssigneeOr404 s.db project payload.assigneeId with raised | assignee
  · exact hs
  dsimp only
  generalize htask : ProjectTask.mk made.id project.id (assignee.map (·.id)) payload.title payload.description
    payload.status payload.priority payload.dueDate (s.db.getNextTaskPosition project.id payload.status)
    made.now = task
  have hid : made.id = task.id := htask ▸ rfl
  have hlink : project.id = task.projectId := htask ▸ rfl
  have hassignee : task.assigneeId = assignee.map (·.id) := htask ▸ rfl
  have hdue : task.dueDate = payload.dueDate := htask ▸ rfl
  rcases hinsert : s.db.insertTask task with - | db'
  · exact hs
  dsimp only
  have hmem : task ∈ db'.tasks.rows := by
    rw [(insertTask_eq_some hinsert).1]
    exact List.mem_append_right _ (List.mem_singleton_self task)
  have hfound := getTaskWithAssignee_ne_none hmem
  rw [← hlink, ← hid] at hfound
  rcases hrow : db'.getTaskWithAssignee project.id made.id with - | taskRow
  · exact absurd hrow hfound
  dsimp only
  refine Drops.fresh (drops_invalidateAssignmentAccessCaches.trans drops_calendars.onlyIf) hs
    (fun viewer hviewer ↦ ?_) fun viewer hviewer ↦ ?_
  · refine sameCalendars_of_insertTask hinsert hproject hlink fun hsome ↦ ?_
    have hboth := not_or.1 fun h ↦ hviewer (.inr ⟨hdue ▸ hsome, h⟩)
    exact ⟨fun h ↦ hboth.1 (h.symm.trans howner), hassignee ▸ hboth.2⟩
  · exact sameProjects_of_insertTask hinsert fun h ↦ hviewer (.inl (.inr (hassignee ▸ h)))

/-- **A task that is rewritten** concerns its owner, and who was and who is assigned it. -/
theorem sameCalendars_of_modifyTask {previous : ProjectTask} (hmem : previous ∈ db.tasks.rows)
    (hid : previous.id = taskId) (hproject : project ∈ db.projects.rows) (hlink : project.id = previous.projectId)
    (hlink' : project.id = task.projectId)
    (hviewer : previous.dueDate.isSome = true ∨ task.dueDate.isSome = true → project.ownerId ≠ viewer ∧
      previous.assigneeId ≠ some viewer ∧ task.assigneeId ≠ some viewer) :
    SameCalendars db (db.modifyTasks (hasTaskId taskId) fun _ ↦ task) viewer := by
  refine sameCalendars_of_rows rfl fun startDate endDate ↦ ?_
  have hsame : (db.modifyTasks (hasTaskId taskId) fun _ ↦ task).dueRow viewer startDate endDate =
      db.dueRow viewer startDate endDate := PlannerDb.dueRow_congr rfl rfl
  rw [hsame]
  refine Table.filterMap_modify fun row hrow hsel ↦ ?_
  obtain rfl := Table.eq_of_mem_of_sel single_hasTaskId hmem hrow (decide_eq_true hid) hsel
  rw [PlannerDb.dueRow_eq_none hproject hlink fun h ↦ ⟨(hviewer (.inl h)).1, (hviewer (.inl h)).2.1⟩,
    PlannerDb.dueRow_eq_none hproject hlink' fun h ↦ ⟨(hviewer (.inr h)).1, (hviewer (.inr h)).2.2⟩]

theorem sameProjects_of_modifyTask {previous : ProjectTask} (hmem : previous ∈ db.tasks.rows)
    (hid : previous.id = taskId) (hlink : task.projectId = previous.projectId)
    (hviewer : task.assigneeId = some viewer ↔ previous.assigneeId = some viewer) :
    SameProjects db (db.modifyTasks (hasTaskId taskId) fun _ ↦ task) viewer := by
  refine sameProjects_of_assignments rfl rfl fun projectId ↦ Table.exists_modify_iff fun row hrow hsel ↦ ?_
  obtain rfl := Table.eq_of_mem_of_sel single_hasTaskId hmem hrow (decide_eq_true hid) hsel
  rw [hlink, hviewer]

section Update

variable {payload : ProjectTaskUpdate}

@[simp] theorem id_inColumn : (inColumn db task payload).id = task.id := by
  unfold inColumn
  split
  · split <;> rfl
  · rfl

@[simp] theorem projectId_inColumn : (inColumn db task payload).projectId = task.projectId := by
  unfold inColumn
  split
  · split <;> rfl
  · rfl

@[simp] theorem assigneeId_inColumn : (inColumn db task payload).assigneeId = task.assigneeId := by
  unfold inColumn
  split
  · split <;> rfl
  · rfl

/-- The id that is written is that of the assignee, or is left. -/
theorem assigneeAfter_eq_ok {assignee : Option PlannerUser} {assigneeId : Option Uuid}
    (h : assigneeAfter db project task payload = .ok (assignee, assigneeId)) :
    payload.assigneeId.isSome = true ∧ assigneeId = assignee.map (·.id) ∨ assigneeId = task.assigneeId := by
  unfold assigneeAfter at h
  split at h
  · next hsome =>
    split at h
    · exact nomatch h
    · obtain ⟨rfl, rfl⟩ := Prod.mk.inj (Except.ok.inj h)
      exact .inl ⟨by rw [hsome]; rfl, rfl⟩
  · obtain ⟨-, rfl⟩ := Prod.mk.inj (Except.ok.inj h)
    exact .inr rfl

theorem fresh_updateTask (hs : s.Fresh) : (s.updateTask userId projectId taskId payload).2.Fresh := by
  unfold updateTask
  rcases howned : s.db.getByIdForOwner projectId userId with - | project
  · exact hs
  obtain ⟨hproject, -, howner⟩ := PlannerDb.getByIdForOwner_eq_some howned
  dsimp only
  rcases hprevious : s.db.getTaskById project.id taskId with - | previous
  · exact hs
  obtain ⟨hmem, hid, hlink⟩ := PlannerDb.getTaskById_eq_some hprevious
  dsimp only
  rcases hafter : assigneeAfter s.db project previous payload with raised | ⟨assignee, assigneeId⟩
  · exact hs
  dsimp only
  generalize htask : inColumn s.db (withFields previous payload assigneeId) payload = task
  have hid' : task.id = previous.id := htask ▸ id_inColumn
  have hlink' : task.projectId = previous.projectId := htask ▸ projectId_inColumn
  obtain rfl : task.assigneeId = assigneeId := htask ▸ assigneeId_inColumn
  have hfound : task ∈ (s.db.modifyTasks (hasTaskId taskId) fun _ ↦ task).tasks.rows := by
    refine Table.mem_modify_iff.2 ⟨previous, hmem, Table.modifyRow_of_pos (decide_eq_true hid) ?_⟩
    exact Prod.ext hid' hlink'
  have hfound := getTaskWithAssignee_ne_none hfound
  rw [hlink', hlink] at hfound
  rcases hrow : (s.db.modifyTasks (hasTaskId taskId) fun _ ↦ task).getTaskWithAssignee project.id task.id with
    - | taskRow
  · exact absurd hrow hfound
  dsimp only
  refine Drops.fresh (drops_invalidateAssignmentAccessCaches.onlyIf.trans
    (drops_calendars.trans drops_invalidateCalendarOf.onlyIf).onlyIf) hs (fun viewer hviewer ↦ ?_)
    fun viewer hviewer ↦ ?_
  · refine sameCalendars_of_modifyTask hmem hid hproject hlink.symm (hlink.symm.trans hlink'.symm) fun hdue ↦ ?_
    have hdated : (payload.dueDate.isSome || task.dueDate.isSome || previous.dueDate.isSome) = true := by
      rcases hdue with hdue | hdue
      · rw [hdue, Bool.or_true]
      · rw [hdue, Bool.or_true, Bool.true_or]
    have hnot : ¬((viewer = userId ∨ assignee.map (·.id) = some viewer) ∨ _) :=
      fun h ↦ hviewer (.inr ⟨hdated, h⟩)
    obtain ⟨hboth, hformer⟩ := not_or.1 hnot
    obtain ⟨howned, hassignee⟩ := not_or.1 hboth
    have hprevious : previous.assigneeId ≠ some viewer := fun h ↦ hformer ⟨by
      rw [h]
      exact Bool.and_eq_true_iff.2 ⟨decide_eq_true howned, decide_eq_true fun heq ↦ hassignee heq.symm⟩, h⟩
    refine ⟨fun h ↦ howned (h.symm.trans howner), hprevious, ?_⟩
    rcases assigneeAfter_eq_ok hafter with ⟨-, heq⟩ | heq
    · exact heq ▸ hassignee
    · exact heq ▸ hprevious
  · refine sameProjects_of_modifyTask hmem hid hlink' ?_
    by_cases hchange : previous.assigneeId = task.assigneeId
    · rw [hchange]
    rcases assigneeAfter_eq_ok hafter with ⟨hset, -⟩ | heq
    · have hnot : ¬(previous.assigneeId = some viewer ∨ task.assigneeId = some viewer) :=
        fun h ↦ hviewer (.inl ⟨Bool.and_eq_true_iff.2 ⟨hset, decide_eq_true hchange⟩, h⟩)
      obtain ⟨hformer, hnew⟩ := not_or.1 hnot
      exact iff_of_false hnew hformer
    · exact absurd heq.symm hchange

end Update

theorem fresh_deleteTask (hs : s.Fresh) : (s.deleteTask userId projectId taskId).2.Fresh := by
  unfold deleteTask
  rcases howned : s.db.getByIdForOwner projectId userId with - | project
  · exact hs
  obtain ⟨hproject, -, howner⟩ := PlannerDb.getByIdForOwner_eq_some howned
  dsimp only
  rcases hfound : s.db.getTaskById project.id taskId with - | task
  · exact hs
  obtain ⟨hmem, -, hlink⟩ := PlannerDb.getTaskById_eq_some hfound
  dsimp only
  refine Drops.fresh (drops_invalidateAssignmentAccessCaches.trans drops_calendars.onlyIf) hs
    (fun viewer hviewer ↦ ?_) fun viewer hviewer ↦ ?_
  · refine sameCalendars_of_rows rfl fun startDate endDate ↦ ?_
    have hsame : (s.db.deleteTask task.id).dueRow viewer startDate endDate =
        s.db.dueRow viewer startDate endDate := PlannerDb.dueRow_congr rfl rfl
    rw [hsame]
    refine Table.filterMap_delete fun row hrow hsel ↦ ?_
    obtain rfl := Table.eq_of_mem_of_sel single_hasTaskId hmem hrow (decide_eq_true rfl) hsel
    refine PlannerDb.dueRow_eq_none hproject hlink.symm fun hdue ↦ ?_
    have hboth := not_or.1 fun h ↦ hviewer (.inr ⟨hdue, h⟩)
    exact ⟨fun h ↦ hboth.1 (h.symm.trans howner), hboth.2⟩
  · refine sameProjects_of_assignments rfl rfl fun projectId ↦ Table.exists_delete_iff fun row hrow hsel ↦ ?_
    obtain rfl := Table.eq_of_mem_of_sel single_hasTaskId hmem hrow (decide_eq_true rfl) hsel
    exact fun h ↦ hviewer (.inl (.inl h.2))

end PlannerState

end GenericApp
