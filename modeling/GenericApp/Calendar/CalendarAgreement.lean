import GenericApp.Calendar.CachedViews
import GenericApp.Foundation.Machine

/-!
# Whether cached lists and calendars follow the data

Calls one after the other, by any users. Every call keeps what is cached right, but for one: `reorder_tasks` moves
tasks to other columns, which calendars show, and drops nothing (`reorder_leaves_calendar`). As long as no cached
calendar shows what is rearranged, all answers are those of the database (`views_follow`).
-/

namespace GenericApp

open Py

namespace PlannerState

variable {s : PlannerState} {db : PlannerDb} {userId viewer projectId : Uuid} {task : ProjectTask}
  {startDate endDate : Day}

/-! ### Columns that are rearranged -/

section Reorder

variable {columns : List ProjectTaskReorderColumn} {row other : ProjectTask × Project}

/-- The item of a task that is due. -/
def taskItem (row : ProjectTask × Project) : CalendarItemResponse where
  id := row.1.id
  source := .task
  type := .task
  title := row.1.title
  description := row.1.description
  date := row.1.dueDate.getD 0
  projectId := some row.2.id
  projectName := some row.2.name
  priority := some row.1.priority
  status := some row.1.status
  createdAt := row.1.createdAt

/-- The row with its task moved. -/
def movedRow (columns : List ProjectTaskReorderColumn) (row : ProjectTask × Project) : ProjectTask × Project :=
  (moved columns row.1, row.2)

/-- **A calendar does not show what is rearranged**: its tasks stay in their columns, and those that fall due on
one day and were made in one instant stay in their order. -/
def KeepsCalendar (db : PlannerDb) (columns : List ProjectTaskReorderColumn) (viewer : Uuid)
    (startDate endDate : Day) : Prop :=
  ∀ row ∈ db.listTasksDueForUser viewer startDate endDate,
    (moved columns row.1).status = row.1.status ∧
      ∀ other ∈ db.listTasksDueForUser viewer startDate endDate,
        row.1.dueDate = other.1.dueDate → row.1.createdAt = other.1.createdAt →
          (row.1.position ≤ other.1.position ↔
            (moved columns row.1).position ≤ (moved columns other.1).position)

theorem moved_eq (columns : List ProjectTaskReorderColumn) (task : ProjectTask) :
    ∃ status position, moved columns task = { task with status := status, position := position } := by
  unfold moved
  split
  · exact ⟨_, _, rfl⟩
  · exact ⟨task.status, task.position, rfl⟩

theorem ident_moved : taskSchema.ident (moved columns task) = taskSchema.ident task := by
  obtain ⟨status, position, heq⟩ := moved_eq columns task
  rw [heq]
  rfl

theorem dueRow_moved :
    db.dueRow viewer startDate endDate (moved columns task) =
      (db.dueRow viewer startDate endDate task).map (movedRow columns) := by
  obtain ⟨status, position, heq⟩ := moved_eq columns task
  unfold PlannerDb.dueRow
  rw [heq]
  rcases db.projects.find (· = task.projectId) with - | project
  · rfl
  -- The columns of the condition are left alone.
  by_cases hshown : ((task.dueDate.any fun dueDate ↦ startDate ≤ dueDate && dueDate ≤ endDate) &&
      db.accessFilter viewer project (some task)) = true
  · have hrow : (some (task, project)).map (movedRow columns) = some (_, project) :=
      congrArg (fun task ↦ some (task, project)) heq
    rw [Option.bind_some, Option.bind_some, if_pos hshown, hrow]
    exact if_pos hshown
  · rw [Option.bind_some, Option.bind_some, if_neg hshown, Option.map_none]
    exact if_neg hshown

theorem rows_reorder :
    (db.modifyTasks (fun _ ↦ true) (moved columns)).tasks.rows = db.tasks.rows.map (moved columns) :=
  List.map_congr_left fun _ _ ↦ Table.modifyRow_of_pos rfl ident_moved

theorem filterMap_reorder :
    (db.modifyTasks (fun _ ↦ true) (moved columns)).tasks.rows.filterMap
        ((db.modifyTasks (fun _ ↦ true) (moved columns)).dueRow viewer startDate endDate) =
      (db.tasks.rows.filterMap (db.dueRow viewer startDate endDate)).map (movedRow columns) := by
  have hsame : (db.modifyTasks (fun _ ↦ true) (moved columns)).dueRow viewer startDate endDate =
      db.dueRow viewer startDate endDate := PlannerDb.dueRow_congr rfl rfl
  rw [rows_reorder, hsame, List.filterMap_map, List.map_filterMap]
  exact List.filterMap_congr fun _ _ ↦ dueRow_moved

theorem dueDate_of_mem (h : row ∈ db.tasks.rows.filterMap (db.dueRow viewer startDate endDate)) :
    row.1.dueDate.isSome = true := by
  obtain ⟨task, -, hrow⟩ := List.mem_filterMap.1 h
  obtain ⟨heq, hdue⟩ := PlannerDb.mem_dueRow hrow
  rw [heq]
  exact hdue

theorem mapM_taskToResponse {rows : List (ProjectTask × Project)}
    (h : ∀ row ∈ rows, row.1.dueDate.isSome = true) :
    (rows.mapM fun row ↦ taskToResponse row.1 row.2) = .ok (rows.map taskItem) := by
  induction rows with
  | nil => rfl
  | cons row rows ih =>
    obtain ⟨dueDate, hdue⟩ := Option.isSome_iff_exists.1 (h row List.mem_cons_self)
    have hrow : taskToResponse row.1 row.2 = .ok (taskItem row) := by
      unfold taskToResponse taskItem
      rw [hdue]
      rfl
    rw [List.mapM_cons, hrow, ih fun other hother ↦ h other (List.mem_cons_of_mem row hother)]
    rfl

/-- **A calendar**, as one sorting of its entries and tasks. -/
theorem calendarItems_eq :
    calendarItems db viewer startDate endDate = .ok (sortedBy itemKey
      ((db.listEntriesByUserAndRange viewer startDate endDate).map entryToResponse ++
        (db.listTasksDueForUser viewer startDate endDate).map taskItem)) := by
  unfold calendarItems mergeItems
  have hdue : ∀ row ∈ db.listTasksDueForUser viewer startDate endDate, row.1.dueDate.isSome = true :=
    fun row hrow ↦ dueDate_of_mem (mem_sortedBy.1 hrow)
  rw [mapM_taskToResponse hdue]

theorem dueKey_le_iff (hdue : row.1.dueDate = other.1.dueDate) (hmade : row.1.createdAt = other.1.createdAt) :
    PlannerDb.dueKey row ≤ PlannerDb.dueKey other ↔ row.1.position ≤ other.1.position := by
  unfold PlannerDb.dueKey
  rw [hdue, hmade, Prod.Lex.toLex_le_toLex, Prod.Lex.toLex_le_toLex]
  simp [le_iff_lt_or_eq]

theorem itemKey_taskItem (hrow : row.1.dueDate.isSome = true) (hother : other.1.dueDate.isSome = true)
    (h : itemKey (taskItem row) = itemKey (taskItem other)) :
    row.1.dueDate = other.1.dueDate ∧ row.1.createdAt = other.1.createdAt := by
  obtain ⟨dueDate, hrow⟩ := Option.isSome_iff_exists.1 hrow
  obtain ⟨dueDate', hother⟩ := Option.isSome_iff_exists.1 hother
  obtain ⟨hdate, hrest⟩ := Prod.mk.inj (toLex.injective h)
  have hmade := (Prod.mk.inj (toLex.injective hrest)).2
  refine ⟨?_, hmade⟩
  have hdate : row.1.dueDate.getD 0 = other.1.dueDate.getD 0 := hdate
  rw [hrow, hother] at hdate ⊢
  exact congrArg some hdate

theorem calendarItems_reorder (h : KeepsCalendar db columns viewer startDate endDate) :
    calendarItems (db.modifyTasks (fun _ ↦ true) (moved columns)) viewer startDate endDate =
      calendarItems db viewer startDate endDate := by
  rw [calendarItems_eq, calendarItems_eq]
  unfold PlannerDb.listTasksDueForUser
  rw [filterMap_reorder]
  have hmem : ∀ row, row ∈ db.listTasksDueForUser viewer startDate endDate ↔
      row ∈ db.tasks.rows.filterMap (db.dueRow viewer startDate endDate) := fun _ ↦ mem_sortedBy
  refine congrArg Except.ok (sortedBy_sortedBy_map _ (fun row hrow ↦ ?_) fun row hrow other hother hkey ↦ ?_)
  · have hstatus := (h row ((hmem row).2 hrow)).1
    obtain ⟨status, position, heq⟩ := moved_eq columns row.1
    unfold movedRow taskItem
    rw [heq] at hstatus ⊢
    obtain rfl : status = row.1.status := hstatus
    rfl
  · have horder := (h row ((hmem row).2 hrow)).2 other ((hmem other).2 hother)
    obtain ⟨hdue, hmade⟩ := itemKey_taskItem (dueDate_of_mem hrow) (dueDate_of_mem hother) hkey
    have hkept : ∀ task, (moved columns task).dueDate = task.dueDate ∧
        (moved columns task).createdAt = task.createdAt := fun task ↦ by
      obtain ⟨status, position, heq⟩ := moved_eq columns task
      rw [heq]
      exact ⟨rfl, rfl⟩
    have hmoved : PlannerDb.dueKey (movedRow columns row) ≤ PlannerDb.dueKey (movedRow columns other) ↔
        (moved columns row.1).position ≤ (moved columns other.1).position := by
      refine dueKey_le_iff ?_ ?_
      · exact (hkept row.1).1.trans (hdue.trans (hkept other.1).1.symm)
      · exact (hkept row.1).2.trans (hmade.trans (hkept other.1).2.symm)
    rw [dueKey_le_iff hdue hmade, horder hdue hmade, hmoved]

/-- No calendar that is cached shows what a request rearranges. -/
def ReorderUnseen (s : PlannerState) (userId projectId : Uuid) (columns : List ProjectTaskReorderColumn) : Prop :=
  (s.db.getByIdForOwner projectId userId).isSome = true → checkReorder s.db projectId columns = .ok () →
    ∀ viewer startDate endDate, (s.calendars (viewer, startDate, endDate)).isSome = true →
      KeepsCalendar s.db columns viewer startDate endDate

theorem fresh_reorderTasks (hs : s.Fresh) (hunseen : s.ReorderUnseen userId projectId columns) :
    (s.reorderTasks userId projectId columns).2.Fresh := by
  unfold reorderTasks
  rcases howned : s.db.getByIdForOwner projectId userId with - | project
  · exact hs
  have hid := (PlannerDb.getByIdForOwner_eq_some howned).2.1
  dsimp only
  rcases hcheck : checkReorder s.db project.id columns with raised | ⟨⟩
  · exact hs
  have hkeeps := hunseen (Option.isSome_of_eq_some howned) (hid ▸ hcheck)
  dsimp only
  constructor
  · intro viewer startDate endDate items hkey
    rw [calendarItems_reorder (hkeeps viewer startDate endDate (Option.isSome_of_eq_some hkey))]
    exact hs.calendars _ _ _ _ hkey
  · intro viewer limit offset page hkey
    have hsame : SameProjects s.db (s.db.modifyTasks (fun _ ↦ true) (moved columns)) viewer := by
      refine sameProjects_of_assignments rfl rfl fun projectId ↦ Table.exists_modify_iff fun task _ _ ↦ ?_
      obtain ⟨status, position, heq⟩ := moved_eq columns task
      rw [heq]
    exact (hsame limit offset).trans (hs.projectLists _ _ _ _ hkey)

end Reorder

/-! ### Calendar items, and reading -/

theorem sameCalendars_of_insertEntry {entry : CalendarEntry} {entries : Table entrySchema}
    (h : db.entries.insert entry = some entries) (hviewer : viewer ≠ entry.userId) :
    SameCalendars db { db with entries := entries } viewer := by
  intro startDate endDate
  have hentries : { db with entries := entries }.listEntriesByUserAndRange viewer startDate endDate =
      db.listEntriesByUserAndRange viewer startDate endDate := by
    unfold PlannerDb.listEntriesByUserAndRange
    dsimp only
    rw [Table.rows_of_insert h, List.filter_append, List.filter_singleton]
    rw [decide_eq_false hviewer.symm, Bool.false_and, Bool.false_and, cond_false, List.append_nil]
  unfold calendarItems
  rw [hentries]
  rfl

/-- An entry is written, or nothing is. -/
theorem createEntryItem_cases (s : PlannerState) (userId : Uuid) (type : CalendarEntryType)
    (payload : CalendarItemCreate) (made : Made) :
    (∃ raised, s.createEntryItem userId type payload made = (.error raised, s)) ∨
      ∃ item entry entries, entry.userId = userId ∧ s.db.entries.insert entry = some entries ∧
        s.createEntryItem userId type payload made =
          (.ok item, { s with db := { s.db with entries := entries } }) := by
  unfold createEntryItem
  split
  · exact .inl ⟨_, rfl⟩
  · dsimp only
    split
    · exact .inl ⟨_, rfl⟩
    · next entries hinsert => exact .inr ⟨_, _, entries, rfl, hinsert, rfl⟩

theorem createTaskItem_cases (s : PlannerState) (userId : Uuid) (payload : CalendarItemCreate) (made : Made) :
    (s.createTaskItem userId payload made).2 = s ∨ ∃ projectId, (s.createTaskItem userId payload made).2 =
      (s.createTask userId projectId (taskOfItem userId payload) made).2 := by
  unfold createTaskItem
  split
  · exact .inl rfl
  · next projectId _ =>
    split
    · refine .inr ⟨projectId, ?_⟩
      split
      · next hcreate => exact (congrArg Prod.snd hcreate).symm
      · next hcreate =>
        split
        · exact (congrArg Prod.snd hcreate).symm
        · exact (congrArg Prod.snd hcreate).symm
    · exact .inl rfl

theorem fresh_createItem {payload : CalendarItemCreate} {made : Made} (hs : s.Fresh) :
    (s.createItem userId payload made).2.Fresh := by
  unfold createItem
  rcases payload.type with type | -
  · rcases createEntryItem_cases s userId type payload made with
      ⟨raised, heq⟩ | ⟨item, entry, entries, rfl, hinsert, heq⟩
    · simp only [heq]
      exact hs
    · simp only [heq]
      exact drops_invalidateCalendarCache.fresh hs
        (fun viewer hviewer ↦ sameCalendars_of_insertEntry hinsert hviewer) fun _ _ _ _ ↦ rfl
  · have htask : (s.createTaskItem userId payload made).2.Fresh := by
      rcases createTaskItem_cases s userId payload made with heq | ⟨projectId, heq⟩
      · rw [heq]
        exact hs
      · rw [heq]
        exact fresh_createTask hs
    dsimp only
    split
    · exact htask
    · refine (drops_invalidateCalendarCache (s := (s.createTaskItem userId payload made).2)).fresh htask
        (fun _ _ _ _ ↦ rfl) fun _ _ _ _ ↦ rfl

theorem fresh_listItems (hs : s.Fresh) : (s.listItems userId startDate endDate).2.Fresh := by
  unfold listItems
  rcases refuseRange startDate endDate with - | raised
  · dsimp only
    rcases hcached : s.calendars (userId, startDate, endDate) with - | cached
    · dsimp only
      rcases hitems : calendarItems s.db userId startDate endDate with raised | items
      · exact hs
      · refine ⟨fun viewer first last cached hkey ↦ ?_, hs.projectLists⟩
        by_cases heq : (viewer, first, last) = (userId, startDate, endDate)
        · obtain ⟨rfl, hrest⟩ := Prod.mk.inj heq
          obtain ⟨rfl, rfl⟩ := Prod.mk.inj hrest
          dsimp only at hkey
          rw [Function.update_self] at hkey
          exact hitems.trans (congrArg Except.ok (Option.some.inj hkey))
        · exact hs.calendars _ _ _ _ ((Function.update_of_ne heq ..).symm.trans hkey)
    · exact hs
  · exact hs

theorem fresh_listProjects {limit offset : ℕ} (hs : s.Fresh) : (s.listProjects userId limit offset).2.Fresh := by
  unfold listProjects
  rcases hcached : s.projectLists (userId, limit, offset) with - | cached
  · refine ⟨hs.calendars, fun viewer limit' offset' page hkey ↦ ?_⟩
    by_cases heq : (viewer, limit', offset') = (userId, limit, offset)
    · obtain ⟨rfl, hrest⟩ := Prod.mk.inj heq
      obtain ⟨rfl, rfl⟩ := Prod.mk.inj hrest
      dsimp only at hkey
      rw [Function.update_self] at hkey
      exact Option.some.inj hkey
    · exact hs.projectLists _ _ _ _ ((Function.update_of_ne heq ..).symm.trans hkey)
  · exact hs

end PlannerState

/-! ### Calls, one after the other -/

open PlannerState

/-- A call, and by whom. -/
inductive PlannerCall
  | createProject (ownerId : Uuid) (name : String) (description : Option String)
    (organizationId : Option Uuid) (made : Made)
  | createTask (userId projectId : Uuid) (payload : ProjectTaskCreate) (made : Made)
  | updateTask (userId projectId taskId : Uuid) (payload : ProjectTaskUpdate)
  | deleteTask (userId projectId taskId : Uuid)
  | reorderTasks (userId projectId : Uuid) (columns : List ProjectTaskReorderColumn)
  | createItem (userId : Uuid) (payload : CalendarItemCreate) (made : Made)
  | listItems (userId : Uuid) (startDate endDate : Day)
  | listProjects (userId : Uuid) (limit offset : ℕ)

namespace PlannerState

variable {s : PlannerState} {call : PlannerCall}

/-- The state after a call. -/
def after (s : PlannerState) : PlannerCall → PlannerState
  | .createProject ownerId name description organizationId made =>
    (s.createProject ownerId name description organizationId made).2
  | .createTask userId projectId payload made => (s.createTask userId projectId payload made).2
  | .updateTask userId projectId taskId payload => (s.updateTask userId projectId taskId payload).2
  | .deleteTask userId projectId taskId => (s.deleteTask userId projectId taskId).2
  | .reorderTasks userId projectId columns => (s.reorderTasks userId projectId columns).2
  | .createItem userId payload made => (s.createItem userId payload made).2
  | .listItems userId startDate endDate => (s.listItems userId startDate endDate).2
  | .listProjects userId limit offset => (s.listProjects userId limit offset).2

/-- Nobody becomes a member. -/
def MembershipsStay (s : PlannerState) (call : PlannerCall) : Prop :=
  (s.after call).db.memberships = s.db.memberships

instance : Decidable (s.MembershipsStay call) :=
  inferInstanceAs (Decidable ((s.after call).db.memberships = s.db.memberships))

/-- Nobody becomes a member, and no cached calendar shows what is rearranged. -/
def Considerate (s : PlannerState) (call : PlannerCall) : Prop :=
  s.MembershipsStay call ∧ ∀ userId projectId columns, call = .reorderTasks userId projectId columns →
    s.ReorderUnseen userId projectId columns

/-- The state with an empty cache. -/
def uncached (s : PlannerState) : PlannerState := ⟨s.db, fun _ ↦ none, fun _ ↦ none⟩

/-- **A call keeps what is cached right.** -/
theorem fresh_after (hs : s.Fresh) (hcall : s.Considerate call) : (s.after call).Fresh := by
  cases call with
  | createProject ownerId name description organizationId made => exact fresh_createProject hs hcall.1
  | createTask userId projectId payload made => exact fresh_createTask hs
  | updateTask userId projectId taskId payload => exact fresh_updateTask hs
  | deleteTask userId projectId taskId => exact fresh_deleteTask hs
  | reorderTasks userId projectId columns => exact fresh_reorderTasks hs (hcall.2 _ _ _ rfl)
  | createItem userId payload made => exact fresh_createItem hs
  | listItems userId startDate endDate => exact fresh_listItems hs
  | listProjects userId limit offset => exact fresh_listProjects hs

/-- A calendar from a cache that is right. -/
theorem listItems_of_fresh (hs : s.Fresh) (viewer : Uuid) (startDate endDate : Day) :
    (s.listItems viewer startDate endDate).1 = (s.uncached.listItems viewer startDate endDate).1 := by
  unfold listItems
  rcases refuseRange startDate endDate with - | raised
  · dsimp only [uncached]
    rcases hcached : s.calendars (viewer, startDate, endDate) with - | cached
    · dsimp only
      split <;> rfl
    · dsimp only
      rw [hs.calendars _ _ _ _ hcached]
  · rfl

theorem listProjects_of_fresh (hs : s.Fresh) (viewer : Uuid) (limit offset : ℕ) :
    (s.listProjects viewer limit offset).1 = (s.uncached.listProjects viewer limit offset).1 := by
  unfold listProjects
  dsimp only [uncached]
  rcases hcached : s.projectLists (viewer, limit, offset) with - | cached
  · rfl
  · exact (hs.projectLists _ _ _ _ hcached).symm

end PlannerState

/-- Calls one after the other, with nothing in the cache at first. -/
def plannerMachine : Machine PlannerState PlannerCall where
  init s := (∀ key, s.projectLists key = none) ∧ ∀ key, s.calendars key = none
  step s call := some (s.after call)

/-- **All answers are those of the database**, as long as no cached calendar shows what is rearranged. -/
theorem views_follow {s : PlannerState} (h : plannerMachine.Reachable Considerate s) (viewer : Uuid) :
    (∀ startDate endDate, (s.listItems viewer startDate endDate).1 =
        (s.uncached.listItems viewer startDate endDate).1) ∧
      ∀ limit offset, (s.listProjects viewer limit offset).1 =
        (s.uncached.listProjects viewer limit offset).1 := by
  have hfresh : s.Fresh := by
    refine h.invariant (fun s hinit ↦ ?_) fun s call t hs hcall hstep ↦ ?_
    · exact ⟨fun _ _ _ _ hkey ↦ (nomatch (hinit.2 _).symm.trans hkey),
        fun _ _ _ _ hkey ↦ (nomatch (hinit.1 _).symm.trans hkey)⟩
    · obtain rfl := Option.some.inj hstep
      exact fresh_after hs hcall
  exact ⟨listItems_of_fresh hfresh viewer, listProjects_of_fresh hfresh viewer⟩

/-- One user, in an organization, and nothing yet. -/
def onePlanner : PlannerState where
  db :=
    { users := [⟨1, true⟩]
      memberships := [⟨1, 10, "owner"⟩]
      projects := Table.empty
      tasks := Table.empty
      entries := Table.empty
      linked := fun _ h ↦ nomatch h }
  projectLists _ := none
  calendars _ := none

/-- A project with a task that falls due, and a look at the calendar. -/
def plannedTask : PlannerState :=
  ((onePlanner.after (.createProject 1 "Launch" none none ⟨100, 0, 1⟩)).after
    (.createTask 1 100 { title := "Write it up", dueDate := some 20000 } ⟨200, 0, 2⟩)).after
    (.listItems 1 19990 20010)

theorem reachable_plannedTask : plannerMachine.Reachable Considerate plannedTask := by
  have hinit : plannerMachine.Reachable Considerate onePlanner :=
    Machine.Reachable.of_init ⟨fun _ ↦ rfl, fun _ ↦ rfl⟩
  refine ((hinit.tail ?_ rfl).tail ?_ rfl).tail ?_ rfl
  all_goals exact ⟨by decide +kernel, fun _ _ _ h ↦ PlannerCall.noConfusion h⟩

/-- The same with an update. -/
theorem views_follow_updated :
    let s := plannedTask.after (.updateTask 1 100 200 { status := some (some .done) })
    (∀ startDate endDate, (s.listItems 1 startDate endDate).1 = (s.uncached.listItems 1 startDate endDate).1) ∧
      ∀ limit offset, (s.listProjects 1 limit offset).1 = (s.uncached.listProjects 1 limit offset).1 :=
  views_follow (reachable_plannedTask.tail
    ⟨by decide +kernel, fun _ _ _ h ↦ PlannerCall.noConfusion h⟩ rfl) 1

/-- **`reorder_tasks` leaves the calendar as it was.** The task has moved, and the calendar says that it has not. -/
theorem reorder_leaves_calendar :
    let s := plannedTask.after (.reorderTasks 1 100 [⟨.done, [200]⟩])
    plannerMachine.Reachable MembershipsStay s ∧
      ((s.listItems 1 19990 20010).1.toOption.map fun items ↦ items.map (·.status)) =
        some [some .backlog] ∧
      ((s.uncached.listItems 1 19990 20010).1.toOption.map fun items ↦ items.map (·.status)) =
        some [some .done] := by
  refine ⟨(reachable_plannedTask.mono fun _ _ h ↦ h.1).tail ?_ rfl, ?_⟩
  all_goals decide +kernel

end GenericApp
