import GenericApp.Projects.PlannerRows

/-!
# The service of projects and tasks

`ProjectsService`, with the lists of projects and the ranges of calendars that are kept in the cache. A call
reads and writes the database, commits, and then drops what is cached for the users it has found to be
concerned. What raises leaves everything as it was.

A session flushes its changes before it reads: the next position in a column is looked up when the task has
already been moved there.
-/

namespace GenericApp

open Py

/-! ### What is cached -/

/-- `ProjectResponse` -/
structure ProjectResponse where
  id : Uuid
  organizationId : Uuid
  name : String
  description : Option String
  createdAt : DateTime
  deriving DecidableEq

/-- `CalendarItemSource` -/
inductive CalendarItemSource
  | planner | task
  deriving DecidableEq

/-- `CalendarItemType` -/
inductive CalendarItemType
  | entry (type : CalendarEntryType)
  | task
  deriving DecidableEq

/-- `CalendarItemResponse` -/
structure CalendarItemResponse where
  id : Uuid
  source : CalendarItemSource
  type : CalendarItemType
  title : String
  description : Option String
  date : Day
  startTime : Option TimeOfDay := none
  endTime : Option TimeOfDay := none
  projectId : Option Uuid := none
  projectName : Option String := none
  priority : Option TaskPriority := none
  status : Option TaskStatus := none
  createdAt : DateTime
  deriving DecidableEq

/-- The database and the cache: pages of projects by user, limit and offset, and calendars by user and range. -/
structure PlannerState where
  db : PlannerDb
  projectLists : Uuid × ℕ × ℕ → Option (List ProjectResponse × ℕ)
  calendars : Uuid × Day × Day → Option (List CalendarItemResponse)

/-- What a service returns or raises, and the state it leaves. -/
abbrev Served (α : Type) := Except Raised α × PlannerState

namespace PlannerState

variable (s : PlannerState)

/-- `invalidate_project_list_cache` -/
def invalidateProjectListCache (userId : Uuid) : PlannerState :=
  { s with projectLists := fun key ↦ if key.1 = userId then none else s.projectLists key }

/-- `invalidate_calendar_cache` -/
def invalidateCalendarCache (userId : Uuid) : PlannerState :=
  { s with calendars := fun key ↦ if key.1 = userId then none else s.calendars key }

/-- `if c: t` -/
def onlyIf (c : Bool) (t : PlannerState → PlannerState) : PlannerState := if c then t s else s

/-- `_invalidate_assignment_access_caches`, of which the corpus generation is left out. -/
def invalidateAssignmentAccessCaches (previousAssigneeId newAssigneeId : Option Uuid) : PlannerState :=
  (previousAssigneeId.toList ++ newAssigneeId.toList).foldl invalidateProjectListCache s

/-! ### Projects -/

/-- What a call makes up: an id, the id of an organization, and the time. -/
structure Made where
  id : Uuid
  organizationId : Uuid
  now : DateTime

/-- `_resolve_project_organization_id`, with the memberships it leaves. -/
def resolveProjectOrganizationId (ownerId : Uuid) (organizationId : Option Uuid) (made : Made) :
    Except Raised (Uuid × List OrganizationMembership) :=
  match organizationId with
  | some organizationId =>
    if s.db.belongs ownerId organizationId then .ok (organizationId, s.db.memberships)
    else .error (.http { statusCode := 403, detail := "Organization access denied" })
  | none =>
    match s.db.getDefaultOrganizationId ownerId with
    | some organizationId => .ok (organizationId, s.db.memberships)
    | none =>
      if s.db.users.any (·.id = ownerId) then
        .ok (made.organizationId, s.db.memberships ++ [⟨ownerId, made.organizationId, "owner"⟩])
      else .error (.http { statusCode := 404, detail := "User not found" })

/-- `create_project` -/
def createProject (ownerId : Uuid) (name : String) (description : Option String)
    (organizationId : Option Uuid) (made : Made) : Served Project :=
  match s.resolveProjectOrganizationId ownerId organizationId made with
  | .error raised => (.error raised, s)
  | .ok (organizationId, memberships) =>
    let project : Project := ⟨made.id, ownerId, organizationId, name, description, made.now⟩
    match { s.db with memberships := memberships }.insertProject project with
    | none => (.error .other, s)
    | some db => (.ok project, { s with db := db }.invalidateProjectListCache ownerId)

/-- The page of projects that `list_projects` reads. -/
def projectPage (db : PlannerDb) (userId : Uuid) (limit offset : ℕ) : List ProjectResponse × ℕ :=
  let (projects, total) := db.listAccessibleByUser userId limit offset
  (projects.map fun project ↦
    ⟨project.id, project.organizationId, project.name, project.description, project.createdAt⟩, total)

/-- `list_projects` -/
def listProjects (userId : Uuid) (limit offset : ℕ) : (List ProjectResponse × ℕ) × PlannerState :=
  match s.projectLists (userId, limit, offset) with
  | some cached => (cached, s)
  | none =>
    let page := projectPage s.db userId limit offset
    (page, { s with projectLists := Function.update s.projectLists (userId, limit, offset) (some page) })

/-! ### Tasks -/

/-- `ProjectTaskCreate`. A text that is empty is no id. -/
structure ProjectTaskCreate where
  title : String
  description : Option String := none
  status : TaskStatus := .backlog
  priority : TaskPriority := .medium
  dueDate : Option Day := none
  assigneeId : Option Uuid := none

/-- `ProjectTaskUpdate`, where a field that is not set is none. -/
structure ProjectTaskUpdate where
  title : Option (Option String) := none
  description : Option (Option String) := none
  status : Option (Option TaskStatus) := none
  priority : Option (Option TaskPriority) := none
  dueDate : Option (Option Day) := none
  assigneeId : Option (Option Uuid) := none

/-- `ProjectTaskReorderColumn` -/
structure ProjectTaskReorderColumn where
  status : TaskStatus
  taskIds : List Uuid

/-- The error of `_get_owned_project_or_404` and `_get_project_or_404`. -/
def projectNotFound : Raised := .http { statusCode := 404, detail := "Project not found" }

/-- The error of a task that is not in the project. -/
def taskNotFound : Raised := .http { statusCode := 404, detail := "Task not found" }

/-- `_get_assignee_or_404` -/
def getAssigneeOr404 (db : PlannerDb) (project : Project) (assigneeId : Option Uuid) :
    Except Raised (Option PlannerUser) :=
  match assigneeId with
  | none => .ok none
  | some assigneeId =>
    match db.getActiveUserInOrganization assigneeId project.organizationId with
    | none => .error (.http { statusCode := 404, detail := "Assignee not found" })
    | some assignee => .ok (some assignee)

/-- Whether there is a user, other than the owner. -/
def someoneElse (userId : Uuid) (other : Option Uuid) : Bool := other.any (· ≠ userId)

/-- Drop the calendars of a user, if there is one. -/
def invalidateCalendarOf (userId : Option Uuid) : PlannerState :=
  match userId with
  | none => s
  | some userId => s.invalidateCalendarCache userId

/-- `create_task` -/
def createTask (userId projectId : Uuid) (payload : ProjectTaskCreate) (made : Made) :
    Served (ProjectTask × Option PlannerUser) :=
  match s.db.getByIdForOwner projectId userId with
  | none => (.error projectNotFound, s)
  | some project =>
    match getAssigneeOr404 s.db project payload.assigneeId with
    | .error raised => (.error raised, s)
    | .ok assignee =>
      let task : ProjectTask :=
        { id := made.id
          projectId := project.id
          assigneeId := assignee.map (·.id)
          title := payload.title
          description := payload.description
          status := payload.status
          priority := payload.priority
          dueDate := payload.dueDate
          position := s.db.getNextTaskPosition project.id payload.status
          createdAt := made.now }
      match s.db.insertTask task with
      | none => (.error .other, s)
      | some db =>
        let s := { s with db := db }
        match db.getTaskWithAssignee project.id task.id with
        | none => (.error (.http { statusCode := 500, detail := "Failed to load created task" }), s)
        | some taskRow =>
          let assigneeId := assignee.map (·.id)
          let s := s.invalidateAssignmentAccessCaches none assigneeId
          let s := s.onlyIf payload.dueDate.isSome fun s ↦
            (s.invalidateCalendarCache userId).onlyIf (someoneElse userId assigneeId) fun s ↦
              s.invalidateCalendarOf assigneeId
          (.ok taskRow, s)

/-- The task with the fields that are set, but for its column. -/
def withFields (task : ProjectTask) (payload : ProjectTaskUpdate) (assigneeId : Option Uuid) : ProjectTask :=
  { task with
    title := match payload.title with
      | some title => orStr title task.title
      | none => task.title
    description := payload.description.getD task.description
    priority := match payload.priority with
      | some (some priority) => priority
      | _ => task.priority
    dueDate := payload.dueDate.getD task.dueDate
    assigneeId := assigneeId }

/-- The task in the column that is set. -/
def inColumn (db : PlannerDb) (task : ProjectTask) (payload : ProjectTaskUpdate) : ProjectTask :=
  match payload.status with
  | some (some status) =>
    if status ≠ task.status then
      let task := { task with status := status }
      let flushed := db.modifyTasks (hasTaskId task.id) fun _ ↦ task
      { task with position := flushed.getNextTaskPosition task.projectId status }
    else task
  | _ => task

/-- The assignee of a task after an update, and the id that is written. -/
def assigneeAfter (db : PlannerDb) (project : Project) (task : ProjectTask) (payload : ProjectTaskUpdate) :
    Except Raised (Option PlannerUser × Option Uuid) :=
  match payload.assigneeId with
  | some assigneeId =>
    match getAssigneeOr404 db project assigneeId with
    | .error raised => .error raised
    | .ok assignee => .ok (assignee, assignee.map (·.id))
  | none => .ok (task.assigneeId.bind db.getActiveUserById, task.assigneeId)

/-- `update_task` -/
def updateTask (userId projectId taskId : Uuid) (payload : ProjectTaskUpdate) :
    Served (ProjectTask × Option PlannerUser) :=
  match s.db.getByIdForOwner projectId userId with
  | none => (.error projectNotFound, s)
  | some project =>
    match s.db.getTaskById project.id taskId with
    | none => (.error taskNotFound, s)
    | some previous =>
      match assigneeAfter s.db project previous payload with
      | .error raised => (.error raised, s)
      | .ok (assignee, newAssigneeId) =>
        let task := inColumn s.db (withFields previous payload newAssigneeId) payload
        let s := { s with db := s.db.modifyTasks (hasTaskId taskId) fun _ ↦ task }
        match s.db.getTaskWithAssignee project.id task.id with
        | none => (.error (.http { statusCode := 500, detail := "Failed to load updated task" }), s)
        | some taskRow =>
          let assigneeId := assignee.map (·.id)
          let s := s.onlyIf (payload.assigneeId.isSome && previous.assigneeId ≠ task.assigneeId) fun s ↦
            s.invalidateAssignmentAccessCaches previous.assigneeId task.assigneeId
          let s := s.onlyIf (payload.dueDate.isSome || task.dueDate.isSome || previous.dueDate.isSome) fun s ↦
            let s := s.invalidateCalendarCache userId
            let s := s.onlyIf (someoneElse userId assigneeId) fun s ↦ s.invalidateCalendarOf assigneeId
            s.onlyIf (someoneElse userId previous.assigneeId && previous.assigneeId ≠ assigneeId) fun s ↦
              s.invalidateCalendarOf previous.assigneeId
          (.ok taskRow, s)

/-- `delete_task` -/
def deleteTask (userId projectId taskId : Uuid) : Served Unit :=
  match s.db.getByIdForOwner projectId userId with
  | none => (.error projectNotFound, s)
  | some project =>
    match s.db.getTaskById project.id taskId with
    | none => (.error taskNotFound, s)
    | some task =>
      let s := { s with db := s.db.deleteTask task.id }
      let s := s.invalidateAssignmentAccessCaches task.assigneeId none
      let s := s.onlyIf task.dueDate.isSome fun s ↦
        (s.invalidateCalendarCache userId).onlyIf (someoneElse userId task.assigneeId) fun s ↦
          s.invalidateCalendarOf task.assigneeId
      (.ok (), s)

/-- The places that the columns give: an id, the column and the position. -/
def places (columns : List ProjectTaskReorderColumn) : List (Uuid × TaskStatus × ℤ) :=
  columns.flatMap fun column ↦ column.taskIds.zipIdx.map fun (taskId, position) ↦
    (taskId, column.status, ((position : ℤ) + 1) * PlannerDb.taskPositionGap)

/-- The task in the last of its places. -/
def moved (columns : List ProjectTaskReorderColumn) (task : ProjectTask) : ProjectTask :=
  match (places columns).reverse.find? fun place ↦ place.1 = task.id with
  | some (_, status, position) => { task with status := status, position := position }
  | none => task

/-- `MAX_PAGE_LIMIT` -/
def maxTaskLimit : ℕ := 200

/-- What `reorder_tasks` says to a list of columns: nothing, if every task is in them once. -/
def checkReorder (db : PlannerDb) (projectId : Uuid) (columns : List ProjectTaskReorderColumn) :
    Except Raised Unit :=
  let known := (db.listTasksWithAssignees projectId maxTaskLimit).map (·.1.id)
  let seen := (places columns).map (·.1)
  if seen.any fun taskId ↦ !known.contains taskId then
    .error (.http { statusCode := 404, detail := "Task not found in reorder payload" })
  else if seen.length ≠ known.length || known.any fun taskId ↦ !seen.contains taskId then
    .error (.http { statusCode := 400, detail := "Reorder payload must include every task exactly once" })
  else .ok ()

/-- `reorder_tasks` -/
def reorderTasks (userId projectId : Uuid) (columns : List ProjectTaskReorderColumn) :
    Served (List (ProjectTask × Option PlannerUser)) :=
  match s.db.getByIdForOwner projectId userId with
  | none => (.error projectNotFound, s)
  | some project =>
    match checkReorder s.db project.id columns with
    | .error raised => (.error raised, s)
    | .ok () =>
      let db := s.db.modifyTasks (fun _ ↦ true) (moved columns)
      (.ok (db.listTasksWithAssignees project.id maxTaskLimit), { s with db := db })

end PlannerState

end GenericApp
