import GenericApp.Core.RateLimit
import GenericApp.Foundation.StableSort
import GenericApp.Policy.PolicyService
import Mathlib.Data.Prod.Lex
import Mathlib.Order.WithBot

/-!
# Projects, tasks and calendar entries

The rows, and what the repositories read of them: the projects that a user has access to, the tasks of a
project, and the entries and tasks that fall into a range of days. Access is by ownership, or by being assigned
a task in an organization of one's own.

A database orders rows by some columns and leaves open how it orders those that agree in them; here they keep
the order of the table.
-/

namespace GenericApp

open Py

/-! ### Rows -/

/-- A day, counted. -/
abbrev Day := ℤ

/-- A time of day, in microseconds. -/
abbrev TimeOfDay := ℤ

/-- `TaskStatus` -/
inductive TaskStatus
  | backlog | todo | inProgress | review | done
  deriving DecidableEq

/-- `TaskPriority` -/
inductive TaskPriority
  | low | medium | high | urgent
  deriving DecidableEq

/-- What is read of a `User` here. -/
structure PlannerUser where
  id : Uuid
  isActive : Bool
  deriving DecidableEq

/-- `Project` -/
structure Project where
  id : Uuid
  ownerId : Uuid
  organizationId : Uuid
  name : String
  description : Option String
  createdAt : DateTime
  deriving DecidableEq

/-- `ProjectTask` -/
structure ProjectTask where
  id : Uuid
  projectId : Uuid
  assigneeId : Option Uuid
  title : String
  description : Option String
  status : TaskStatus
  priority : TaskPriority
  dueDate : Option Day
  position : ℤ
  createdAt : DateTime
  deriving DecidableEq

/-- `CalendarEntryType` -/
inductive CalendarEntryType
  | event | appointment
  deriving DecidableEq

/-- `CalendarEntry` -/
structure CalendarEntry where
  id : Uuid
  userId : Uuid
  type : CalendarEntryType
  title : String
  description : Option String
  scheduledFor : Day
  startTime : Option TimeOfDay
  endTime : Option TimeOfDay
  createdAt : DateTime
  deriving DecidableEq

/-- The constraints of `projects`. -/
def projectSchema : Schema Project Uuid where
  ident project := project.id
  Compat a b := a ≠ b

/-- The constraints of `project_tasks`. The foreign key is in `PlannerDb`. -/
def taskSchema : Schema ProjectTask (Uuid × Uuid) where
  ident task := (task.id, task.projectId)
  Compat a b := a.1 ≠ b.1

/-- The constraints of `calendar_entries`. -/
def entrySchema : Schema CalendarEntry Uuid where
  ident entry := entry.id
  Compat a b := a ≠ b

instance : DecidableRel projectSchema.Compat := fun a b ↦ inferInstanceAs (Decidable (a ≠ b))

instance : DecidableRel taskSchema.Compat := fun a b ↦ inferInstanceAs (Decidable (a.1 ≠ b.1))

instance : DecidableRel entrySchema.Compat := fun a b ↦ inferInstanceAs (Decidable (a ≠ b))

/-- The task with this id. -/
def hasTaskId (id : Uuid) (ident : Uuid × Uuid) : Bool := ident.1 = id

theorem single_hasTaskId {id : Uuid} : taskSchema.Single (hasTaskId id) :=
  fun _ _ hab ha hb ↦ hab ((of_decide_eq_true ha).trans (of_decide_eq_true hb).symm)

/-- The database. A task is a task of a project. -/
structure PlannerDb where
  users : List PlannerUser
  /-- Oldest first. -/
  memberships : List OrganizationMembership
  projects : Table projectSchema
  tasks : Table taskSchema
  entries : Table entrySchema
  linked : ∀ task ∈ tasks.rows, ∃ project ∈ projects.rows, project.id = task.projectId

namespace PlannerDb

variable (db : PlannerDb)

/-! ### Writes -/

/-- Insert a project; `none` is the integrity error of an id that is taken. -/
def insertProject (project : Project) : Option PlannerDb :=
  match h : db.projects.insert project with
  | none => none
  | some projects => some { db with
      projects := projects
      linked := fun task htask ↦ by
        obtain ⟨owner, howner, heq⟩ := db.linked task htask
        exact ⟨owner, Table.rows_of_insert h ▸ List.mem_append_left _ howner, heq⟩ }

/-- Insert a task; `none` is the integrity error of an id that is taken, or of a project that is not there. -/
def insertTask (task : ProjectTask) : Option PlannerDb :=
  if hproject : ∃ project ∈ db.projects.rows, project.id = task.projectId then
    match h : db.tasks.insert task with
    | none => none
    | some tasks => some { db with
        tasks := tasks
        linked := fun row hrow ↦ by
          rcases List.mem_append.1 (Table.rows_of_insert h ▸ hrow) with hrow | hrow
          · exact db.linked row hrow
          · exact List.mem_singleton.1 hrow ▸ hproject }
  else none

/-- Rewrite the tasks that pass the selector. -/
def modifyTasks (p : Uuid × Uuid → Bool) (f : ProjectTask → ProjectTask) : PlannerDb :=
  { db with
    tasks := db.tasks.modify p f
    linked := fun task htask ↦ by
      obtain ⟨old, hold, rfl⟩ := Table.mem_modify_iff.1 htask
      obtain ⟨project, hproject, heq⟩ := db.linked old hold
      have hident := congrArg Prod.snd (Table.ident_modifyRow (S := taskSchema) p f (r := old))
      exact ⟨project, hproject, heq.trans hident.symm⟩ }

/-- Delete a task. -/
def deleteTask (id : Uuid) : PlannerDb :=
  { db with
    tasks := db.tasks.delete (hasTaskId id)
    linked := fun task htask ↦ db.linked task (Table.mem_delete_iff.1 htask).1 }

/-! ### Access -/

/-- Whether a user is a member of an organization. -/
def belongs (userId organizationId : Uuid) : Bool :=
  db.memberships.any fun membership ↦
    membership.userId = userId && membership.organizationId = organizationId

/-- `_project_access_filter`, of a project and one of its tasks, or none. -/
def accessFilter (userId : Uuid) (project : Project) (task : Option ProjectTask) : Bool :=
  project.ownerId = userId ||
    (task.any fun task ↦ task.assigneeId = some userId) && db.belongs userId project.organizationId

/-- The project outer joined with its tasks. -/
def joinedTasks (project : Project) : List (Option ProjectTask) :=
  match db.tasks.rows.filter fun task ↦ task.projectId = project.id with
  | [] => [none]
  | tasks => tasks.map some

/-- Whether a user has access to a project. -/
def accessible (userId : Uuid) (project : Project) : Bool :=
  (db.joinedTasks project).any fun task ↦ db.accessFilter userId project task

/-! ### Projects -/

/-- `list_accessible_by_user` -/
def listAccessibleByUser (userId : Uuid) (limit offset : ℕ) : List Project × ℕ :=
  let projects := db.projects.rows.filter fun project ↦ db.accessible userId project
  (((sortedBy (fun project : Project ↦ OrderDual.toDual project.createdAt) projects).drop offset).take limit,
    projects.length)

/-- `get_by_id_for_user` -/
def getByIdForUser (projectId userId : Uuid) : Option Project :=
  db.projects.rows.find? fun project ↦ project.id = projectId && db.accessible userId project

/-- `get_by_id_for_owner` -/
def getByIdForOwner (projectId ownerId : Uuid) : Option Project :=
  db.projects.rows.find? fun project ↦ project.id = projectId && project.ownerId = ownerId

/-! ### Users -/

/-- `get_active_user_by_id` -/
def getActiveUserById (userId : Uuid) : Option PlannerUser :=
  db.users.find? fun user ↦ user.id = userId && user.isActive

/-- `get_active_user_in_organization` -/
def getActiveUserInOrganization (userId organizationId : Uuid) : Option PlannerUser :=
  db.users.find? fun user ↦ user.id = userId && user.isActive && db.belongs user.id organizationId

/-- `get_default_organization_id` -/
def getDefaultOrganizationId (userId : Uuid) : Option Uuid :=
  (db.memberships.find? fun membership ↦ membership.userId = userId).map (·.organizationId)

/-! ### Tasks -/

/-- `get_task_by_id` -/
def getTaskById (projectId taskId : Uuid) : Option ProjectTask :=
  db.tasks.rows.find? fun task ↦ task.id = taskId && task.projectId = projectId

/-- The task with its assignee. -/
def withAssignee (task : ProjectTask) : ProjectTask × Option PlannerUser :=
  (task, task.assigneeId.bind fun assigneeId ↦ db.users.find? fun user ↦ user.id = assigneeId)

/-- `get_task_with_assignee` -/
def getTaskWithAssignee (projectId taskId : Uuid) : Option (ProjectTask × Option PlannerUser) :=
  (db.getTaskById projectId taskId).map db.withAssignee

/-- `TASK_POSITION_GAP` -/
def taskPositionGap : ℤ := 1000

/-- `get_next_task_position` -/
def getNextTaskPosition (projectId : Uuid) (status : TaskStatus) : ℤ :=
  let positions := (db.tasks.rows.filter fun task ↦ task.projectId = projectId && task.status = status).map
    ProjectTask.position
  positions.max?.getD 0 + taskPositionGap

/-- The order of the columns. -/
def statusOrder : TaskStatus → ℕ
  | .backlog => 0
  | .todo => 1
  | .inProgress => 2
  | .review => 3
  | .done => 4

/-- `list_tasks_with_assignees`, without the total. -/
def listTasksWithAssignees (projectId : Uuid) (limit : ℕ) : List (ProjectTask × Option PlannerUser) :=
  let tasks := db.tasks.rows.filter fun task ↦ task.projectId = projectId
  ((sortedBy (fun task : ProjectTask ↦ toLex (statusOrder task.status, toLex (task.position, task.createdAt)))
    tasks).take limit).map db.withAssignee

/-! ### Days -/

/-- A row of the join of tasks and projects that the user has access to and that falls into the range. -/
def dueRow (userId : Uuid) (startDate endDate : Day) (task : ProjectTask) : Option (ProjectTask × Project) :=
  (db.projects.find (· = task.projectId)).bind fun project ↦
    if (task.dueDate.any fun dueDate ↦ startDate ≤ dueDate && dueDate ≤ endDate) &&
        db.accessFilter userId project (some task) then
      some (task, project)
    else none

/-- The columns by which `list_tasks_due_for_user` orders. -/
def dueKey (row : ProjectTask × Project) : Day ×ₗ ℤ ×ₗ DateTime :=
  toLex (row.1.dueDate.getD 0, toLex (row.1.position, row.1.createdAt))

/-- `list_tasks_due_for_user` -/
def listTasksDueForUser (userId : Uuid) (startDate endDate : Day) : List (ProjectTask × Project) :=
  sortedBy dueKey (db.tasks.rows.filterMap (db.dueRow userId startDate endDate))

/-- `list_entries_by_user_and_range` -/
def listEntriesByUserAndRange (userId : Uuid) (startDate endDate : Day) : List CalendarEntry :=
  sortedBy (fun entry : CalendarEntry ↦ toLex (entry.scheduledFor,
      toLex (entry.startTime.elim (⊤ : WithTop TimeOfDay) (↑), entry.createdAt)))
    (db.entries.rows.filter fun entry ↦
      entry.userId = userId && startDate ≤ entry.scheduledFor && entry.scheduledFor ≤ endDate)

end PlannerDb

end GenericApp
