import GenericApp.Projects.ProjectsService

/-!
# The service of calendars

`CalendarService`. A calendar has the entries of a user and the tasks that fall due, of the projects that the user
has access to.

Days, times and instants are compared by their ISO texts in the source, which is in the order of time.
-/

namespace GenericApp

open Py

namespace PlannerState

/-! ### Reading -/

/-- `MAX_RANGE_DAYS` -/
def maxRangeDays : ℤ := 400

/-- `_entry_to_response` -/
def entryToResponse (entry : CalendarEntry) : CalendarItemResponse where
  id := entry.id
  source := .planner
  type := .entry entry.type
  title := entry.title
  description := entry.description
  date := entry.scheduledFor
  startTime := entry.startTime
  endTime := entry.endTime
  createdAt := entry.createdAt

/-- `_task_to_response` -/
def taskToResponse (task : ProjectTask) (project : Project) : Except Raised CalendarItemResponse :=
  match task.dueDate with
  | none => .error (.http { statusCode := 500, detail := "Task is missing a due date" })
  | some dueDate => .ok
    { id := task.id
      source := .task
      type := .task
      title := task.title
      description := task.description
      date := dueDate
      projectId := some project.id
      projectName := some project.name
      priority := some task.priority
      status := some task.status
      createdAt := task.createdAt }

/-- The order of a calendar: by day, by time if there is one, and by when it was made. -/
def itemKey (item : CalendarItemResponse) : Day ×ₗ WithTop TimeOfDay ×ₗ DateTime :=
  toLex (item.date, toLex (item.startTime.elim (⊤ : WithTop TimeOfDay) (↑), item.createdAt))

/-- What `list_items` makes of the entries and tasks it has read. -/
def mergeItems (entries : List CalendarEntry) (tasks : List (ProjectTask × Project)) :
    Except Raised (List CalendarItemResponse) :=
  match tasks.mapM fun row ↦ taskToResponse row.1 row.2 with
  | .error raised => .error raised
  | .ok items => .ok (sortedBy itemKey (entries.map entryToResponse ++ items))

/-- The items that `list_items` computes. -/
def calendarItems (db : PlannerDb) (userId : Uuid) (startDate endDate : Day) :
    Except Raised (List CalendarItemResponse) :=
  mergeItems (db.listEntriesByUserAndRange userId startDate endDate)
    (db.listTasksDueForUser userId startDate endDate)

/-- The error of a range that `list_items` does not take. -/
def refuseRange (startDate endDate : Day) : Option Raised :=
  if endDate < startDate then
    some (.http { statusCode := 400, detail := "Start date must be before end date" })
  else if maxRangeDays < endDate - startDate then
    some (.http { statusCode := 400, detail := "Date range cannot exceed " ++ toString maxRangeDays ++ " days" })
  else none

variable (s : PlannerState)

/-- `list_items` -/
def listItems (userId : Uuid) (startDate endDate : Day) : Served (List CalendarItemResponse) :=
  match refuseRange startDate endDate with
  | some raised => (.error raised, s)
  | none =>
    match s.calendars (userId, startDate, endDate) with
    | some cached => (.ok cached, s)
    | none =>
      match calendarItems s.db userId startDate endDate with
      | .error raised => (.error raised, s)
      | .ok items =>
        (.ok items, { s with
          calendars := Function.update s.calendars (userId, startDate, endDate) (some items) })

/-! ### Creating -/

/-- `CalendarItemCreate`. A text that is empty is no id. -/
structure CalendarItemCreate where
  type : CalendarItemType
  title : String
  description : Option String := none
  date : Day
  startTime : Option TimeOfDay := none
  endTime : Option TimeOfDay := none
  projectId : Option Uuid := none
  priority : Option TaskPriority := some .medium
  assigneeId : Option Uuid := none

/-- What `_create_entry_item` has against a request. -/
def refuseEntry (payload : CalendarItemCreate) : Option Raised :=
  if payload.projectId.isSome then
    some (.http { statusCode := 400, detail := "Project can only be set for task items" })
  else if payload.assigneeId.isSome then
    some (.http { statusCode := 400, detail := "Assignee can only be set for task items" })
  else if payload.priority.any (· ≠ .medium) then
    some (.http { statusCode := 400, detail := "Priority can only be set for task items" })
  else
    match payload.startTime, payload.endTime with
    | none, some _ =>
      some (.http { statusCode := 400, detail := "Start time is required when end time is set" })
    | some startTime, some endTime =>
      if endTime ≤ startTime then
        some (.http { statusCode := 400, detail := "End time must be after start time" })
      else none
    | _, none => none

/-- `_create_entry_item` -/
def createEntryItem (userId : Uuid) (type : CalendarEntryType) (payload : CalendarItemCreate) (made : Made) :
    Served CalendarItemResponse :=
  match refuseEntry payload with
  | some raised => (.error raised, s)
  | none =>
    let entry : CalendarEntry :=
      { id := made.id
        userId := userId
        type := type
        title := strip payload.title
        description := (given payload.description).map strip
        scheduledFor := payload.date
        startTime := payload.startTime
        endTime := payload.endTime
        createdAt := made.now }
    match s.db.entries.insert entry with
    | none => (.error .other, s)
    | some entries => (.ok (entryToResponse entry), { s with db := { s.db with entries := entries } })

/-- A task that `ProjectTaskCreate` takes. -/
def validTask (payload : ProjectTaskCreate) : Bool :=
  2 ≤ payload.title.length && payload.title.length ≤ 255 && payload.description.all (·.length ≤ 5000)

/-- The task that `_create_task_item` asks for. -/
def taskOfItem (userId : Uuid) (payload : CalendarItemCreate) : ProjectTaskCreate where
  title := strip payload.title
  description := (given payload.description).map strip
  status := .todo
  priority := payload.priority.getD .medium
  dueDate := some payload.date
  assigneeId := payload.assigneeId.or (some userId)

/-- `_create_task_item` -/
def createTaskItem (userId : Uuid) (payload : CalendarItemCreate) (made : Made) :
    Served CalendarItemResponse :=
  match payload.projectId with
  | none => (.error (.http { statusCode := 400, detail := "Project is required when creating a task" }), s)
  | some projectId =>
    if validTask (taskOfItem userId payload) then
      match s.createTask userId projectId (taskOfItem userId payload) made with
      | (.error raised, s) => (.error raised, s)
      | (.ok (task, _), s) =>
        match s.db.getByIdForUser projectId userId with
        | none => (.error projectNotFound, s)
        | some project => (taskToResponse task project, s)
    else (.error .valueError, s)

/-- `create_item` -/
def createItem (userId : Uuid) (payload : CalendarItemCreate) (made : Made) : Served CalendarItemResponse :=
  let (response, s) := match payload.type with
    | .task => s.createTaskItem userId payload made
    | .entry type => s.createEntryItem userId type payload made
  match response with
  | .error raised => (.error raised, s)
  | .ok item => (.ok item, s.invalidateCalendarCache userId)

end PlannerState

end GenericApp
