import GenericApp.Calendar.CalendarAgreement

/-!
# The order of a board

A task has a position in its column. `create_task` and a change of status put a task behind all others of the column,
and `reorder_tasks` numbers each of its columns from the start. So no two tasks of a column have one position, over any
calls of the services, as long as a project fits the page that `reorder_tasks` reads and a request names a status once
(`boardOrdered_after`); and a task that is put into a column comes last, and nothing else moves (`positions_ordered`).

A board is known from the ids in each of its columns, as `list_tasks_with_assignees` orders them.
-/

namespace GenericApp

open Py Machine PlannerState

/-! ### Columns -/

/-- The columns by which `list_tasks_with_assignees` orders. -/
def taskKey (task : ProjectTask) : ℕ ×ₗ ℤ ×ₗ DateTime :=
  toLex (PlannerDb.statusOrder task.status, toLex (task.position, task.createdAt))

/-- Whether a task is in a column of a project. -/
def inBoardColumn (projectId : Uuid) (status : TaskStatus) (task : ProjectTask) : Bool :=
  task.projectId = projectId && task.status = status

/-- A column of a project, in the order in which it is listed. -/
def boardColumn (rows : List ProjectTask) (projectId : Uuid) (status : TaskStatus) : List ProjectTask :=
  sortedBy taskKey (rows.filter (inBoardColumn projectId status))

/-- The ids in a column. -/
def PlannerDb.board (db : PlannerDb) (projectId : Uuid) (status : TaskStatus) : List Uuid :=
  (boardColumn db.tasks.rows projectId status).map ProjectTask.id

/-- `list_tasks_with_assignees` with `limit=None`. -/
def PlannerDb.listAllTasksWithAssignees (db : PlannerDb) (projectId : Uuid) : List (ProjectTask × Option PlannerUser) :=
  db.listTasksWithAssignees projectId db.tasks.rows.length

variable {db db' : PlannerDb} {rows left right : List ProjectTask} {task previous : ProjectTask} {projectId : Uuid}
  {status : TaskStatus}

theorem inBoardColumn_iff : inBoardColumn projectId status task = true ↔
    task.projectId = projectId ∧ task.status = status := by
  rw [inBoardColumn, Bool.and_eq_true, decide_eq_true_iff, decide_eq_true_iff]

theorem listAllTasksWithAssignees_eq : db.listAllTasksWithAssignees projectId =
    (sortedBy taskKey (db.tasks.rows.filter fun task ↦ task.projectId = projectId)).map db.withAssignee := by
  have hlength : (sortedBy taskKey (db.tasks.rows.filter fun task ↦ task.projectId = projectId)).length ≤
      db.tasks.rows.length :=
    (List.length_insertionSort _ _).trans_le (List.length_filter_le _ _)
  exact congrArg (List.map db.withAssignee) (List.take_of_length_le hlength)

/-- **A column is what is listed of its status.** -/
theorem board_eq_listed (db : PlannerDb) (projectId : Uuid) (status : TaskStatus) :
    db.board projectId status = ((db.listAllTasksWithAssignees projectId).filter fun row ↦
      row.1.status = status).map fun row ↦ row.1.id := by
  rw [listAllTasksWithAssignees_eq, List.filter_map, List.map_map, PlannerDb.board, boardColumn]
  refine congrArg (List.map ProjectTask.id) ?_
  have hkept : (sortedBy taskKey (db.tasks.rows.filter fun task ↦ task.projectId = projectId)).filter
      (fun task ↦ task.status = status) = sortedBy taskKey (db.tasks.rows.filter (inBoardColumn projectId status)) := by
    rw [filter_sortedBy, List.filter_filter]
    refine congrArg (sortedBy taskKey) (List.filter_congr fun task _ ↦ ?_)
    exact Bool.and_comm _ _
  exact hkept.symm

theorem taskKey_lt (hstatus : previous.status = task.status) (h : previous.position < task.position) :
    taskKey previous < taskKey task := by
  rw [taskKey, taskKey, hstatus, Prod.Lex.toLex_lt_toLex]
  exact .inr ⟨rfl, Prod.Lex.toLex_lt_toLex.2 (.inl h)⟩

/-- A task that is behind all others of its column is the last. -/
theorem boardColumn_last (left right : List ProjectTask) (htask : inBoardColumn projectId status task = true)
    (h : ∀ other ∈ left ++ right, inBoardColumn projectId status other = true → other.position < task.position) :
    boardColumn (left ++ task :: right) projectId status = boardColumn (left ++ right) projectId status ++ [task] := by
  rw [boardColumn, boardColumn, List.filter_append, List.filter_append, List.filter_cons_of_pos htask]
  refine sortedBy_greatest fun other hother ↦ ?_
  rw [← List.filter_append] at hother
  obtain ⟨hmem, hother⟩ := List.mem_filter.1 hother
  have hstatus := (inBoardColumn_iff.1 hother).2.trans (inBoardColumn_iff.1 htask).2.symm
  exact taskKey_lt hstatus (h other hmem hother)

/-- A task that is not in a column is not seen there. -/
theorem boardColumn_other (left right : List ProjectTask)
    (htask : inBoardColumn projectId status task = false) :
    boardColumn (left ++ task :: right) projectId status = boardColumn (left ++ right) projectId status := by
  rw [boardColumn, boardColumn, List.filter_append, List.filter_append,
    List.filter_cons_of_neg (Bool.eq_false_iff.1 htask)]

/-! ### Positions -/

/-- **Positions order a board**: they are positive, and no two tasks of a column have one position. -/
structure BoardOrdered (rows : List ProjectTask) : Prop where
  positive : ∀ task ∈ rows, 0 < task.position
  distinct : ∀ task ∈ rows, ∀ other ∈ rows, task.projectId = other.projectId → task.status = other.status →
    task.position = other.position → task = other

/-- The last position of a column, and nought for a column that is empty. -/
theorem next_eq (db : PlannerDb) (projectId : Uuid) (status : TaskStatus) :
    db.getNextTaskPosition projectId status = ((db.tasks.rows.filter (inBoardColumn projectId status)).map
      ProjectTask.position).max?.getD 0 + 1000 :=
  rfl

/-- **The next position** is behind all others of the column. -/
theorem position_lt_next (h : task ∈ db.tasks.rows) (hcolumn : inBoardColumn projectId status task = true) :
    task.position < db.getNextTaskPosition projectId status := by
  have hmem : task.position ∈ (db.tasks.rows.filter (inBoardColumn projectId status)).map ProjectTask.position :=
    List.mem_map_of_mem (List.mem_filter.2 ⟨h, hcolumn⟩)
  obtain ⟨last, hlast⟩ := Option.isSome_iff_exists.1 (List.isSome_max?_of_mem hmem)
  have hle := (List.max?_eq_some_iff.1 hlast).2 _ hmem
  rw [next_eq, hlast, Option.getD_some]
  omega

theorem next_pos (h : ∀ task ∈ db.tasks.rows, 0 < task.position) : 0 < db.getNextTaskPosition projectId status := by
  rw [next_eq]
  rcases hmax : ((db.tasks.rows.filter (inBoardColumn projectId status)).map ProjectTask.position).max? with - | last
  · decide
  · obtain ⟨task, htask, rfl⟩ := List.mem_map.1 (List.max?_eq_some_iff.1 hmax).1
    have hpos := h task (List.mem_filter.1 htask).1
    rw [Option.getD_some]
    omega

/-- A task behind all others of its column keeps a board in order. -/
theorem boardOrdered_insert (left right : List ProjectTask) (h : BoardOrdered (left ++ right)) (hpos : 0 < task.position)
    (hlast : ∀ other ∈ left ++ right, inBoardColumn task.projectId task.status other = true →
      other.position < task.position) : BoardOrdered (left ++ task :: right) := by
  have hmem {other : ProjectTask} (hother : other ∈ left ++ task :: right) : other = task ∨ other ∈ left ++ right := by
    simpa [or_left_comm] using hother
  refine ⟨fun other hother ↦ ?_, fun first hfirst second hsecond hproject hstatus hposition ↦ ?_⟩
  · rcases hmem hother with rfl | hother
    · exact hpos
    · exact h.positive other hother
  · rcases hmem hfirst with heq | hbefore
    · subst heq
      rcases hmem hsecond with heq | hother
      · exact heq.symm
      · exact absurd hposition.symm (hlast second hother (inBoardColumn_iff.2 ⟨hproject.symm, hstatus.symm⟩)).ne
    · rcases hmem hsecond with heq | hother
      · subst heq
        exact absurd hposition (hlast first hbefore (inBoardColumn_iff.2 ⟨hproject, hstatus⟩)).ne
      · exact h.distinct first hbefore second hother hproject hstatus hposition

/-- A task that stays where it is keeps a board in order. -/
theorem boardOrdered_replace (h : BoardOrdered (left ++ previous :: right))
    (hothers : ∀ other ∈ left ++ right, other.id ≠ previous.id) (hproject : task.projectId = previous.projectId)
    (hstatus : task.status = previous.status) (hposition : task.position = previous.position) :
    BoardOrdered (left ++ task :: right) := by
  have hprevious : previous ∈ left ++ previous :: right := List.mem_append_right _ List.mem_cons_self
  have hold {other : ProjectTask} (hother : other ∈ left ++ right) : other ∈ left ++ previous :: right :=
    List.mem_append.2 ((List.mem_append.1 hother).imp_right (List.mem_cons_of_mem _))
  have hmem {other : ProjectTask} (hother : other ∈ left ++ task :: right) : other = task ∨ other ∈ left ++ right := by
    simpa [or_left_comm] using hother
  -- another task in this place would have been there before
  have halone (other : ProjectTask) (hother : other ∈ left ++ right) (hp : other.projectId = task.projectId)
      (hs : other.status = task.status) : other.position ≠ task.position := fun hpos ↦ hothers other hother
    (congrArg ProjectTask.id (h.distinct other (hold hother) previous hprevious (hp.trans hproject)
      (hs.trans hstatus) (hpos.trans hposition)))
  refine ⟨fun other hother ↦ ?_, fun first hfirst second hsecond hp hs hpos ↦ ?_⟩
  · rcases hmem hother with rfl | hother
    · exact hposition ▸ h.positive previous hprevious
    · exact h.positive other (hold hother)
  · rcases hmem hfirst with heq | hbefore
    · subst heq
      rcases hmem hsecond with heq | hother
      · exact heq.symm
      · exact absurd hpos.symm (halone second hother hp.symm hs.symm)
    · rcases hmem hsecond with heq | hother
      · subst heq
        exact absurd hpos (halone first hbefore hp hs)
      · exact h.distinct first (hold hbefore) second (hold hother) hp hs hpos

theorem BoardOrdered.subset (h : BoardOrdered rows) (hsub : ∀ task ∈ left, task ∈ rows) : BoardOrdered left :=
  ⟨fun task htask ↦ h.positive task (hsub task htask), fun task htask other hother ↦
    h.distinct task (hsub task htask) other (hsub other hother)⟩

/-! ### One task -/

theorem eq_of_task_id {other : ProjectTask} (htask : task ∈ db.tasks.rows) (hother : other ∈ db.tasks.rows)
    (h : other.id = task.id) : other = task :=
  Table.eq_of_mem_of_sel (@single_hasTaskId task.id) hother htask (decide_eq_true h) (decide_eq_true rfl)

theorem getTaskWithAssignee_eq {row : ProjectTask × Option PlannerUser} (htask : task ∈ db.tasks.rows)
    (h : db.getTaskWithAssignee projectId task.id = some row) : row.1 = task := by
  obtain ⟨found, hfound, rfl⟩ := Option.map_eq_some_iff.1 h
  obtain ⟨hmem, hid, -⟩ := PlannerDb.getTaskById_eq_some hfound
  exact eq_of_task_id htask hmem hid

/-- **A write to one task** exchanges its row. -/
theorem rows_modifyTask (hprevious : previous ∈ db.tasks.rows) (hid : task.id = previous.id)
    (hproject : task.projectId = previous.projectId) : ∃ left right, db.tasks.rows = left ++ previous :: right ∧
      (db.modifyTasks (hasTaskId previous.id) fun _ ↦ task).tasks.rows = left ++ task :: right ∧
      ∀ other ∈ left ++ right, other.id ≠ previous.id := by
  obtain ⟨left, right, hrows⟩ := List.append_of_mem hprevious
  have hothers : ∀ other ∈ left ++ right, other.id ≠ previous.id := by
    have hcompat := db.tasks.compat
    rw [hrows, List.pairwise_append, List.pairwise_cons] at hcompat
    obtain ⟨-, ⟨hafter, -⟩, hacross⟩ := hcompat
    intro other hother
    rcases List.mem_append.1 hother with hother | hother
    · exact hacross other hother previous List.mem_cons_self
    · exact (hafter other hother).symm
  refine ⟨left, right, hrows, ?_, hothers⟩
  have hrow : ∀ other ∈ left ++ right, Table.modifyRow taskSchema (hasTaskId previous.id) (fun _ ↦ task) other = other :=
    fun other hother ↦ Table.modifyRow_of_neg (decide_eq_false (hothers other hother))
  have hself : Table.modifyRow taskSchema (hasTaskId previous.id) (fun _ ↦ task) previous = task :=
    Table.modifyRow_of_pos (decide_eq_true rfl) (Prod.ext hid hproject)
  have hsame (part : List ProjectTask) (hpart : ∀ other ∈ part, other ∈ left ++ right) :
      part.map (Table.modifyRow taskSchema (hasTaskId previous.id) fun _ ↦ task) = part :=
    (List.map_congr_left fun other hother ↦ hrow other (hpart other hother)).trans (List.map_id part)
  calc (db.modifyTasks (hasTaskId previous.id) fun _ ↦ task).tasks.rows
      = db.tasks.rows.map (Table.modifyRow taskSchema (hasTaskId previous.id) fun _ ↦ task) := rfl
    _ = left ++ task :: right := by
      rw [hrows, List.map_append, List.map_cons, hself, hsame left fun _ h ↦ List.mem_append_left _ h,
        hsame right fun _ h ↦ List.mem_append_right _ h]

/-- A column without one of its tasks. -/
theorem boardColumn_filter (keep : ProjectTask → Bool) : (boardColumn rows projectId status).filter keep =
    boardColumn (rows.filter keep) projectId status := by
  rw [boardColumn, filter_sortedBy, List.filter_comm, boardColumn]

/-! ### The calls -/

section Calls

variable {s : PlannerState} {userId taskId : Uuid} {payload : ProjectTaskUpdate}

theorem rows_of_drops {t : PlannerState} {U P : Uuid → Prop} (h : Drops { s with db := db' } t U P) :
    t.db.tasks.rows = db'.tasks.rows := by
  rw [h.db]

/-- **`create_task`** raises, or puts a task at the next position. -/
theorem createTask_cases (s : PlannerState) (userId projectId : Uuid) (payload : ProjectTaskCreate) (made : Made) :
    (∃ raised, s.createTask userId projectId payload made = (.error raised, s)) ∨
      ∃ row, (s.createTask userId projectId payload made).1 = .ok row ∧
        inBoardColumn projectId payload.status row.1 = true ∧
        row.1.position = s.db.getNextTaskPosition projectId payload.status ∧
        (s.createTask userId projectId payload made).2.db.tasks.rows = s.db.tasks.rows ++ [row.1] := by
  unfold createTask
  rcases howned : s.db.getByIdForOwner projectId userId with - | project
  · exact .inl ⟨_, rfl⟩
  obtain ⟨-, rfl, -⟩ := PlannerDb.getByIdForOwner_eq_some howned
  dsimp only
  rcases getAssigneeOr404 s.db project payload.assigneeId with raised | assignee
  · exact .inl ⟨_, rfl⟩
  dsimp only
  generalize htask : ProjectTask.mk made.id project.id (assignee.map (·.id)) payload.title payload.description
    payload.status payload.priority payload.dueDate (s.db.getNextTaskPosition project.id payload.status)
    made.now = task
  have hid : made.id = task.id := htask ▸ rfl
  rcases hinsert : s.db.insertTask task with - | db'
  · exact .inl ⟨_, rfl⟩
  dsimp only
  have hrows := (insertTask_eq_some hinsert).1
  have hmem : task ∈ db'.tasks.rows := hrows ▸ List.mem_append_right _ (List.mem_singleton_self task)
  have hlink : task.projectId = project.id := htask ▸ rfl
  have hfound := getTaskWithAssignee_ne_none hmem
  rw [hlink, ← hid] at hfound
  rcases hrow : db'.getTaskWithAssignee project.id made.id with - | row
  · exact absurd hrow hfound
  dsimp only
  have heq : row.1 = task := getTaskWithAssignee_eq hmem (hid ▸ hrow)
  refine .inr ⟨row, rfl, ?_, ?_, ?_⟩
  · exact heq ▸ inBoardColumn_iff.2 ⟨hlink, htask ▸ rfl⟩
  · exact heq ▸ htask ▸ rfl
  · refine (rows_of_drops (drops_invalidateAssignmentAccessCaches.trans drops_calendars.onlyIf)).trans ?_
    rw [hrows, heq]

/-- **`update_task`** raises, or rewrites a task of the project. -/
theorem updateTask_cases (s : PlannerState) (userId projectId taskId : Uuid) (payload : ProjectTaskUpdate) :
    (∃ raised, s.updateTask userId projectId taskId payload = (.error raised, s)) ∨
      ∃ previous row assigneeId, s.db.getTaskById projectId taskId = some previous ∧
        (s.updateTask userId projectId taskId payload).1 = .ok row ∧
        row.1 = inColumn s.db (withFields previous payload assigneeId) payload ∧
        (s.updateTask userId projectId taskId payload).2.db.tasks.rows =
          (s.db.modifyTasks (hasTaskId previous.id) fun _ ↦ row.1).tasks.rows := by
  unfold updateTask
  rcases howned : s.db.getByIdForOwner projectId userId with - | project
  · exact .inl ⟨_, rfl⟩
  obtain ⟨-, rfl, -⟩ := PlannerDb.getByIdForOwner_eq_some howned
  dsimp only
  rcases hprevious : s.db.getTaskById project.id taskId with - | previous
  · exact .inl ⟨_, rfl⟩
  obtain ⟨hmem, rfl, hlink⟩ := PlannerDb.getTaskById_eq_some hprevious
  dsimp only
  rcases assigneeAfter s.db project previous payload with raised | ⟨assignee, assigneeId⟩
  · exact .inl ⟨_, rfl⟩
  dsimp only
  generalize htask : inColumn s.db (withFields previous payload assigneeId) payload = task
  have hid' : task.id = previous.id := htask ▸ id_inColumn
  have hlink' : task.projectId = previous.projectId := htask ▸ projectId_inColumn
  have hmem' : task ∈ (s.db.modifyTasks (hasTaskId previous.id) fun _ ↦ task).tasks.rows :=
    Table.mem_modify_iff.2 ⟨previous, hmem, Table.modifyRow_of_pos (decide_eq_true rfl) (Prod.ext hid' hlink')⟩
  have hfound := getTaskWithAssignee_ne_none hmem'
  rw [hlink', hlink] at hfound
  rcases hrow : (s.db.modifyTasks (hasTaskId previous.id) fun _ ↦ task).getTaskWithAssignee project.id task.id with
    - | row
  · exact absurd hrow hfound
  dsimp only
  obtain rfl : row.1 = task := getTaskWithAssignee_eq hmem' hrow
  exact .inr ⟨previous, row, assigneeId, rfl, rfl, htask.symm, rows_of_drops
    (drops_invalidateAssignmentAccessCaches.onlyIf.trans
      (drops_calendars.trans drops_invalidateCalendarOf.onlyIf).onlyIf)⟩

/-- **`delete_task`** raises, or removes a task of the project. -/
theorem deleteTask_cases (s : PlannerState) (userId projectId taskId : Uuid) :
    (∃ raised, s.deleteTask userId projectId taskId = (.error raised, s)) ∨
      (s.deleteTask userId projectId taskId).1 = .ok () ∧
        (s.deleteTask userId projectId taskId).2.db.tasks.rows = (s.db.deleteTask taskId).tasks.rows := by
  unfold deleteTask
  rcases howned : s.db.getByIdForOwner projectId userId with - | project
  · exact .inl ⟨_, rfl⟩
  dsimp only
  rcases hfound : s.db.getTaskById project.id taskId with - | task
  · exact .inl ⟨_, rfl⟩
  obtain ⟨-, rfl, -⟩ := PlannerDb.getTaskById_eq_some hfound
  dsimp only
  exact .inr ⟨rfl, rows_of_drops (drops_invalidateAssignmentAccessCaches.trans drops_calendars.onlyIf)⟩

/-- **`reorder_tasks`** raises, or moves the tasks of a request that passes the check. -/
theorem reorderTasks_cases (s : PlannerState) (userId projectId : Uuid) (columns : List ProjectTaskReorderColumn) :
    (∃ raised, s.reorderTasks userId projectId columns = (.error raised, s)) ∨
      checkReorder s.db projectId columns = .ok () ∧ (∃ rows, (s.reorderTasks userId projectId columns).1 = .ok rows) ∧
        (s.reorderTasks userId projectId columns).2.db.tasks.rows = s.db.tasks.rows.map (moved columns) := by
  unfold reorderTasks
  rcases howned : s.db.getByIdForOwner projectId userId with - | project
  · exact .inl ⟨_, rfl⟩
  obtain ⟨-, rfl, -⟩ := PlannerDb.getByIdForOwner_eq_some howned
  dsimp only
  rcases hcheck : checkReorder s.db project.id columns with raised | ⟨⟩
  · exact .inl ⟨_, rfl⟩
  · exact .inr ⟨rfl, ⟨_, rfl⟩, rows_reorder⟩

/-- **A task that changes its column** gets the next position there; one that does not keeps its position. -/
theorem inColumn_cases (db : PlannerDb) (task : ProjectTask) (payload : ProjectTaskUpdate) :
    (∃ status, payload.status = some (some status) ∧ status ≠ task.status ∧
        (inColumn db task payload).status = status ∧
        (inColumn db task payload).position = (db.modifyTasks (hasTaskId task.id) fun _ ↦
          { task with status := status }).getNextTaskPosition task.projectId status) ∨
      (∀ status, payload.status = some (some status) → status = task.status) ∧ inColumn db task payload = task := by
  unfold inColumn
  split
  · next status hstatus =>
    split
    · next hne => exact .inl ⟨status, hstatus, hne, rfl, rfl⟩
    · next heq =>
      refine .inr ⟨fun other hother ↦ ?_, rfl⟩
      rw [← Option.some.inj (Option.some.inj (hstatus.symm.trans hother))]
      exact not_not.1 heq
  · next hnone => exact .inr ⟨fun status hstatus ↦ absurd hstatus (hnone status), rfl⟩

/-- What an update of a task of an ordered board does to its column: the task is exchanged, and it is behind all others
if it has changed its column. -/
theorem updated_rows {previous row : ProjectTask} {assigneeId : Option Uuid}
    (hprevious : previous ∈ db.tasks.rows) (hrow : row = inColumn db (withFields previous payload assigneeId) payload) :
    ∃ left right, db.tasks.rows = left ++ previous :: right ∧
      (db.modifyTasks (hasTaskId previous.id) fun _ ↦ row).tasks.rows = left ++ row :: right ∧
      (∀ other ∈ left ++ right, other.id ≠ previous.id) ∧ row.id = previous.id ∧ row.projectId = previous.projectId ∧
      ((∃ status, payload.status = some (some status) ∧ status ≠ previous.status ∧ row.status = status ∧
          (∀ other ∈ left ++ right, inBoardColumn row.projectId row.status other = true →
            other.position < row.position) ∧
          ((∀ other ∈ db.tasks.rows, 0 < other.position) → 0 < row.position)) ∨
        (∀ status, payload.status = some (some status) → status = previous.status) ∧
          row.status = previous.status ∧ row.position = previous.position) := by
  have hid : row.id = previous.id := hrow ▸ id_inColumn
  have hproject : row.projectId = previous.projectId := hrow ▸ projectId_inColumn
  obtain ⟨left, right, hrows, hrows', hothers⟩ := rows_modifyTask hprevious hid hproject
  refine ⟨left, right, hrows, hrows', hothers, hid, hproject, ?_⟩
  rcases inColumn_cases db (withFields previous payload assigneeId) payload with
    ⟨status, hset, hne, hstatus, hposition⟩ | ⟨hset, heq⟩
  · rw [← hrow] at hstatus hposition
    refine .inl ⟨status, hset, hne, hstatus, ?_⟩
    -- the session has flushed the new column when it looks for the next position
    generalize hflushed : { withFields previous payload assigneeId with status := status } = flushed at hposition
    have hflushedId : flushed.id = previous.id := hflushed ▸ rfl
    have hflushedProject : flushed.projectId = previous.projectId := hflushed ▸ rfl
    obtain ⟨left', right', hsplit, hflushedRows, hothers'⟩ := rows_modifyTask hprevious hflushedId hflushedProject
    have hposition : row.position = (db.modifyTasks (hasTaskId previous.id) fun _ ↦ flushed).getNextTaskPosition
        row.projectId row.status := by
      rw [hproject, hstatus]
      exact hposition
    rw [hposition]
    refine ⟨fun other hother hcolumn ↦ position_lt_next (Table.mem_modify_iff.2 ⟨other, ?_, ?_⟩) hcolumn,
      fun hpos ↦ next_pos fun other hother ↦ ?_⟩
    · rw [hrows]
      exact List.mem_append.2 ((List.mem_append.1 hother).imp_right (List.mem_cons_of_mem _))
    · exact Table.modifyRow_of_neg (decide_eq_false (hothers other hother))
    · obtain ⟨old, hold, rfl⟩ := Table.mem_modify_iff.1 hother
      rcases Table.modifyRow_cases (S := taskSchema) (p := hasTaskId previous.id) (f := fun _ ↦ flushed) old with
        heq | ⟨-, heq⟩
      · rw [heq]
        exact hpos old hold
      · rw [heq, ← hflushed]
        exact hpos previous hprevious
  · rw [heq] at hrow
    exact .inr ⟨hset, hrow ▸ rfl, hrow ▸ rfl⟩

end Calls

/-! ### Places -/

section Places

variable {columns : List ProjectTaskReorderColumn}

theorem mem_places {place : Uuid × TaskStatus × ℤ} : place ∈ places columns ↔
    ∃ column ∈ columns, column.status = place.2.1 ∧ ∃ i : ℕ, column.taskIds[i]? = some place.1 ∧
      place.2.2 = ((i : ℤ) + 1) * 1000 := by
  obtain ⟨id, status, position⟩ := place
  simp only [places, List.mem_flatMap, List.mem_map, Prod.exists, List.mem_zipIdx_iff_getElem?, Prod.mk.injEq]
  constructor
  · rintro ⟨column, hcolumn, taskId, i, hget, rfl, rfl, rfl⟩
    exact ⟨column, hcolumn, rfl, i, hget, rfl⟩
  · rintro ⟨column, hcolumn, rfl, i, hget, rfl⟩
    exact ⟨column, hcolumn, id, i, hget, rfl, rfl, rfl⟩

/-- Where a request names a status once, two places are of one task. -/
theorem places_functional (hnodup : (columns.map ProjectTaskReorderColumn.status).Nodup) {id other : Uuid} {position : ℤ}
    (h : (id, status, position) ∈ places columns) (hother : (other, status, position) ∈ places columns) : id = other := by
  obtain ⟨column, hcolumn, hstatus, i, hget, hposition⟩ := mem_places.1 h
  obtain ⟨column', hcolumn', hstatus', j, hget', hposition'⟩ := mem_places.1 hother
  have heq : column = column' := List.inj_on_of_nodup_map hnodup hcolumn hcolumn' (hstatus.trans hstatus'.symm)
  have hij : i = j := by
    have h := hposition.symm.trans hposition'
    omega
  rw [← heq, ← hij] at hget'
  exact Option.some.inj (hget.symm.trans hget')

/-- A task is moved to a place of its own, or there is none and it stays. -/
theorem moved_cases (columns : List ProjectTaskReorderColumn) (task : ProjectTask) :
    (task.id, (moved columns task).status, (moved columns task).position) ∈ places columns ∨
      moved columns task = task ∧ ∀ place ∈ places columns, place.1 ≠ task.id := by
  unfold moved
  split
  · next id status position hfind =>
    have hfound := List.find?_some hfind
    have hid : id = task.id := of_decide_eq_true hfound
    rw [← hid]
    exact .inl (List.mem_reverse.1 (List.mem_of_find?_eq_some hfind))
  · next hnone =>
    refine .inr ⟨rfl, fun place hplace heq ↦ ?_⟩
    exact List.find?_eq_none.1 hnone place (List.mem_reverse.2 hplace) (decide_eq_true heq)

/-- The tasks that `reorder_tasks` knows. -/
def knownTasks (db : PlannerDb) (projectId : Uuid) : List Uuid :=
  (db.listTasksWithAssignees projectId maxTaskLimit).map fun row ↦ row.1.id

theorem checkReorder_eq_ok : checkReorder db projectId columns = .ok () ↔
    (∀ place ∈ places columns, place.1 ∈ knownTasks db projectId) ∧
      (places columns).length = (knownTasks db projectId).length ∧
      ∀ id ∈ knownTasks db projectId, ∃ place ∈ places columns, place.1 = id := by
  have hunknown : (((places columns).map fun place ↦ place.1).any fun taskId ↦
      !(knownTasks db projectId).contains taskId) = true ↔
        ¬∀ place ∈ places columns, place.1 ∈ knownTasks db projectId := by
    simp
  have hmissing : ((knownTasks db projectId).any fun taskId ↦
      !((places columns).map fun place ↦ place.1).contains taskId) = true ↔
        ¬∀ id ∈ knownTasks db projectId, ∃ place ∈ places columns, place.1 = id := by
    simp
  have hbody : checkReorder db projectId columns =
      if (((places columns).map fun place ↦ place.1).any fun taskId ↦ !(knownTasks db projectId).contains taskId) then
        .error (.http { statusCode := 404, detail := "Task not found in reorder payload" })
      else if ((places columns).map fun place ↦ place.1).length ≠ (knownTasks db projectId).length ||
          (knownTasks db projectId).any fun taskId ↦ !((places columns).map fun place ↦ place.1).contains taskId then
        .error (.http { statusCode := 400, detail := "Reorder payload must include every task exactly once" })
      else .ok () := rfl
  rw [hbody]
  by_cases hseen : ∀ place ∈ places columns, place.1 ∈ knownTasks db projectId
  · rw [if_neg fun h ↦ hunknown.1 h hseen]
    by_cases hlength : (places columns).length = (knownTasks db projectId).length
    · by_cases hknown : ∀ id ∈ knownTasks db projectId, ∃ place ∈ places columns, place.1 = id
      · refine iff_of_true (if_neg fun h ↦ ?_) ⟨hseen, hlength, hknown⟩
        rcases Bool.or_eq_true_iff.1 h with h | h
        · rw [List.length_map] at h
          exact of_decide_eq_true h hlength
        · exact hmissing.1 h hknown
      · rw [if_pos (Bool.or_eq_true_iff.2 (.inr (hmissing.2 hknown)))]
        exact iff_of_false (fun h ↦ nomatch h) fun h ↦ hknown h.2.2
    · rw [if_pos (Bool.or_eq_true_iff.2 (.inl (decide_eq_true (by rwa [List.length_map]))))]
      exact iff_of_false (fun h ↦ nomatch h) fun h ↦ hlength h.2.1
  · rw [if_pos (hunknown.2 hseen)]
    exact iff_of_false (fun h ↦ nomatch h) fun h ↦ hseen h.1

/-- What is known is of the project; and all of it is known where it fits the page. -/
theorem exists_of_mem_known {id : Uuid} (h : id ∈ knownTasks db projectId) :
    ∃ task ∈ db.tasks.rows, task.projectId = projectId ∧ task.id = id := by
  obtain ⟨row, hrow, rfl⟩ := List.mem_map.1 h
  obtain ⟨task, htask, rfl⟩ := List.mem_map.1 hrow
  obtain ⟨hmem, hproject⟩ := List.mem_filter.1 (mem_sortedBy.1 (List.mem_of_mem_take htask))
  exact ⟨task, hmem, of_decide_eq_true hproject, rfl⟩

theorem knownTasks_of_small (hsmall : (db.tasks.rows.filter fun task ↦ task.projectId = projectId).length ≤ maxTaskLimit) :
    knownTasks db projectId =
      (sortedBy taskKey (db.tasks.rows.filter fun task ↦ task.projectId = projectId)).map ProjectTask.id := by
  have hlength : (sortedBy taskKey (db.tasks.rows.filter fun task ↦ task.projectId = projectId)).length ≤ maxTaskLimit :=
    (List.length_insertionSort _ _).trans_le hsmall
  have htake := List.take_of_length_le hlength
  calc knownTasks db projectId
      = (((sortedBy taskKey (db.tasks.rows.filter fun task ↦ task.projectId = projectId)).take maxTaskLimit).map
          db.withAssignee).map fun row ↦ row.1.id := rfl
    _ = _ := by rw [htake, List.map_map]; rfl

/-- **`reorder_tasks` keeps a board in order** where it knows all tasks of the project and a status is named once. -/
theorem boardOrdered_moved (h : BoardOrdered db.tasks.rows) (hcheck : checkReorder db projectId columns = .ok ())
    (hsmall : (db.tasks.rows.filter fun task ↦ task.projectId = projectId).length ≤ maxTaskLimit)
    (hnodup : (columns.map ProjectTaskReorderColumn.status).Nodup) :
    BoardOrdered (db.tasks.rows.map (moved columns)) := by
  obtain ⟨hseen, -, hknown⟩ := checkReorder_eq_ok.1 hcheck
  -- the tasks of the project have a place, and no others have
  have hproject (task : ProjectTask) (htask : task ∈ db.tasks.rows) (heq : task.projectId = projectId) :
      (task.id, (moved columns task).status, (moved columns task).position) ∈ places columns := by
    refine (moved_cases columns task).resolve_right fun hnone ↦ ?_
    have hmem : task.id ∈ knownTasks db projectId := by
      rw [knownTasks_of_small hsmall]
      exact List.mem_map_of_mem (mem_sortedBy.2 (List.mem_filter.2 ⟨htask, decide_eq_true heq⟩))
    obtain ⟨place, hplace, hid⟩ := hknown task.id hmem
    exact hnone.2 place hplace hid
  have hother (task : ProjectTask) (htask : task ∈ db.tasks.rows) (hne : task.projectId ≠ projectId) :
      moved columns task = task := by
    refine ((moved_cases columns task).resolve_left fun hplace ↦ ?_).1
    obtain ⟨known, hmem, hof, hid⟩ := exists_of_mem_known (hseen _ hplace)
    exact hne (eq_of_task_id htask hmem hid ▸ hof)
  have hkeeps (task : ProjectTask) : (moved columns task).projectId = task.projectId := by
    obtain ⟨status, position, heq⟩ := moved_eq columns task
    rw [heq]
  refine ⟨fun task htask ↦ ?_, fun first hfirst second hsecond hp hs hpos ↦ ?_⟩
  · obtain ⟨old, hold, rfl⟩ := List.mem_map.1 htask
    rcases moved_cases columns old with hplace | ⟨heq, -⟩
    · obtain ⟨-, -, -, i, -, hposition⟩ := mem_places.1 hplace
      dsimp only at hposition
      omega
    · rw [heq]
      exact h.positive old hold
  · obtain ⟨old, hold, rfl⟩ := List.mem_map.1 hfirst
    obtain ⟨other, hotherOld, rfl⟩ := List.mem_map.1 hsecond
    rw [hkeeps, hkeeps] at hp
    by_cases heq : old.projectId = projectId
    · have hplace := hproject old hold heq
      have hplace' := hproject other hotherOld (hp.symm.trans heq)
      rw [← hs, ← hpos] at hplace'
      rw [eq_of_task_id hotherOld hold (places_functional hnodup hplace hplace')]
    · have hne : other.projectId ≠ projectId := fun hthen ↦ heq (hp.trans hthen)
      rw [hother old hold heq, hother other hotherOld hne] at hs hpos ⊢
      exact h.distinct old hold other hotherOld hp hs hpos

end Places

/-! ### Calls, one after the other -/

section Runs

variable {s : PlannerState} {call : PlannerCall} {userId taskId : Uuid} {made : Made}

/-- No project has more tasks than the page that `reorder_tasks` reads, and a request names a status once. -/
def SmallBoards (s : PlannerState) (call : PlannerCall) : Prop :=
  (∀ projectId, (s.db.tasks.rows.filter fun task ↦ task.projectId = projectId).length ≤ maxTaskLimit) ∧
    ∀ userId projectId columns, call = .reorderTasks userId projectId columns →
      (columns.map ProjectTaskReorderColumn.status).Nodup

theorem boardOrdered_createTask {payload : ProjectTaskCreate} (h : BoardOrdered s.db.tasks.rows) :
    BoardOrdered (s.createTask userId projectId payload made).2.db.tasks.rows := by
  rcases createTask_cases s userId projectId payload made with ⟨raised, heq⟩ | ⟨row, -, hcolumn, hposition, hrows⟩
  · rw [heq]
    exact h
  obtain ⟨rfl, hstatus⟩ := inBoardColumn_iff.1 hcolumn
  rw [hrows]
  refine boardOrdered_insert s.db.tasks.rows [] (by rwa [List.append_nil]) ?_ fun other hother hin ↦ ?_
  · exact hposition ▸ next_pos h.positive
  · rw [List.append_nil] at hother
    rw [hposition]
    exact position_lt_next hother (hstatus ▸ hin)

theorem boardOrdered_updateTask {payload : ProjectTaskUpdate} (h : BoardOrdered s.db.tasks.rows) :
    BoardOrdered (s.updateTask userId projectId taskId payload).2.db.tasks.rows := by
  rcases updateTask_cases s userId projectId taskId payload with
    ⟨raised, heq⟩ | ⟨previous, row, assigneeId, hprevious, -, hrow, hrows⟩
  · rw [heq]
    exact h
  obtain ⟨left, right, hold, hnew, hothers, hid, hproject, hmoved | ⟨-, hstatus, hposition⟩⟩ :=
    updated_rows (PlannerDb.getTaskById_eq_some hprevious).1 hrow
  · obtain ⟨status, -, -, hstatus, hlast, hpos⟩ := hmoved
    rw [hrows, hnew]
    refine boardOrdered_insert _ _ (h.subset fun other hother ↦ ?_) (hpos h.positive) fun other hother hin ↦
      hlast other hother (inBoardColumn_iff.2 (inBoardColumn_iff.1 hin))
    rw [hold]
    exact List.mem_append.2 ((List.mem_append.1 hother).imp_right (List.mem_cons_of_mem _))
  · rw [hrows, hnew]
    exact boardOrdered_replace (hold ▸ h) hothers hproject hstatus hposition

/-- **Every call keeps a board in order.** -/
theorem boardOrdered_after (h : BoardOrdered s.db.tasks.rows) (hcall : SmallBoards s call) :
    BoardOrdered (s.after call).db.tasks.rows := by
  cases call with
  | createProject ownerId name description organizationId made =>
    have hsame : (s.createProject ownerId name description organizationId made).2.db.tasks = s.db.tasks := by
      unfold createProject
      split
      · rfl
      · dsimp only
        split
        · rfl
        · next hinsert => exact (insertProject_eq_some hinsert).2.2.1
    exact (congrArg Table.rows hsame).symm ▸ h
  | createTask userId projectId payload made => exact boardOrdered_createTask h
  | updateTask userId projectId taskId payload => exact boardOrdered_updateTask h
  | deleteTask userId projectId taskId =>
    rcases deleteTask_cases s userId projectId taskId with ⟨raised, heq⟩ | ⟨-, hrows⟩
    · rw [after, heq]
      exact h
    · rw [after, hrows]
      exact h.subset fun task htask ↦ (Table.mem_delete_iff.1 htask).1
  | reorderTasks userId projectId columns =>
    rcases reorderTasks_cases s userId projectId columns with ⟨raised, heq⟩ | ⟨hcheck, -, hrows⟩
    · rw [after, heq]
      exact h
    · rw [after, hrows]
      exact boardOrdered_moved h hcheck (hcall.1 projectId) (hcall.2 userId projectId columns rfl)
  | createItem userId payload made =>
    have hitem : BoardOrdered (s.createTaskItem userId payload made).2.db.tasks.rows := by
      rcases createTaskItem_cases s userId payload made with heq | ⟨projectId, heq⟩
      · rw [heq]
        exact h
      · rw [heq]
        exact boardOrdered_createTask h
    have hentry (type : CalendarEntryType) : (s.createEntryItem userId type payload made).2.db.tasks = s.db.tasks := by
      rcases createEntryItem_cases s userId type payload made with ⟨raised, heq⟩ | ⟨item, entry, entries, -, -, heq⟩ <;>
        rw [heq]
    rw [after]
    unfold createItem
    rcases payload.type with type | -
    · dsimp only
      split
      · exact (congrArg Table.rows (hentry type)).symm ▸ h
      · exact (congrArg Table.rows (hentry type)).symm ▸ h
    · dsimp only
      split
      · exact hitem
      · exact hitem
  | listItems userId startDate endDate =>
    have hsame : (s.listItems userId startDate endDate).2.db = s.db := by
      unfold listItems
      repeat' split
      all_goals rfl
    rw [after, hsame]
    exact h
  | listProjects userId limit offset =>
    have hsame : (s.listProjects userId limit offset).2.db = s.db := by
      unfold listProjects
      split <;> rfl
    rw [after, hsame]
    exact h

/-- Calls one after the other, by any users, with no tasks at first. -/
def boardMachine : Machine PlannerState PlannerCall where
  init s := s.db.tasks.rows = []
  step s call := some (s.after call)

theorem boardOrdered_reachable (h : boardMachine.Reachable SmallBoards s) : BoardOrdered s.db.tasks.rows := by
  refine h.invariant (I := fun s ↦ BoardOrdered s.db.tasks.rows) (fun s hinit ↦ ?_) fun s call t hs hcall hstep ↦ ?_
  · have hnone : s.db.tasks.rows = [] := hinit
    rw [hnone]
    exact ⟨fun _ h ↦ absurd h List.not_mem_nil, fun _ h ↦ absurd h List.not_mem_nil⟩
  · obtain rfl := Option.some.inj hstep
    exact boardOrdered_after hs hcall

/-! ### What comes last -/

/-- A column, whose tasks stay in their order, has got one more at its end. -/
theorem board_created {payload : ProjectTaskCreate} {row : ProjectTask × Option PlannerUser}
    (hok : (s.createTask userId projectId payload made).1 = .ok row) :
    (s.createTask userId projectId payload made).2.db.board projectId payload.status =
        s.db.board projectId payload.status ++ [row.1.id] ∧
      ∀ other status, (other, status) ≠ (projectId, payload.status) →
        (s.createTask userId projectId payload made).2.db.board other status = s.db.board other status := by
  rcases createTask_cases s userId projectId payload made with ⟨raised, heq⟩ | ⟨created, heq, hcolumn, hposition, hrows⟩
  · rw [heq] at hok
    exact nomatch hok
  obtain rfl := Except.ok.inj (heq.symm.trans hok)
  have hnil := List.append_nil s.db.tasks.rows
  constructor
  · have hlast := boardColumn_last s.db.tasks.rows [] hcolumn fun other hother hin ↦ by
      rw [hposition]
      exact position_lt_next (hnil ▸ hother) hin
    rw [PlannerDb.board, hrows, hlast, hnil, List.map_append]
    rfl
  · intro other status hne
    have hnot : inBoardColumn other status created.1 = false := Bool.eq_false_iff.2 fun hin ↦ hne <|
      Prod.ext ((inBoardColumn_iff.1 hin).1.symm.trans (inBoardColumn_iff.1 hcolumn).1)
        ((inBoardColumn_iff.1 hin).2.symm.trans (inBoardColumn_iff.1 hcolumn).2)
    have hsame := boardColumn_other s.db.tasks.rows [] hnot
    rw [PlannerDb.board, hrows, hsame, hnil]
    rfl

/-- A task that changes its column is taken out of the one and put at the end of the other. -/
theorem board_updated {payload : ProjectTaskUpdate} {previous : ProjectTask} {row : ProjectTask × Option PlannerUser}
    (hprevious : s.db.getTaskById projectId taskId = some previous) (hstatus : payload.status = some (some status))
    (hne : status ≠ previous.status) (hok : (s.updateTask userId projectId taskId payload).1 = .ok row) :
    (s.updateTask userId projectId taskId payload).2.db.board projectId status =
        s.db.board projectId status ++ [taskId] ∧
      (s.updateTask userId projectId taskId payload).2.db.board projectId previous.status =
        (s.db.board projectId previous.status).filter (fun id ↦ id ≠ taskId) ∧
      ∀ other status', (other, status') ≠ (projectId, status) → (other, status') ≠ (projectId, previous.status) →
        (s.updateTask userId projectId taskId payload).2.db.board other status' = s.db.board other status' := by
  rcases updateTask_cases s userId projectId taskId payload with
    ⟨raised, heq⟩ | ⟨found, updated, assigneeId, hfound, heq, hrow, hrows⟩
  · rw [heq] at hok
    exact nomatch hok
  obtain rfl := Except.ok.inj (heq.symm.trans hok)
  obtain rfl := Option.some.inj (hprevious.symm.trans hfound)
  obtain ⟨hmem, rfl, rfl⟩ := PlannerDb.getTaskById_eq_some hprevious
  obtain ⟨left, right, hold, hnew, hothers, hid, hproject, hmoved | ⟨hkept, -⟩⟩ := updated_rows hmem hrow
  swap
  · exact absurd (hkept status hstatus) hne
  obtain ⟨status', hset, -, hput, hlast, -⟩ := hmoved
  obtain rfl := Option.some.inj (Option.some.inj (hstatus.symm.trans hset))
  have hcolumn : inBoardColumn previous.projectId status updated.1 = true := inBoardColumn_iff.2 ⟨hproject, hput⟩
  have hnotThere {other : Uuid} {status' : TaskStatus} (h : (other, status') ≠ (previous.projectId, status)) :
      inBoardColumn other status' updated.1 = false := Bool.eq_false_iff.2 fun hin ↦ h <|
    Prod.ext ((inBoardColumn_iff.1 hin).1.symm.trans hproject) ((inBoardColumn_iff.1 hin).2.symm.trans hput)
  have hnotHere {other : Uuid} {status' : TaskStatus} (h : (other, status') ≠ (previous.projectId, previous.status)) :
      inBoardColumn other status' previous = false := Bool.eq_false_iff.2 fun hin ↦ h <|
    Prod.ext (inBoardColumn_iff.1 hin).1.symm (inBoardColumn_iff.1 hin).2.symm
  have hpair : (previous.projectId, status) ≠ (previous.projectId, previous.status) := fun h ↦ hne (Prod.mk.inj h).2
  refine ⟨?_, ?_, fun other status' hthere hhere ↦ ?_⟩
  · rw [PlannerDb.board, hrows, hnew, boardColumn_last _ _ hcolumn fun other hother hin ↦ hlast other hother <| by
      rw [hproject, hput]
      exact hin]
    rw [PlannerDb.board, hold, boardColumn_other _ _ (hnotHere hpair), List.map_append, ← hid]
    rfl
  · have hwithout : (left ++ previous :: right).filter (fun task ↦ task.id ≠ previous.id) = left ++ right := by
      have hkeep (part : List ProjectTask) (hpart : ∀ other ∈ part, other ∈ left ++ right) :
          part.filter (fun task ↦ task.id ≠ previous.id) = part :=
        List.filter_eq_self.2 fun other hother ↦ decide_eq_true (hothers other (hpart other hother))
      rw [List.filter_append, List.filter_cons_of_neg (by simp), hkeep left fun _ h ↦ List.mem_append_left _ h,
        hkeep right fun _ h ↦ List.mem_append_right _ h]
    rw [PlannerDb.board, hrows, hnew, boardColumn_other _ _ (hnotThere hpair.symm), PlannerDb.board, List.filter_map]
    refine congrArg (List.map ProjectTask.id) ?_
    rw [hold, ← hwithout, ← boardColumn_filter]
    rfl
  · rw [PlannerDb.board, hrows, hnew, boardColumn_other _ _ (hnotThere hthere), PlannerDb.board, hold,
      boardColumn_other _ _ (hnotHere hhere)]

/-- **Positions stay an order of the board.** In every state the positions of a column are positive and distinct; a task
that is created, or moved by an update, comes last in its column, and all others keep their order. -/
theorem positions_ordered (h : boardMachine.Reachable SmallBoards s) :
    BoardOrdered s.db.tasks.rows ∧
      (∀ userId projectId payload made row, (s.createTask userId projectId payload made).1 = .ok row →
        (s.createTask userId projectId payload made).2.db.board projectId payload.status =
            s.db.board projectId payload.status ++ [row.1.id] ∧
          ∀ other status, (other, status) ≠ (projectId, payload.status) →
            (s.createTask userId projectId payload made).2.db.board other status = s.db.board other status) ∧
      ∀ userId projectId taskId payload previous status row, s.db.getTaskById projectId taskId = some previous →
        payload.status = some (some status) → status ≠ previous.status →
        (s.updateTask userId projectId taskId payload).1 = .ok row →
        (s.updateTask userId projectId taskId payload).2.db.board projectId status =
            s.db.board projectId status ++ [taskId] ∧
          (s.updateTask userId projectId taskId payload).2.db.board projectId previous.status =
            (s.db.board projectId previous.status).filter (fun id ↦ id ≠ taskId) ∧
          ∀ other status', (other, status') ≠ (projectId, status) → (other, status') ≠ (projectId, previous.status) →
            (s.updateTask userId projectId taskId payload).2.db.board other status' = s.db.board other status' :=
  ⟨boardOrdered_reachable h, fun _ _ _ _ _ hok ↦ board_created hok, fun _ _ _ _ _ _ _ hprevious hstatus hne hok ↦
    board_updated hprevious hstatus hne hok⟩

/-- A project with two tasks, of which one was moved and both were put into one column again. -/
def reorderedBoard : PlannerState :=
  ((((onePlanner.after (.createProject 1 "Launch" none none ⟨100, 0, 1⟩)).after
    (.createTask 1 100 { title := "Write it up" } ⟨200, 0, 2⟩)).after
    (.createTask 1 100 { title := "Send it" } ⟨201, 0, 3⟩)).after
    (.updateTask 1 100 200 { status := some (some .todo) })).after (.reorderTasks 1 100 [⟨.backlog, [201, 200]⟩])

theorem smallBoards_of_few (hfew : s.db.tasks.rows.length ≤ maxTaskLimit)
    (hnodup : ∀ userId projectId columns, call = .reorderTasks userId projectId columns →
      (columns.map ProjectTaskReorderColumn.status).Nodup) : SmallBoards s call :=
  ⟨fun _ ↦ (List.length_filter_le _ _).trans hfew, hnodup⟩

theorem reachable_reorderedBoard : boardMachine.Reachable SmallBoards reorderedBoard := by
  have hinit : boardMachine.Reachable SmallBoards onePlanner := Machine.Reachable.of_init (by exact rfl)
  refine ((((hinit.tail ?_ rfl).tail ?_ rfl).tail ?_ rfl).tail ?_ rfl).tail ?_ rfl
  any_goals exact smallBoards_of_few (by decide +kernel) fun _ _ _ h ↦ PlannerCall.noConfusion h
  refine smallBoards_of_few (by decide +kernel) fun _ _ _ h ↦ ?_
  obtain ⟨-, -, rfl⟩ := PlannerCall.reorderTasks.inj h
  decide

/-- One of the two is moved again. -/
theorem positions_ordered_moved :
    reorderedBoard.db.board 100 .backlog = [201, 200] ∧
      (reorderedBoard.updateTask 1 100 201 { status := some (some .done) }).2.db.board 100 .done = [201] ∧
      (reorderedBoard.updateTask 1 100 201 { status := some (some .done) }).2.db.board 100 .backlog = [200] := by
  have hok : ∃ previous row, reorderedBoard.db.getTaskById 100 201 = some previous ∧ previous.status = .backlog ∧
      (reorderedBoard.updateTask 1 100 201 { status := some (some .done) }).1 = .ok row :=
    ⟨_, _, by rfl, by decide +kernel, by rfl⟩
  obtain ⟨previous, row, hprevious, hstatus, hok⟩ := hok
  have hmoved := (positions_ordered reachable_reorderedBoard).2.2 1 100 201 _ previous .done row hprevious rfl
    (by rw [hstatus]; decide) hok
  have hbefore : reorderedBoard.db.board 100 .backlog = [201, 200] ∧ reorderedBoard.db.board 100 .done = [] := by
    decide +kernel
  rw [hstatus, hbefore.1, hbefore.2] at hmoved
  exact ⟨hbefore.1, hmoved.1, hmoved.2.1.trans (by decide)⟩

end Runs

end GenericApp
